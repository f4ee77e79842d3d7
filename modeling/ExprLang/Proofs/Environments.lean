import ExprLang.Evaluate
import ExprLang.Proofs.ByteOrder
import ExprLang.Proofs.Equality
import ExprLang.Proofs.MapBuilding
import Mathlib.Data.Finmap

/-!
# Environments as finite maps

An environment keeps its bindings in the order of their names, but what can be asked of it is what can be
asked of a finite map, and so it stays through every sequence of changes. Each change answers what it
displaced. The value of a whole environment lists the bindings in the order of the bytes of their names,
whatever the order was in which they were made, and looking a name up in that value is looking it up in
the environment.

Main statement: `session_agrees`.
-/

namespace ExprLang

variable {V : Vocabulary}

/-! ## Changes -/

abbrev Bindings (V : Vocabulary) := Finmap fun _ : String => Value V

/-- A change of an environment. `extend` is `set` while an environment is built: there is no answer. -/
inductive Change (V : Vocabulary) where
  | set (name : String) (v : Value V)
  | extend (name : String) (v : Value V)
  | remove (name : String)

/-- The answer to a change, if there is one: the value that was displaced, if there was one. -/
abbrev Displaced (V : Vocabulary) := Option (Option (Value V))

def Env.change (env : Env V) : Change V → Displaced V × Env V
  | .set name v => (some (env.set name v).1, (env.set name v).2)
  | .extend name v => (none, (env.set name v).2)
  | .remove name => (some (env.remove name).1, (env.remove name).2)

def Bindings.change (m : Bindings V) : Change V → Displaced V × Bindings V
  | .set name v => (some (m.lookup name), m.insert name v)
  | .extend name v => (none, m.insert name v)
  | .remove name => (some (m.lookup name), m.erase name)

/-- What a sequence of changes answers and what it leaves. -/
def session {S : Type} (change : S → Change V → Displaced V × S) (s : S) :
    List (Change V) → List (Displaced V) × S
  | [] => ([], s)
  | c :: rest =>
    let (answer, s) := change s c
    let (answers, s) := session change s rest
    (answer :: answers, s)

/-! ## An environment as its bindings -/

namespace Env

def pairs (env : Env V) : List (Σ _ : String, Value V) := env.entries.map fun e => ⟨e.1, e.2⟩

theorem nodupKeys_pairs (env : Env V) : env.pairs.NodupKeys := by
  have hkeys : env.pairs.keys = env.entries.map Prod.fst := by
    rw [pairs, List.keys, List.map_map]
    rfl
  rw [List.NodupKeys, hkeys]
  exact Entries.nodup_names_of_ascending env.ascending

/-- The finite map that an environment stands for. -/
def bindings (env : Env V) : Bindings V := ⟨env.pairs, env.nodupKeys_pairs⟩

theorem lookup_bindings (env : Env V) (name : String) :
    env.bindings.lookup name = env.find? name := by
  have hlookup : ∀ entries : List (String × Value V),
      (entries.map fun e => (⟨e.1, e.2⟩ : Σ _ : String, Value V)).dlookup name =
        entries.lookup name := by
    intro entries
    induction entries with
    | nil => rfl
    | cons e rest ih =>
      obtain ⟨m, v⟩ := e
      rw [List.map_cons, Entries.lookup_cons]
      by_cases hname : name = m
      · rw [if_pos hname, ← hname, List.dlookup_cons_eq]
      · rw [if_neg hname, List.dlookup_cons_ne _ _ hname, ih]
  exact hlookup env.entries

theorem bindings_insert (env : Env V) (name : String) (v : Value V) :
    bindings (env.insert name v) = env.bindings.insert name v := by
  refine Finmap.ext_lookup fun other => ?_
  rw [lookup_bindings, Table.find?_insert]
  by_cases hother : other = name
  · rw [if_pos hother, hother, Finmap.lookup_insert]
  · rw [if_neg hother, Finmap.lookup_insert_of_ne _ hother, lookup_bindings]

theorem bindings_erase (env : Env V) (name : String) :
    bindings (env.erase name) = env.bindings.erase name := by
  refine Finmap.ext_lookup fun other => ?_
  rw [lookup_bindings, Table.find?_erase]
  by_cases hother : other = name
  · rw [if_pos hother, hother, Finmap.lookup_erase]
  · rw [if_neg hother, Finmap.lookup_erase_ne hother, lookup_bindings]

theorem change_bindings (env : Env V) (c : Change V) :
    env.bindings.change c = ((env.change c).1, (env.change c).2.bindings) := by
  cases c with
  | set name v => rw [Bindings.change, lookup_bindings, ← bindings_insert, Env.change, Env.set]
  | extend name v => rw [Bindings.change, ← bindings_insert, Env.change, Env.set]
  | remove name => rw [Bindings.change, lookup_bindings, ← bindings_erase, Env.change, Env.remove]

theorem session_bindings (env : Env V) (changes : List (Change V)) :
    session Bindings.change env.bindings changes =
      ((session change env changes).1, (session change env changes).2.bindings) := by
  induction changes generalizing env with
  | nil => rfl
  | cons c changes ih => simp only [session, change_bindings, ih]

theorem bindings_empty : bindings (Table.empty : Env V) = ∅ := rfl

/-! ## What can be asked of an environment -/

/-- Everything that can be asked of the environment is answered as these bindings say. -/
structure Agrees (env : Env V) (m : Bindings V) : Prop where
  find : ∀ name, env.find? name = m.lookup name
  contains : ∀ name, env.contains name = true ↔ name ∈ m
  size : env.size = m.keys.card
  isEmpty : env.isEmpty = true ↔ m = ∅
  pairs : (env.pairs : Multiset (Σ _ : String, Value V)) = m.entries

theorem size_eq_card_keys (env : Env V) : env.size = env.bindings.keys.card := by
  show env.entries.length = ((env.pairs : Multiset (Σ _ : String, Value V)).map Sigma.fst).card
  rw [Multiset.card_map, Multiset.coe_card, pairs, List.length_map]

theorem agrees_bindings (env : Env V) : env.Agrees env.bindings where
  find name := (lookup_bindings env name).symm
  contains name := by
    rw [Table.contains, ← lookup_bindings, Finmap.lookup_isSome]
  size := size_eq_card_keys env
  isEmpty := by
    rw [Env.isEmpty, decide_eq_true_iff, size_eq_card_keys, Finset.card_eq_zero]
    constructor
    · intro hkeys
      refine Finmap.ext_lookup fun name => ?_
      rw [Finmap.lookup_empty, Finmap.lookup_eq_none, ← Finmap.mem_keys, hkeys]
      exact Finset.notMem_empty name
    · intro h
      rw [h, Finmap.keys_empty]
  pairs := rfl

end Env

/-! ## The value of a whole environment -/

theorem Entry.find?_named (bindings : List (String × Value V)) (name : String) :
    Entry.find? (bindings.map fun (name, v) => .mk (.string name) v) (.string name) =
      bindings.lookup name := by
  induction bindings with
  | nil => rfl
  | cons b rest ih =>
    obtain ⟨m, v⟩ := b
    rw [List.map_cons, Entry.find?_string_cons, ih, Entries.lookup_cons]

/-- The value is a map of these bindings, each of them once, in the order of the bytes of their names. -/
structure Value.Lists (v : Value V) (m : Bindings V) : Prop where
  map : ∃ bindings : List (String × Value V),
    v = .map (bindings.map fun (name, w) => .mk (.string name) w) ∧
      ((bindings.map fun b => ⟨b.1, b.2⟩ : List (Σ _ : String, Value V)) : Multiset _) = m.entries ∧
      bindings.Pairwise fun b c => Text.utf8 b.1 < Text.utf8 c.1
  entry? : ∀ name, v.entry? name = m.lookup name

namespace Env

theorem entry?_toValue (env : Env V) (name : String) : env.toValue.entry? name = env.find? name :=
  Entry.find?_named env.entries name

theorem lists_toValue (env : Env V) : env.toValue.Lists env.bindings where
  map := ⟨env.entries, rfl, rfl, env.ascending.imp fun h => Text.lt_iff_utf8_lt.mp h⟩
  entry? name := by rw [entry?_toValue, lookup_bindings]

/-- The value of a whole environment is known by its bindings, and they by it. -/
theorem toValue_eq_iff {env env' : Env V} :
    env.toValue = env'.toValue ↔ env.bindings = env'.bindings := by
  constructor
  · intro h
    refine Finmap.ext_lookup fun name => ?_
    rw [lookup_bindings, lookup_bindings, ← entry?_toValue, h, entry?_toValue]
  · intro h
    have hpairs : env.pairs.Perm env'.pairs := Multiset.coe_eq_coe.mp (congrArg Finmap.entries h)
    have hperm := hpairs.map fun b => (b.1, b.2)
    simp only [pairs, List.map_map, Function.comp_def, List.map_id'] at hperm
    have hentries : env.entries = env'.entries := by
      refine hperm.eq_of_pairwise (fun _ _ _ _ hlt hgt => ?_) env.ascending env'.ascending
      exact absurd hgt (String.lt_asymm hlt)
    rw [toValue, toValue, hentries]

end Env

/-! ## A name and a property -/

theorem Expr.evaluate_lookup_iff {env : Env V} (hempty : env.find? "" = none) {name : String}
    (hname : name ≠ "") (host : Host V) (v : Value V) :
    (Expr.lookup name).evaluate host env = .ok v ↔
      (Expr.field (.lookup "") name).evaluate host env = .ok v := by
  have hwhole : env.value "" = .ok env.toValue := by
    rw [Env.value, hempty, if_pos rfl]
  have hfield : env.toValue.field? host name = env.find? name := Env.entry?_toValue env name
  unfold Expr.evaluate
  rw [Expr.evaluateAt_field, Expr.evaluateAt, Expr.evaluateAt, hwhole]
  show _ ↔ env.toValue.property host name = .ok v
  rw [Value.property, if_neg hname, hfield, Env.value]
  cases env.find? name with
  | some w => rfl
  | none =>
    rw [if_neg hname]
    constructor
    · intro h
      cases h
    · intro h
      cases h

/-! ## Sessions -/

/-- Through every sequence of changes, an environment answers as the finite map of its bindings does. Its
value lists the bindings in the order of the bytes of their names, so it shows what the bindings are and
not how they were made. A name that is looked up alone is found as a property of the whole environment
too, with the same value. -/
theorem session_agrees (host : Host V) :
    (∀ changes : List (Change V),
      let (answers, env) := session Env.change Table.empty changes
      let (answers', m) := session Bindings.change ∅ changes
      answers = answers' ∧ env.Agrees m ∧ env.toValue.Lists m) ∧
    (∀ changes changes' : List (Change V),
      (session Env.change Table.empty changes).2.toValue =
          (session Env.change Table.empty changes').2.toValue ↔
        (session Bindings.change ∅ changes).2 = (session Bindings.change ∅ changes').2) ∧
    (∀ env : Env V, env.find? "" = none → ∀ name, name ≠ "" → ∀ v,
      (Expr.lookup name).evaluate host env = .ok v ↔
        (Expr.field (.lookup "") name).evaluate host env = .ok v) := by
  have hsession : ∀ changes : List (Change V), session Bindings.change ∅ changes =
      ((session Env.change Table.empty changes).1,
        Env.bindings (session Env.change Table.empty changes).2) := by
    intro changes
    rw [← Env.session_bindings, Env.bindings_empty]
  refine ⟨fun changes => ?_, fun changes changes' => ?_, ?_⟩
  · rw [hsession]
    exact ⟨rfl, Env.agrees_bindings _, Env.lists_toValue _⟩
  · rw [hsession, hsession]
    exact Env.toValue_eq_iff
  · intro env hempty name hname v
    exact Expr.evaluate_lookup_iff hempty hname host v

/-- Binding `é`, then `z`, then `é` again: the value lists `z` first. -/
theorem session_agrees_rebound :
    let changes : List (Change Vocabulary.empty) :=
      [.set "é" .nil, .extend "z" (.bool true), .set "é" (.bool false), .remove "y"]
    let (answers, env) := session Env.change Table.empty changes
    answers = [some none, none, some (some .nil), some none] ∧
      env.toValue = .map [.mk (.string "z") (.bool true), .mk (.string "é") (.bool false)] ∧
      env.toValue.Lists (session Bindings.change ∅ changes).2 ∧
      env.find? "" = none ∧
      (Expr.field (.lookup "") "é").evaluate Host.empty env = .ok (.bool false) := by
  intro changes
  have hall := session_agrees Host.empty
  have hempty : Table.find? (session Env.change Table.empty changes).2 "" = none := by rfl
  refine ⟨by rfl, by rfl, (hall.1 changes).2.2, hempty, ?_⟩
  exact (hall.2.2 _ hempty "é" (by decide) (.bool false)).mp (by rfl)

end ExprLang
