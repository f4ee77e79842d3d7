import ExprLang.Proofs.BuiltinCalls
import ExprLang.Proofs.Equality
import ExprLang.Proofs.Fields
import ExprLang.Registry

/-!
# Maps that are made of entries

The built-in function `map` takes entries one after the other. An entry with a new key goes to the end;
one whose key is equal to a key that is there gives it a new value. Equality of keys is not reflexive, so
a key that is not equal to itself is new each time, and is never found. But since equality is symmetric
and transitive, it makes no difference by which of two equal keys a value is put or looked for.

Main statement: `invoke_map`.
-/

namespace ExprLang

variable {V : Vocabulary}

/-! ## One entry -/

namespace Entry

/-- The entry has a key and a value of these types. -/
def HasTypes (keyType valueType : String) (e : Entry V) : Prop :=
  e.key.typeName = keyType ∧ e.value.typeName = valueType

theorem find?_cons (x : Entry V) (entries : List (Entry V)) (k : Value V) :
    find? (x :: entries) k = if (x.key == k) = true then some x.value else find? entries k := by
  unfold find?
  rw [List.find?_cons]
  cases x.key == k <;> rfl

theorem find?_string_cons (m : String) (v : Value V) (entries : List (Entry V)) (name : String) :
    find? (.mk (.string m) v :: entries) (.string name) =
      if name = m then some v else find? entries (.string name) := by
  have hkey : ((Entry.mk (.string m) v : Entry V).key == .string name) = true ↔ name = m := by
    rw [Entry.key, Value.string_beq_iff, Value.string.injEq]
  rw [find?_cons]
  simp only [hkey]
  rfl

end Entry

namespace Collections

open Entry

/-- What is put under a key is found under every equal key, and nothing else changes. -/
theorem find?_putEntry (e : Entry V) (made : List (Entry V)) (k : Value V) :
    find? (putEntry e made) k = if (e.key == k) = true then some e.value else find? made k := by
  induction made with
  | nil => rw [putEntry, find?_cons]
  | cons x made ih =>
    rw [putEntry]
    by_cases hput : (x.key == e.key) = true
    · have hsame : (x.key == k) = (e.key == k) := BEq.congr_left hput
      rw [if_pos hput, find?_cons, find?_cons]
      show (if (x.key == k) = true then some e.value else _) = _
      rw [hsame]
      by_cases he : (e.key == k) = true
      · rw [if_pos he, if_pos he]
      · rw [if_neg he, if_neg he, if_neg he]
    · rw [if_neg hput, find?_cons, find?_cons, ih]
      by_cases hx : (x.key == k) = true
      · have he : ¬ (e.key == k) = true := fun he => hput (BEq.trans hx (BEq.symm he))
        rw [if_pos hx, if_neg he, if_pos hx]
      · rw [if_neg hx, if_neg hx]

theorem keys_putEntry (e : Entry V) (made : List (Entry V)) :
    (putEntry e made).map key =
      if (made.map key).any (e.key == ·) = true then made.map key else made.map key ++ [e.key] := by
  induction made with
  | nil => rfl
  | cons x made ih =>
    rw [putEntry, List.map_cons, List.any_cons, BEq.comm]
    by_cases hput : (e.key == x.key) = true
    · rw [if_pos hput, hput, Bool.true_or, if_pos rfl]
      rfl
    · rw [if_neg hput, Bool.eq_false_iff.mpr hput, Bool.false_or, List.map_cons, ih]
      split
      · rfl
      · rfl

/-! ## All entries -/

def putAll (made entries : List (Entry V)) : List (Entry V) :=
  entries.foldl (fun made e => putEntry e made) made

theorem find?_putAll (entries : List (Entry V)) (k : Value V) :
    find? (putAll [] entries) k = find? entries.reverse k := by
  induction entries using List.reverseRecOn with
  | nil => rfl
  | append_singleton entries e ih =>
    unfold putAll at ih ⊢
    rw [List.foldl_append, List.foldl_cons, List.foldl_nil, find?_putEntry, ih, List.reverse_append,
      List.reverse_singleton, List.singleton_append, find?_cons]

theorem keys_putAll (made entries : List (Entry V)) :
    (putAll made entries).map key =
      List.eraseDupsBy.loop (· == ·) (entries.map key) (made.map key).reverse := by
  induction entries generalizing made with
  | nil => rw [List.map_nil, List.eraseDupsBy.loop, List.reverse_reverse]; rfl
  | cons e entries ih =>
    rw [List.map_cons, List.eraseDupsBy.loop, List.any_reverse]
    show (putAll (putEntry e made) entries).map key = _
    rw [ih, keys_putEntry]
    cases (made.map key).any (e.key == ·) with
    | true => rfl
    | false => simp

theorem keysDiffer_iff {entries : List (Entry V)} :
    KeysDiffer entries ↔ (entries.map key).Pairwise fun a b => (a == b) = false :=
  (List.pairwise_map (R := fun a b : Value V => (a == b) = false)).symm

theorem keysDiffer_putEntry {made : List (Entry V)} (h : KeysDiffer made) (e : Entry V) :
    KeysDiffer (putEntry e made) := by
  rw [keysDiffer_iff] at h ⊢
  rw [keys_putEntry]
  split
  · exact h
  · rename_i hnew
    refine List.pairwise_append.mpr ⟨h, List.pairwise_singleton _ _, ?_⟩
    intro a ha b hb
    rw [List.mem_singleton.mp hb, BEq.comm, ← Bool.not_eq_true]
    intro heq
    exact hnew (List.any_eq_true.mpr ⟨a, ha, heq⟩)

theorem keysDiffer_putAll {made : List (Entry V)} (h : KeysDiffer made) (entries : List (Entry V)) :
    KeysDiffer (putAll made entries) := by
  induction entries generalizing made with
  | nil => exact h
  | cons e entries ih => exact ih (keysDiffer_putEntry h e)

/-- All entries are put if all have the types, and otherwise the first one that has not is refused. -/
theorem putEntries_eq (keyType valueType : String) (made entries : List (Entry V)) :
    (∀ e ∈ entries, e.HasTypes keyType valueType) ∧
        putEntries keyType valueType made entries = .ok (putAll made entries) ∨
      (¬ ∀ e ∈ entries, e.HasTypes keyType valueType) ∧
        ∃ reason, putEntries keyType valueType made entries = .error reason := by
  induction entries generalizing made with
  | nil => exact .inl ⟨List.forall_mem_nil _, rfl⟩
  | cons e entries ih =>
    rw [putEntries, List.forall_mem_cons]
    by_cases htypes : e.key.typeName = keyType ∧ e.value.typeName = valueType
    · rw [if_pos htypes]
      rcases ih (putEntry e made) with ⟨hall, hput⟩ | ⟨hnot, hrefused⟩
      · exact .inl ⟨⟨htypes, hall⟩, hput⟩
      · exact .inr ⟨fun h => hnot h.2, hrefused⟩
    · rw [if_neg htypes]
      exact .inr ⟨fun h => htypes h.1, _, rfl⟩

end Collections

/-! ## The built-in function -/

/-- What a map of entries holds: no two equal keys; the keys in the order in which they occur first; and
under every value, what the last entry with an equal key put there. -/
structure Entry.Collects (entries made : List (Entry V)) : Prop where
  differ : KeysDiffer made
  keys : made.map key = (entries.map key).eraseDups
  find : ∀ k, find? made k = find? entries.reverse k

theorem Collections.collects_putAll (entries : List (Entry V)) :
    Entry.Collects entries (putAll [] entries) where
  differ := keysDiffer_putAll List.Pairwise.nil entries
  keys := keys_putAll [] entries
  find := find?_putAll entries

theorem Argument.ofValues_entries (host : Host V) (site : Site) (i : Nat)
    (entries : List (Entry V)) :
    Argument.ofValues host site i (entries.map .entry) = entries.map fun e => .value (.entry e) := by
  induction entries generalizing i with
  | nil => rfl
  | cons e entries ih =>
    rw [List.map_cons, ofValues, ih, List.map_cons]
    rfl

theorem Builtin.invoke_map_eq (host : Host V) (stamp : Nat) (site : Site)
    (entries : List (Entry V)) :
    (Builtin.map.toFunction stamp).invokeAt host site (entries.map .entry) =
      (Outcome.ofExcept (Collections.map entries)).toExcept := by
  unfold Function.invokeAt
  rw [Argument.ofValues_entries]
  exact call_map site entries

/-- Entries with the types of the first one make a map, and it collects them. Other entries do not. -/
theorem invoke_map (host : Host V) (stamp : Nat) (site : Site) (first : Entry V)
    (rest : List (Entry V)) :
    ((∃ results, (Builtin.map.toFunction stamp).invokeAt host site ((first :: rest).map .entry) =
        .ok results) ↔
      ∀ e ∈ first :: rest, e.HasTypes first.key.typeName first.value.typeName) ∧
    ∀ results,
      (Builtin.map.toFunction stamp).invokeAt host site ((first :: rest).map .entry) = .ok results →
        ∃ made, results = [.map made] ∧ Entry.Collects (first :: rest) made := by
  rw [Builtin.invoke_map_eq, Collections.map]
  rcases Collections.putEntries_eq first.key.typeName first.value.typeName [] (first :: rest) with
    ⟨htypes, hput⟩ | ⟨hnot, reason, hput⟩
  · rw [hput]
    refine ⟨iff_of_true ⟨_, rfl⟩ htypes, ?_⟩
    intro results hresults
    cases hresults
    exact ⟨_, rfl, Collections.collects_putAll (first :: rest)⟩
  · rw [hput]
    refine ⟨iff_of_false nofun hnot, ?_⟩
    intro results hresults
    cases hresults

/-- The two zeros are one key, which keeps its first form. What is not a number is a new key each time, and
is never found. -/
theorem invoke_map_zeros :
    let entries : List (Entry .empty) :=
      [⟨.float64 (.zero true), .bool true⟩, ⟨.float64 .nan, .bool true⟩,
        ⟨.float64 (.zero false), .bool false⟩, ⟨.float64 .nan, .bool false⟩]
    ∃ made, (Builtin.map.toFunction 0).invokeAt Host.empty [] (entries.map .entry) =
        .ok [.map made] ∧
      Entry.Collects entries made ∧
      made.map Entry.key = [.float64 (.zero true), .float64 .nan, .float64 .nan] ∧
      Entry.find? made (.float64 (.zero true)) = some (.bool false) ∧
      Entry.find? made (.float64 .nan) = none := by
  intro entries
  obtain ⟨hsucceeds, hmade⟩ := invoke_map Host.empty 0 [] ⟨.float64 (.zero true), .bool true⟩
    entries.tail
  have htypes : ∀ e ∈ entries, e.HasTypes "float64" "bool" := by
    intro e he
    simp only [entries, List.mem_cons, List.not_mem_nil, or_false] at he
    rcases he with rfl | rfl | rfl | rfl <;> exact ⟨rfl, rfl⟩
  obtain ⟨results, hresults⟩ := hsucceeds.mpr htypes
  obtain ⟨made, rfl, hcollects⟩ := hmade results hresults
  refine ⟨made, hresults, hcollects, ?_, ?_, ?_⟩
  · rw [hcollects.keys]
    rfl
  · rw [hcollects.find]
    rfl
  · rw [hcollects.find]
    rfl

end ExprLang
