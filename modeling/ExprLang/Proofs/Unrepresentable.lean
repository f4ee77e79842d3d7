import ExprLang.Proofs.Fields
import ExprLang.Proofs.Induction
import ExprLang.Proofs.Rounding

/-!
# Values without a document

A value has no document exactly if it holds something that JSON cannot show. Values are searched for it
from left to right. The items of a list, the values of a map and both halves of an entry are searched at
any depth; the key of a map becomes a name and is asked for nothing but its kind, in front of the value
that it belongs to. The error describes the first fragment that cannot be shown.

Main statement: `toJson_eq_error_iff`.
-/

namespace ExprLang

variable {V : Vocabulary}

/-! ## Fragments -/

/-- What can be in the way of a document: a value, or the key of a map. -/
inductive Fragment (V : Vocabulary) where
  | value (v : Value V)
  | key (v : Value V)

mutual

/-- The fragments within a value, from left to right. There are none within the key of a map. -/
def Value.inside : Value V → List (Fragment V)
  | .list items => Value.insideAll items
  | .map entries => Entry.insideAll entries
  | .entry (.mk key value) => .value key :: Value.inside key ++ .value value :: Value.inside value
  | _ => []
termination_by structural x => x

def Value.insideAll : List (Value V) → List (Fragment V)
  | [] => []
  | v :: rest => .value v :: Value.inside v ++ Value.insideAll rest
termination_by structural x => x

/-- The key and the fragments of the value. -/
def Entry.inside : Entry V → List (Fragment V)
  | .mk key value => .key key :: .value value :: Value.inside value
termination_by structural x => x

def Entry.insideAll : List (Entry V) → List (Fragment V)
  | [] => []
  | e :: rest => Entry.inside e ++ Entry.insideAll rest
termination_by structural x => x

end

/-- The value and the fragments within it. -/
def Value.fragments (v : Value V) : List (Fragment V) := .value v :: v.inside

namespace Fragment

/-- The fragment is the value, or it stands within it, and not within the key of a map. -/
inductive Of : Fragment V → Value V → Prop where
  | self (v : Value V) : Of (.value v) v
  | item {p : Fragment V} {v : Value V} {items : List (Value V)} :
      v ∈ items → Of p v → Of p (.list items)
  | mapKey {e : Entry V} {entries : List (Entry V)} : e ∈ entries → Of (.key e.key) (.map entries)
  | mapValue {p : Fragment V} {e : Entry V} {entries : List (Entry V)} :
      e ∈ entries → Of p e.value → Of p (.map entries)
  | entryKey {p : Fragment V} {e : Entry V} : Of p e.key → Of p (.entry e)
  | entryValue {p : Fragment V} {e : Entry V} : Of p e.value → Of p (.entry e)

/-- JSON cannot show the fragment, with the description of what it is. -/
inductive Unrepresentable : Fragment V → String → Prop where
  | key {v : Value V} : ¬ v.IsKey → Unrepresentable (.key v) ("map key of type " ++ v.typeName)
  | float32 {x : Binary .single} :
      x.isFinite = false → Unrepresentable (.value (.float32 x)) ("float " ++ x.text)
  | float64 {x : Binary .double} :
      x.isFinite = false → Unrepresentable (.value (.float64 x)) ("float " ++ x.text)
  | object (o : V.Object) : Unrepresentable (.value (.object o)) ("object " ++ V.typeName o)
  | expression (e : Expr V) :
      Unrepresentable (.value (.expression e)) ("expression " ++ e.render)

end Fragment

/-! ## The fragments of a value -/

theorem Value.insideAll_eq_flatMap (items : List (Value V)) :
    Value.insideAll items = items.flatMap Value.fragments := by
  induction items with
  | nil => rfl
  | cons v rest ih => rw [insideAll, ih, List.flatMap_cons, fragments]

theorem Entry.insideAll_eq_flatMap (entries : List (Entry V)) :
    Entry.insideAll entries = entries.flatMap fun e => .key e.key :: e.value.fragments := by
  induction entries with
  | nil => rfl
  | cons e rest ih =>
    obtain ⟨key, value⟩ := e
    rw [insideAll, ih, List.flatMap_cons, inside]
    rfl

theorem Value.fragments_list (items : List (Value V)) :
    (list items).fragments = .value (list items) :: items.flatMap fragments := by
  rw [fragments, inside, insideAll_eq_flatMap]

theorem Value.fragments_map (entries : List (Entry V)) :
    (map entries).fragments =
      .value (map entries) :: entries.flatMap fun e => .key e.key :: e.value.fragments := by
  rw [fragments, inside, Entry.insideAll_eq_flatMap]

theorem Value.fragments_entry (e : Entry V) :
    (entry e).fragments = .value (entry e) :: (e.key.fragments ++ e.value.fragments) := by
  obtain ⟨key, value⟩ := e
  rfl

theorem Value.mem_fragments_iff {v : Value V} {p : Fragment V} : p ∈ v.fragments ↔ p.Of v := by
  induction v using Value.induct generalizing p with
  | list items ih =>
    rw [fragments_list]
    simp only [List.mem_cons, List.mem_flatMap]
    constructor
    · rintro (rfl | ⟨v, hv, hp⟩)
      · exact .self _
      · exact .item hv ((ih v hv).mp hp)
    · rintro (_ | ⟨hv, hp⟩)
      · exact .inl rfl
      · exact .inr ⟨_, hv, (ih _ hv).mpr hp⟩
  | map entries ih =>
    rw [fragments_map]
    simp only [List.mem_cons, List.mem_flatMap]
    constructor
    · rintro (rfl | ⟨e, he, rfl | hp⟩)
      · exact .self _
      · exact .mapKey he
      · exact .mapValue he ((ih e he).mp hp)
    · rintro (_ | _ | he | ⟨he, hp⟩)
      · exact .inl rfl
      · exact .inr ⟨_, he, .inl rfl⟩
      · exact .inr ⟨_, he, .inr ((ih _ he).mpr hp)⟩
  | entry e hkey hvalue =>
    rw [fragments_entry]
    simp only [List.mem_cons, List.mem_append]
    constructor
    · rintro (rfl | hp | hp)
      · exact .self _
      · exact .entryKey (hkey.mp hp)
      · exact .entryValue (hvalue.mp hp)
    · rintro (_ | _ | _ | _ | hp | hp)
      · exact .inl rfl
      · exact .inr (.inl (hkey.mpr hp))
      · exact .inr (.inr (hvalue.mpr hp))
  | nil | bool | int | float32 | float64 | string | object | expression =>
    constructor
    · intro hp
      obtain rfl := List.mem_singleton.mp hp
      exact .self _
    · rintro ⟨⟩
      exact List.mem_singleton_self _

/-! ## Faults -/

def errorOf? {α : Type} : Except JsonError α → Option JsonError
  | .ok _ => none
  | .error err => some err

theorem errorOf?_eq_some_iff {α : Type} {x : Except JsonError α} {err : JsonError} :
    errorOf? x = some err ↔ x = .error err := by
  cases x <;> simp [errorOf?]

/-- What is wrong with a fragment as such. -/
def Fragment.fault? : Fragment V → Option JsonError
  | .key v => errorOf? v.toFieldName
  | .value (.float32 x) => errorOf? (Json.ofFloat x.convert)
  | .value (.float64 x) => errorOf? (Json.ofFloat x)
  | .value (.object o) => some (.unrepresentable ("object " ++ V.typeName o))
  | .value (.expression e) => some (.unrepresentable ("expression " ++ e.render))
  | .value _ => none

theorem errorOf?_toFieldName_eq_some_iff {v : Value V} {err : JsonError} :
    errorOf? v.toFieldName = some err ↔
      ¬ v.IsKey ∧ err = .unrepresentable ("map key of type " ++ v.typeName) := by
  rw [errorOf?_eq_some_iff]
  cases v with
  | bool b => exact iff_of_false nofun fun h => h.1 (.bool b)
  | int k n => exact iff_of_false nofun fun h => h.1 (.int k n)
  | float32 x => exact iff_of_false nofun fun h => h.1 (.float32 x)
  | float64 x => exact iff_of_false nofun fun h => h.1 (.float64 x)
  | string s => exact iff_of_false nofun fun h => h.1 (.string s)
  | nil | list | map | entry | object | expression =>
    constructor
    · intro h
      exact ⟨nofun, (Except.error.inj h).symm⟩
    · rintro ⟨-, rfl⟩
      rfl

theorem errorOf?_ofFloat_eq_some_iff {x : Binary .double} {err : JsonError} :
    errorOf? (Json.ofFloat x) = some err ↔
      x.isFinite = false ∧ err = .unrepresentable ("float " ++ x.text) := by
  unfold Json.ofFloat
  cases x.isFinite <;> simp [errorOf?, eq_comm]

/-- What is not finite has the same text in all formats. -/
theorem Binary.text_convert {f g : Format} {x : Binary f} (h : x.isFinite = false) :
    (x.convert : Binary g).text = x.text := by
  cases x with
  | finite => cases h
  | _ => rfl

/-- A single is judged, and described, as the double that it becomes. -/
theorem errorOf?_ofFloat_convert_eq_some_iff {x : Binary .single} {err : JsonError} :
    errorOf? (Json.ofFloat x.convert) = some err ↔
      x.isFinite = false ∧ err = .unrepresentable ("float " ++ x.text) := by
  rw [errorOf?_ofFloat_eq_some_iff, Binary.isFinite_convert Format.single_within_double (by decide)]
  refine and_congr_right fun h => ?_
  rw [Binary.text_convert h]

theorem Fragment.fault?_eq_some_iff {p : Fragment V} {err : JsonError} :
    p.fault? = some err ↔ ∃ what, p.Unrepresentable what ∧ err = .unrepresentable what := by
  constructor
  · intro h
    unfold fault? at h
    split at h
    · obtain ⟨hkey, herr⟩ := errorOf?_toFieldName_eq_some_iff.mp h
      exact ⟨_, .key hkey, herr⟩
    · obtain ⟨hfinite, herr⟩ := errorOf?_ofFloat_convert_eq_some_iff.mp h
      exact ⟨_, .float32 hfinite, herr⟩
    · obtain ⟨hfinite, herr⟩ := errorOf?_ofFloat_eq_some_iff.mp h
      exact ⟨_, .float64 hfinite, herr⟩
    · exact ⟨_, .object _, (Option.some.inj h).symm⟩
    · exact ⟨_, .expression _, (Option.some.inj h).symm⟩
    · cases h
  · rintro ⟨what, hp, rfl⟩
    cases hp with
    | key hkey => exact errorOf?_toFieldName_eq_some_iff.mpr ⟨hkey, rfl⟩
    | float32 hfinite => exact errorOf?_ofFloat_convert_eq_some_iff.mpr ⟨hfinite, rfl⟩
    | float64 hfinite => exact errorOf?_ofFloat_eq_some_iff.mpr ⟨hfinite, rfl⟩
    | object o => rfl
    | expression e => rfl

theorem Fragment.fault?_eq_none_iff {p : Fragment V} :
    p.fault? = none ↔ ∀ what, ¬ p.Unrepresentable what := by
  rw [Option.eq_none_iff_forall_ne_some]
  constructor
  · intro h what hp
    exact h _ (fault?_eq_some_iff.mpr ⟨what, hp, rfl⟩)
  · intro h err herr
    obtain ⟨what, hp, -⟩ := fault?_eq_some_iff.mp herr
    exact h what hp

/-! ## The first error -/

theorem findSome?_fault?_cons (p : Fragment V) (ps : List (Fragment V)) :
    (p :: ps).findSome? Fragment.fault? = p.fault?.or (ps.findSome? Fragment.fault?) := by
  rw [List.findSome?_cons]
  cases p.fault? <;> rfl

theorem findSome?_fault?_of_inside {v : Value V} (h : v.inside = []) :
    v.fragments.findSome? Fragment.fault? = (Fragment.value v).fault? := by
  rw [Value.fragments, h, findSome?_fault?_cons, List.findSome?_nil, Option.or_none]

theorem errorOf?_mapM {α β : Type} {f : α → Except JsonError β} {g : α → List (Fragment V)}
    {as : List α} (h : ∀ a ∈ as, errorOf? (f a) = (g a).findSome? Fragment.fault?) :
    errorOf? (as.mapM f) = (as.flatMap g).findSome? Fragment.fault? := by
  induction as with
  | nil => rfl
  | cons a rest ih =>
    have hrest := ih fun a ha => h a (List.mem_cons_of_mem _ ha)
    rw [List.flatMap_cons, List.findSome?_append, ← h a List.mem_cons_self, ← hrest,
      List.mapM_cons]
    cases f a with
    | error err => rfl
    | ok b => cases rest.mapM f <;> rfl

theorem errorOf?_toField (e : Entry V) :
    errorOf? e.toField = (errorOf? e.key.toFieldName).or (errorOf? e.value.toJson) := by
  obtain ⟨key, value⟩ := e
  rw [Entry.toField, Entry.key, Entry.value]
  cases key.toFieldName with
  | error err => rfl
  | ok name => cases value.toJson <;> rfl

theorem errorOf?_toJson_list (items : List (Value V)) :
    errorOf? (Value.list items).toJson = errorOf? (items.mapM Value.toJson) := by
  rw [Value.toJson, ← Json.toJsons_eq_mapM]
  cases Value.toJsons items <;> rfl

theorem errorOf?_toJson_map (entries : List (Entry V)) :
    errorOf? (Value.map entries).toJson = errorOf? (entries.mapM Entry.toField) := by
  rw [Value.toJson, ← Json.toFields_eq_mapM]
  cases Entry.toFields entries <;> rfl

theorem errorOf?_toJson_entry (e : Entry V) :
    errorOf? (Value.entry e).toJson = (errorOf? e.key.toJson).or (errorOf? e.value.toJson) := by
  obtain ⟨key, value⟩ := e
  rw [Value.toJson, Entry.toJson, Entry.key, Entry.value]
  cases key.toJson with
  | error err => rfl
  | ok k => cases value.toJson <;> rfl

/-- The conversion stops at the first fragment with a fault. -/
theorem errorOf?_toJson (v : Value V) :
    errorOf? v.toJson = v.fragments.findSome? Fragment.fault? := by
  induction v using Value.induct with
  | list items ih =>
    rw [errorOf?_toJson_list, Value.fragments_list, findSome?_fault?_cons]
    exact errorOf?_mapM ih
  | map entries ih =>
    rw [errorOf?_toJson_map, Value.fragments_map, findSome?_fault?_cons]
    refine errorOf?_mapM fun e he => ?_
    rw [errorOf?_toField, ih e he, findSome?_fault?_cons]
    rfl
  | entry e hkey hvalue =>
    rw [errorOf?_toJson_entry, hkey, hvalue, Value.fragments_entry, findSome?_fault?_cons,
      List.findSome?_append]
    rfl
  | nil | bool | int | float32 | float64 | string | object | expression =>
    rw [findSome?_fault?_of_inside rfl]
    rfl

theorem toJson_eq_error_iff_first {v : Value V} {err : JsonError} :
    v.toJson = .error err ↔ ∃ before p after what, v.fragments = before ++ p :: after ∧
      (∀ q ∈ before, ∀ other, ¬ q.Unrepresentable other) ∧ p.Unrepresentable what ∧
      err = .unrepresentable what := by
  rw [← errorOf?_eq_some_iff, errorOf?_toJson, List.findSome?_eq_some_iff]
  simp only [Fragment.fault?_eq_some_iff, Fragment.fault?_eq_none_iff]
  constructor
  · rintro ⟨before, p, after, hsplit, ⟨what, hp, herr⟩, hbefore⟩
    exact ⟨before, p, after, what, hsplit, hbefore, hp, herr⟩
  · rintro ⟨before, p, after, what, hsplit, hbefore, hp, herr⟩
    exact ⟨before, p, after, hsplit, ⟨what, hp, herr⟩, hbefore⟩

/-! ## Where there is an error -/

theorem exists_toJson_eq_error_iff {v : Value V} :
    (∃ err, v.toJson = .error err) ↔ ∃ p what, p.Of v ∧ Fragment.Unrepresentable p what := by
  simp only [← errorOf?_eq_some_iff, errorOf?_toJson, ← Option.isSome_iff_exists,
    List.findSome?_isSome_iff, Value.mem_fragments_iff]
  simp only [Option.isSome_iff_exists, Fragment.fault?_eq_some_iff]
  constructor
  · rintro ⟨p, hp, err, what, hwhat, -⟩
    exact ⟨p, what, hp, hwhat⟩
  · rintro ⟨p, what, hp, hwhat⟩
    exact ⟨p, hp, _, what, hwhat, rfl⟩

theorem Fragment.Of.exists_map {k v : Value V} (h : (Fragment.key k).Of v) :
    ∃ entries, Value.Part (.map entries) v ∧ ∃ e ∈ entries, e.key = k := by
  generalize hp : Fragment.key k = p at h
  induction h with
  | self => cases hp
  | item hv _ ih =>
    obtain ⟨entries, hpart, he⟩ := ih hp
    exact ⟨entries, .item hv hpart, he⟩
  | mapKey he =>
    cases hp
    exact ⟨_, .self _, _, he, rfl⟩
  | mapValue he _ ih =>
    obtain ⟨entries, hpart, he'⟩ := ih hp
    exact ⟨entries, .mapValue he hpart, he'⟩
  | entryKey _ ih =>
    obtain ⟨entries, hpart, he⟩ := ih hp
    exact ⟨entries, .entryKey hpart, he⟩
  | entryValue _ ih =>
    obtain ⟨entries, hpart, he⟩ := ih hp
    exact ⟨entries, .entryValue hpart, he⟩

/-- A map with a key that has no name stands outside the keys, or it stands within such a key itself. -/
theorem Value.Part.exists_key {entries : List (Entry V)} {v : Value V}
    (h : Part (map entries) v) (hbad : ∃ e ∈ entries, ¬ e.key.IsKey) :
    ∃ k, (Fragment.key k).Of v ∧ ¬ k.IsKey := by
  induction h with
  | self =>
    obtain ⟨e, he, hkey⟩ := hbad
    exact ⟨e.key, .mapKey he, hkey⟩
  | item hv _ ih =>
    obtain ⟨k, hk, hkey⟩ := ih
    exact ⟨k, .item hv hk, hkey⟩
  | @mapKey e _ he hpart =>
    refine ⟨e.key, .mapKey he, fun hkey => ?_⟩
    exact hkey.eachMap (P := fun _ => False) entries hpart
  | mapValue he _ ih =>
    obtain ⟨k, hk, hkey⟩ := ih
    exact ⟨k, .mapValue he hk, hkey⟩
  | entryKey _ ih =>
    obtain ⟨k, hk, hkey⟩ := ih
    exact ⟨k, .entryKey hk, hkey⟩
  | entryValue _ ih =>
    obtain ⟨k, hk, hkey⟩ := ih
    exact ⟨k, .entryValue hk, hkey⟩

/-- A value has no document exactly if it holds, outside the keys of maps, a value that JSON cannot
show, or if it holds a map with a key that has no name. The error is that of the first such fragment from
left to right. -/
theorem toJson_eq_error_iff (v : Value V) :
    ((∃ err, v.toJson = .error err) ↔
      (∃ w what, (Fragment.value w).Of v ∧ (Fragment.value w).Unrepresentable what) ∨
        ∃ entries, Value.Part (.map entries) v ∧ ∃ e ∈ entries, ¬ e.key.IsKey) ∧
    (∀ err, v.toJson = .error err ↔ ∃ before p after what, v.fragments = before ++ p :: after ∧
      (∀ q ∈ before, ∀ other, ¬ q.Unrepresentable other) ∧ p.Unrepresentable what ∧
      err = .unrepresentable what) ∧
    ∀ p, p ∈ v.fragments ↔ p.Of v := by
  refine ⟨?_, fun err => toJson_eq_error_iff_first, fun p => Value.mem_fragments_iff⟩
  rw [exists_toJson_eq_error_iff]
  constructor
  · rintro ⟨p, what, hp, hwhat⟩
    cases p with
    | value w => exact .inl ⟨w, what, hp, hwhat⟩
    | key k =>
      obtain ⟨entries, hpart, e, he, rfl⟩ := hp.exists_map
      cases hwhat with
      | key hkey => exact .inr ⟨entries, hpart, e, he, hkey⟩
  · rintro (⟨w, what, hw, hwhat⟩ | ⟨entries, hpart, hbad⟩)
    · exact ⟨_, what, hw, hwhat⟩
    · obtain ⟨k, hk, hkey⟩ := hpart.exists_key hbad
      exact ⟨_, _, hk, .key hkey⟩

/-- The key of an entry is looked at before its value. -/
example : (Value.map [.mk .nil (.float64 .nan)] : Value V).toJson =
    .error (.unrepresentable "map key of type nil") := rfl

end ExprLang
