import ExprLang.Json
import Mathlib.Data.List.Forall2

/-!
# Documents as values

A document that becomes a value and a document again is the document that it was. Its whole numbers are
whole numbers again, also those beyond the signed ones, and its floats are floats; the fields of its
objects are put back one by one, each behind the one before it.

That the fields of an object ascend, that whole numbers have 64 bits and that floats are finite is all
that is asked of a document, and nothing else survives.

Main statement: `toJson_toValue_eq_ok_iff`.
-/

namespace ExprLang

variable {V : Vocabulary}

namespace Entries

variable {β : Type}

theorem ascending_iff_names {entries : List (String × β)} :
    Ascending entries ↔ (entries.map (·.1)).Pairwise (· < ·) :=
  List.pairwise_map.symm

theorem insert_of_forall_lt {name : String} {entries : List (String × β)}
    (h : ∀ e ∈ entries, e.1 < name) (b : β) : insert name b entries = entries ++ [(name, b)] := by
  induction entries with
  | nil => rfl
  | cons e rest ih =>
    obtain ⟨m, c⟩ := e
    have hm : m < name := h _ List.mem_cons_self
    have hlt : ¬ name < m := String.lt_asymm hm
    have hne : name ≠ m := by
      rintro rfl
      exact hlt hm
    rw [insert, if_neg hlt, if_neg hne, ih fun e he => h e (List.mem_cons_of_mem _ he),
      List.cons_append]

/-- Binds the names of a list in turn, in front of what was bound before. -/
def insertAll (made : List (String × β)) (entries : List (String × β)) : List (String × β) :=
  entries.foldl (fun made e => insert e.1 e.2 made) made

theorem ascending_insertAll {made : List (String × β)} (h : Ascending made)
    (entries : List (String × β)) : Ascending (insertAll made entries) := by
  induction entries generalizing made with
  | nil => exact h
  | cons e rest ih => exact ih (ascending_insert e.1 e.2 h)

theorem insertAll_of_ascending {made entries : List (String × β)}
    (h : Ascending (made ++ entries)) : insertAll made entries = made ++ entries := by
  induction entries generalizing made with
  | nil => exact (List.append_nil made).symm
  | cons e rest ih =>
    have hlast : ∀ e' ∈ made, e'.1 < e.1 := by
      intro e' he'
      exact (List.pairwise_append.mp h).2.2 e' he' e List.mem_cons_self
    have hstep : insert e.1 e.2 made = made ++ [e] := insert_of_forall_lt hlast e.2
    have hsplit : made ++ e :: rest = made ++ [e] ++ rest := by simp
    rw [hsplit] at h ⊢
    calc
      insertAll made (e :: rest) = insertAll (insert e.1 e.2 made) rest := rfl
      _ = insertAll (made ++ [e]) rest := by rw [hstep]
      _ = made ++ [e] ++ rest := ih h

theorem insertAll_nil {entries : List (String × β)} (h : Ascending entries) :
    insertAll [] entries = entries := by
  rw [← List.nil_append entries] at h
  exact insertAll_of_ascending h

end Entries

namespace Json

open Entries

/-- What a document can be. -/
inductive IsDocument : Json → Prop where
  | null : IsDocument null
  | bool (b : Bool) : IsDocument (bool b)
  | int {n : Int} : IntKind.int64.Holds n ∨ IntKind.uint64.Holds n → IsDocument (int n)
  | float {x : Binary .double} : x.isFinite = true → IsDocument (float x)
  | string (s : String) : IsDocument (string s)
  | array {items : List Json} : (∀ j ∈ items, IsDocument j) → IsDocument (array items)
  | object {fields : List (String × Json)} :
      Ascending fields → (∀ f ∈ fields, IsDocument f.2) → IsDocument (object fields)

@[elab_as_elim]
theorem induct {P : Json → Prop} (null : P null) (bool : ∀ b, P (bool b)) (int : ∀ n, P (int n))
    (float : ∀ x, P (float x)) (string : ∀ s, P (string s))
    (array : ∀ items, (∀ j ∈ items, P j) → P (array items))
    (object : ∀ fields, (∀ f ∈ fields, P f.2) → P (object fields)) : ∀ j : Json, P j
  | .null => null
  | .bool b => bool b
  | .int n => int n
  | .float x => float x
  | .string s => string s
  | .array items => array items fun j _ => induct null bool int float string array object j
  | .object fields =>
    object fields fun f _ => induct null bool int float string array object f.2
decreasing_by
  · rename_i h
    have := List.sizeOf_lt_of_mem h
    simp only [Json.array.sizeOf_spec]
    omega
  · rename_i h
    have := List.sizeOf_lt_of_mem h
    obtain ⟨name, j⟩ := f
    simp only [Json.object.sizeOf_spec, Prod.mk.sizeOf_spec] at this ⊢
    omega

/-! ## Item by item, field by field -/

theorem toValues_eq_map (items : List Json) :
    (toValues items : List (Value V)) = items.map toValue := by
  induction items with
  | nil => rfl
  | cons j rest ih => rw [toValues, ih, List.map_cons]

theorem toEntries_eq_map (fields : List (String × Json)) :
    (toEntries fields : List (Entry V)) = fields.map toEntry := by
  induction fields with
  | nil => rfl
  | cons f rest ih => rw [toEntries, ih, List.map_cons]

theorem mapM_eq_ok_iff {α β : Type} {f : α → Except JsonError β} {as : List α} {bs : List β} :
    as.mapM f = .ok bs ↔ List.Forall₂ (fun a b => f a = .ok b) as bs := by
  induction as generalizing bs with
  | nil =>
    rw [List.mapM_nil, List.forall₂_nil_left_iff]
    exact ⟨fun h => (Except.ok.inj h).symm, fun h => congrArg Except.ok h.symm⟩
  | cons a rest ih =>
    rw [List.mapM_cons, List.forall₂_cons_left_iff]
    cases ha : f a with
    | error e => simp [bind, Except.bind]
    | ok b =>
      cases hrest : rest.mapM f with
      | error e => simp [bind, Except.bind, ← ih, hrest]
      | ok bs' => simp [bind, Except.bind, pure, Except.pure, ← ih, hrest, eq_comm]

theorem toJsons_eq_mapM (vs : List (Value V)) : Value.toJsons vs = vs.mapM Value.toJson := by
  induction vs with
  | nil => rfl
  | cons v rest ih =>
    rw [Value.toJsons, List.mapM_cons, ih]
    cases v.toJson with
    | error e => rfl
    | ok j => cases rest.mapM Value.toJson <;> rfl

theorem toFields_eq_mapM (es : List (Entry V)) : Entry.toFields es = es.mapM Entry.toField := by
  induction es with
  | nil => rfl
  | cons e rest ih =>
    rw [Entry.toFields, List.mapM_cons, ih]
    cases e.toField with
    | error e => rfl
    | ok f => cases rest.mapM Entry.toField <;> rfl

theorem toField_toEntry_eq_ok_iff {f g : String × Json} :
    (toEntry f : Entry V).toField = .ok g ↔
      f.1 = g.1 ∧ (f.2.toValue : Value V).toJson = .ok g.2 := by
  obtain ⟨name, j⟩ := f
  obtain ⟨name', j'⟩ := g
  have hname : (Value.string name : Value V).toFieldName = .ok name := rfl
  rw [toEntry, Entry.toField]
  simp only [hname]
  cases (toValue j : Value V).toJson with
  | error e => simp
  | ok j₁ => simp

theorem toJsons_toValues_eq_ok_iff {items js : List Json} :
    Value.toJsons (toValues items : List (Value V)) = .ok js ↔
      List.Forall₂ (fun i j => (i.toValue : Value V).toJson = .ok j) items js := by
  rw [toJsons_eq_mapM, mapM_eq_ok_iff, toValues_eq_map, List.forall₂_map_left_iff]

theorem toFields_toEntries_eq_ok_iff {fields fs : List (String × Json)} :
    Entry.toFields (toEntries fields : List (Entry V)) = .ok fs ↔
      List.Forall₂ (fun f g => f.1 = g.1 ∧ (f.2.toValue : Value V).toJson = .ok g.2) fields fs := by
  rw [toFields_eq_mapM, mapM_eq_ok_iff, toEntries_eq_map, List.forall₂_map_left_iff]
  simp only [toField_toEntry_eq_ok_iff]

/-! ## Each kind of document -/

theorem toJson_intValue (n : Int) :
    (intValue n : Value V).toJson =
      .ok (int (if IntKind.int64.Holds n then (Integer.wrap .int64 n).val
        else (Integer.wrap .uint64 n).val)) := by
  unfold intValue
  split <;> rfl

theorem toJson_intValue_eq_ok_iff {n : Int} :
    (intValue n : Value V).toJson = .ok (int n) ↔
      IntKind.int64.Holds n ∨ IntKind.uint64.Holds n := by
  rw [toJson_intValue]
  by_cases h : IntKind.int64.Holds n
  · simp [h, Integer.val_wrap_eq_iff]
  · simp [h, Integer.val_wrap_eq_iff]

theorem ofFloat_eq_ok_iff {x : Binary .double} : ofFloat x = .ok (float x) ↔ x.isFinite = true := by
  unfold ofFloat
  by_cases h : x.isFinite = true
  · simp [h]
  · simp [h]

theorem ofFields_eq (fields : List (String × Json)) : ofFields fields = object (insertAll [] fields) :=
  rfl

theorem names_eq_of_toFields {fields fs : List (String × Json)}
    (h : Entry.toFields (toEntries fields : List (Entry V)) = .ok fs) :
    fields.map (·.1) = fs.map (·.1) := by
  have hall := toFields_toEntries_eq_ok_iff.mp h
  clear h
  induction hall with
  | nil => rfl
  | cons hfield _ ih => rw [List.map_cons, List.map_cons, hfield.1, ih]

theorem toJson_array_eq_ok_iff {items : List Json} :
    (toValue (array items) : Value V).toJson = .ok (array items) ↔
      ∀ j ∈ items, (j.toValue : Value V).toJson = .ok j := by
  have hitems : Value.toJsons (toValues items : List (Value V)) = .ok items ↔
      ∀ j ∈ items, (j.toValue : Value V).toJson = .ok j :=
    toJsons_toValues_eq_ok_iff.trans List.forall₂_same
  rw [← hitems, toValue, Value.toJson]
  cases Value.toJsons (toValues items : List (Value V)) with
  | error e => simp
  | ok js => simp

theorem toJson_object_eq_ok_iff {fields : List (String × Json)} :
    (toValue (object fields) : Value V).toJson = .ok (object fields) ↔
      Ascending fields ∧ ∀ f ∈ fields, (f.2.toValue : Value V).toJson = .ok f.2 := by
  rw [toValue, Value.toJson]
  constructor
  · intro h
    split at h
    · rename_i fs hfs
      have hfields : insertAll [] fs = fields := by
        rw [ofFields_eq] at h
        exact object.inj (Except.ok.inj h)
      have hasc : Ascending fields := hfields ▸ ascending_insertAll List.Pairwise.nil fs
      have hall := toFields_toEntries_eq_ok_iff.mp hfs
      -- the fields that were put back have the names of the object, so nothing was put over another
      have hasc' : Ascending fs := by
        rw [ascending_iff_names, ← names_eq_of_toFields hfs, ← ascending_iff_names]
        exact hasc
      have hsame : fs = fields := (insertAll_nil hasc').symm.trans hfields
      rw [hsame, List.forall₂_same] at hall
      exact ⟨hasc, fun f hf => (hall f hf).2⟩
    · cases h
  · rintro ⟨hasc, hfields⟩
    have hall : Entry.toFields (toEntries fields : List (Entry V)) = .ok fields :=
      toFields_toEntries_eq_ok_iff.mpr (List.forall₂_same.mpr fun f hf => ⟨rfl, hfields f hf⟩)
    have hback : ofFields fields = object fields :=
      congrArg object (insertAll_nil hasc)
    rw [hall]
    exact congrArg Except.ok hback

end Json

/-- The round trip keeps what can be a document, whole, and nothing else. -/
theorem toJson_toValue_eq_ok_iff (j : Json) :
    (j.toValue : Value V).toJson = .ok j ↔ j.IsDocument := by
  induction j using Json.induct with
  | null => exact iff_of_true rfl .null
  | bool b => exact iff_of_true rfl (.bool b)
  | int n =>
    rw [Json.toValue, Json.toJson_intValue_eq_ok_iff]
    exact ⟨.int, fun h => by cases h; assumption⟩
  | float x =>
    rw [Json.toValue, Value.toJson, Json.ofFloat_eq_ok_iff]
    exact ⟨.float, fun h => by cases h; assumption⟩
  | string s => exact iff_of_true rfl (.string s)
  | array items ih =>
    rw [Json.toJson_array_eq_ok_iff]
    constructor
    · intro h
      exact .array fun j hj => (ih j hj).mp (h j hj)
    · rintro (_ | _ | _ | _ | _ | hitems)
      intro j hj
      exact (ih j hj).mpr (hitems j hj)
  | object fields ih =>
    rw [Json.toJson_object_eq_ok_iff]
    constructor
    · rintro ⟨hasc, h⟩
      exact .object hasc fun f hf => (ih f hf).mp (h f hf)
    · rintro (_ | _ | _ | _ | _ | _ | ⟨hasc, hfields⟩)
      exact ⟨hasc, fun f hf => (ih f hf).mpr (hfields f hf)⟩

/-- The last unsigned number comes back as itself. -/
example : ((Json.object [("big", .int (2 ^ 64 - 1)), ("small", .array [.int (-1)])]).toValue :
    Value V).toJson = .ok (.object [("big", .int (2 ^ 64 - 1)), ("small", .array [.int (-1)])]) := rfl

end ExprLang
