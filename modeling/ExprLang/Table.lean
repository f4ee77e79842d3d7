/-! # Tables of names

A table binds names to things. It is kept in ascending order of the names, by code point, so equal
tables have equal entries and a listing needs no sorting.

Main statements: `find?_insert` and `find?_erase` say what is found after a change.
-/

namespace ExprLang

variable {β : Type}

namespace Entries

/-- The names ascend strictly. -/
def Ascending (entries : List (String × β)) : Prop := entries.Pairwise (·.1 < ·.1)

/-- Binds `name` in ascending entries, in place of what it was bound to. -/
def insert (name : String) (b : β) : List (String × β) → List (String × β)
  | [] => [(name, b)]
  | (m, c) :: rest =>
    if name < m then (name, b) :: (m, c) :: rest
    else if name = m then (name, b) :: rest
    else (m, c) :: insert name b rest

def erase (name : String) (entries : List (String × β)) : List (String × β) :=
  entries.filter (·.1 ≠ name)

theorem mem_insert {name : String} {b : β} {entries : List (String × β)} {e : String × β}
    (h : e ∈ insert name b entries) : e = (name, b) ∨ e ∈ entries := by
  induction entries with
  | nil => simpa [insert] using h
  | cons head rest ih =>
    simp only [insert] at h
    split at h
    · simpa using h
    · split at h
      · simp only [List.mem_cons] at h ⊢
        exact h.imp_right .inr
      · simp only [List.mem_cons] at h ⊢
        rcases h with h | h
        · exact .inr (.inl h)
        · exact (ih h).imp_right .inr

theorem ascending_insert {entries : List (String × β)} (name : String) (b : β)
    (h : Ascending entries) : Ascending (insert name b entries) := by
  induction entries with
  | nil => simp [insert, Ascending]
  | cons head rest ih =>
    obtain ⟨m, c⟩ := head
    have ⟨hm, hrest⟩ := List.pairwise_cons.mp h
    simp only [insert]
    split
    · rename_i hlt
      refine List.pairwise_cons.mpr ⟨fun e he => ?_, h⟩
      rcases List.mem_cons.mp he with rfl | he
      · exact hlt
      · exact String.lt_trans hlt (hm e he)
    · split
      · rename_i heq
        exact List.pairwise_cons.mpr ⟨heq ▸ hm, hrest⟩
      · rename_i hlt hne
        refine List.pairwise_cons.mpr ⟨fun e he => ?_, ih hrest⟩
        rcases mem_insert he with rfl | he
        · rcases Decidable.em (m < name) with h | h
          · exact h
          · exact absurd (String.le_antisymm (String.not_lt.mp h) (String.not_lt.mp hlt)) hne
        · exact hm e he

theorem ascending_erase {entries : List (String × β)} (name : String) (h : Ascending entries) :
    Ascending (erase name entries) :=
  h.sublist List.filter_sublist

theorem lookup_cons (name m : String) (c : β) (rest : List (String × β)) :
    ((m, c) :: rest).lookup name = if name = m then some c else rest.lookup name := by
  rw [List.lookup_cons]
  by_cases h : name = m
  · simp [h]
  · rw [if_neg h, beq_false_of_ne h]

theorem lookup_insert (name other : String) (b : β) (entries : List (String × β)) :
    (insert name b entries).lookup other = if other = name then some b else entries.lookup other := by
  induction entries with
  | nil => simp [insert, lookup_cons]
  | cons head rest ih =>
    obtain ⟨m, c⟩ := head
    simp only [insert]
    split
    · rw [lookup_cons]
    · split
      · rename_i heq
        rw [lookup_cons, lookup_cons, heq]
        split <;> rfl
      · rename_i hne
        rw [lookup_cons, lookup_cons, ih]
        split
        · rename_i h
          rw [if_neg (fun h' => hne (h'.symm.trans h))]
        · rfl

theorem lookup_erase (name other : String) (entries : List (String × β)) :
    (erase name entries).lookup other = if other = name then none else entries.lookup other := by
  induction entries with
  | nil => simp [erase]
  | cons head rest ih =>
    obtain ⟨m, c⟩ := head
    unfold erase at ih ⊢
    by_cases h : m = name
    · rw [List.filter_cons_of_neg (by simp [h]), ih, lookup_cons, h]
      split <;> rfl
    · rw [List.filter_cons_of_pos (by simp [h]), lookup_cons, lookup_cons, ih]
      split
      · rename_i h'
        rw [if_neg (fun h'' => h (h'.symm.trans h''))]
      · rfl

end Entries

/-- Things bound to names, in ascending order of the names. -/
structure Table (β : Type) where
  entries : List (String × β)
  ascending : Entries.Ascending entries

namespace Table

def empty : Table β := ⟨[], List.Pairwise.nil⟩

def find? (t : Table β) (name : String) : Option β := t.entries.lookup name

def contains (t : Table β) (name : String) : Bool := (t.find? name).isSome

def insert (t : Table β) (name : String) (b : β) : Table β :=
  ⟨Entries.insert name b t.entries, Entries.ascending_insert name b t.ascending⟩

def erase (t : Table β) (name : String) : Table β :=
  ⟨Entries.erase name t.entries, Entries.ascending_erase name t.ascending⟩

def size (t : Table β) : Nat := t.entries.length

def names (t : Table β) : List String := t.entries.map (·.1)

@[simp]
theorem find?_empty (name : String) : (empty : Table β).find? name = none := rfl

theorem find?_insert (t : Table β) (name other : String) (b : β) :
    (t.insert name b).find? other = if other = name then some b else t.find? other :=
  Entries.lookup_insert name other b t.entries

theorem find?_erase (t : Table β) (name other : String) :
    (t.erase name).find? other = if other = name then none else t.find? other :=
  Entries.lookup_erase name other t.entries

/-- Binds each pair in turn, so that the last of several bindings of a name stays. -/
def ofList (pairs : List (String × β)) : Table β :=
  pairs.foldl (fun t p => t.insert p.1 p.2) empty

end Table

end ExprLang
