import ExprLang.Proofs.Decimal
import ExprLang.Proofs.Documents
import ExprLang.Proofs.Induction
import Mathlib

/-!
# Maps as objects

The document of a value shows the value if each map in it, at any depth, has become an object with one
field for each entry, under the text of the key. A field is lost where two keys have one text. Keys of
one kind only have one text if they are one key: numbers of a kind are told apart by their texts, floats
with the sign of zero and however small the difference. So the keys of a map with different keys clash
only across kinds, or where a key is not a number and so differs from itself.

Main statement: `shows_toJson_iff`.
-/

namespace ExprLang

variable {V : Vocabulary}

/-! ## Fields that are put into an object -/

namespace Entries

variable {β : Type}

theorem nodup_names_of_ascending {entries : List (String × β)} (h : Ascending entries) :
    (entries.map (·.1)).Nodup :=
  (ascending_iff_names.mp h).imp fun hlt => ne_of_lt hlt

theorem perm_insert {name : String} {entries : List (String × β)}
    (h : name ∉ entries.map (·.1)) (b : β) :
    (insert name b entries).Perm ((name, b) :: entries) := by
  induction entries with
  | nil => exact .refl _
  | cons e rest ih =>
    obtain ⟨m, c⟩ := e
    rw [List.map_cons, List.mem_cons, not_or] at h
    obtain ⟨hm, hrest⟩ := h
    rw [insert, if_neg hm]
    split
    · exact .refl _
    · exact ((ih hrest).cons _).trans (.swap _ _ _)

theorem perm_insertAll {made entries : List (String × β)}
    (h : ((made ++ entries).map (·.1)).Nodup) : (insertAll made entries).Perm (made ++ entries) := by
  induction entries generalizing made with
  | nil =>
    rw [List.append_nil]
    exact .refl _
  | cons e rest ih =>
    obtain ⟨name, b⟩ := e
    have hmiddle : (made ++ (name, b) :: rest).Perm ((name, b) :: (made ++ rest)) :=
      List.perm_middle
    have hname : name ∉ made.map (·.1) := by
      intro hmem
      have hnodup := (hmiddle.map (·.1)).nodup_iff.mp h
      rw [List.map_cons, List.nodup_cons, List.map_append] at hnodup
      exact hnodup.1 (List.mem_append_left _ hmem)
    have hstep : (insert name b made ++ rest).Perm (made ++ (name, b) :: rest) :=
      ((perm_insert hname b).append_right rest).trans hmiddle.symm
    exact (ih ((hstep.map (·.1)).nodup_iff.mpr h)).trans hstep

/-- What stands in a list is known from the names in order, where they are different. -/
theorem eq_of_perm_of_names {entries entries' : List (String × β)} (hperm : entries.Perm entries')
    (hnames : entries.map (·.1) = entries'.map (·.1)) (hnodup : (entries'.map (·.1)).Nodup) :
    entries = entries' := by
  refine List.ext_getElem hperm.length_eq fun i hi hi' => ?_
  have hname : entries[i].1 = entries'[i].1 := by
    have hget := List.getElem_of_eq hnames (by rwa [List.length_map])
    rwa [List.getElem_map, List.getElem_map] at hget
  have hmem : entries[i] ∈ entries' := hperm.mem_iff.mp (List.getElem_mem hi)
  exact List.inj_on_of_nodup_map hnodup hmem (List.getElem_mem hi') hname

end Entries

/-! ## Values inside values -/

namespace Value

/-- The value itself, or a value that it holds at some depth. -/
inductive Part : Value V → Value V → Prop where
  | self (v : Value V) : Part v v
  | item {v w : Value V} {items : List (Value V)} : w ∈ items → Part v w → Part v (list items)
  | mapKey {v : Value V} {e : Entry V} {entries : List (Entry V)} :
      e ∈ entries → Part v e.key → Part v (map entries)
  | mapValue {v : Value V} {e : Entry V} {entries : List (Entry V)} :
      e ∈ entries → Part v e.value → Part v (map entries)
  | entryKey {v : Value V} {e : Entry V} : Part v e.key → Part v (entry e)
  | entryValue {v : Value V} {e : Entry V} : Part v e.value → Part v (entry e)

/-- Every map in the value, at any depth, has entries of this kind. -/
def EachMap (P : List (Entry V) → Prop) (v : Value V) : Prop :=
  ∀ entries, Part (map entries) v → P entries

variable {P : List (Entry V) → Prop}

theorem eachMap_list {items : List (Value V)} :
    EachMap P (list items) ↔ ∀ v ∈ items, EachMap P v := by
  constructor
  · intro h v hv entries hpart
    exact h entries (.item hv hpart)
  · rintro h entries (_ | ⟨hv, hpart⟩)
    exact h _ hv entries hpart

theorem eachMap_map {entries : List (Entry V)} : EachMap P (map entries) ↔
    P entries ∧ ∀ e ∈ entries, EachMap P e.key ∧ EachMap P e.value := by
  constructor
  · intro h
    refine ⟨h entries (.self _), fun e he => ⟨fun inner hpart => ?_, fun inner hpart => ?_⟩⟩
    · exact h inner (.mapKey he hpart)
    · exact h inner (.mapValue he hpart)
  · rintro ⟨hself, hentries⟩ inner (_ | _ | ⟨he, hpart⟩ | ⟨he, hpart⟩)
    · exact hself
    · exact (hentries _ he).1 inner hpart
    · exact (hentries _ he).2 inner hpart

theorem eachMap_entry {e : Entry V} :
    EachMap P (entry e) ↔ EachMap P e.key ∧ EachMap P e.value := by
  constructor
  · intro h
    exact ⟨fun inner hpart => h inner (.entryKey hpart), fun inner hpart => h inner (.entryValue hpart)⟩
  · rintro ⟨hkey, hvalue⟩ inner (_ | _ | _ | _ | hpart | hpart)
    · exact hkey inner hpart
    · exact hvalue inner hpart

end Value

/-! ## Keys -/

theorem IntKind.name_injective : Function.Injective IntKind.name := by
  intro k l h
  cases k <;> cases l <;> first | rfl | exact absurd h (by decide)

theorem IntKind.name_ne (k : IntKind) :
    k.name ≠ "bool" ∧ k.name ≠ "float32" ∧ k.name ≠ "float64" ∧ k.name ≠ "string" := by
  cases k <;> decide

namespace Value

variable {P : List (Entry V) → Prop}

/-- What can be the key of a map that has a document. -/
inductive IsKey : Value V → Prop where
  | bool (b : Bool) : IsKey (bool b)
  | int (k : IntKind) (n : Integer k) : IsKey (int k n)
  | float32 (x : Binary .single) : IsKey (float32 x)
  | float64 (x : Binary .double) : IsKey (float64 x)
  | string (s : String) : IsKey (string s)

theorem toFieldName_eq_ok_iff {v : Value V} {name : String} :
    v.toFieldName = .ok name ↔ v.IsKey ∧ name = v.text := by
  constructor
  · intro h
    cases v with
    | bool b => exact ⟨.bool b, (Except.ok.inj h).symm⟩
    | int k n => exact ⟨.int k n, (Except.ok.inj h).symm⟩
    | float32 x => exact ⟨.float32 x, (Except.ok.inj h).symm⟩
    | float64 x => exact ⟨.float64 x, (Except.ok.inj h).symm⟩
    | string s => exact ⟨.string s, (Except.ok.inj h).symm⟩
    | nil | list | map | entry | object | expression => cases h
  · rintro ⟨hkey, rfl⟩
    cases hkey <;> rfl

theorem IsKey.eachMap {v : Value V} (h : v.IsKey) : v.EachMap P := by
  intro entries hpart
  cases h <;> cases hpart

/-- Keys of one kind with one text are one key. -/
theorem IsKey.eq_of_text {a b : Value V} (ha : a.IsKey) (hb : b.IsKey)
    (hkind : a.typeName = b.typeName) (htext : a.text = b.text) : a = b := by
  cases ha <;> cases hb
  case bool.bool a b => cases a <;> cases b <;> simp [Value.text] at htext ⊢
  case int.int k n l m =>
    obtain rfl := IntKind.name_injective hkind
    have hval : n.val = m.val := Int.repr_injective htext
    rw [Integer.ext hval]
  case float32.float32 x y => rw [Binary.text_injective (by decide) htext]
  case float64.float64 x y => rw [Binary.text_injective (by decide) htext]
  case string.string s t => exact congrArg Value.string htext
  all_goals grind [typeName, IntKind.name_ne]

/-- Two keys with one text that are of different kinds, or that differ from themselves, as what is not a
number does. -/
def Clashes (a b : Value V) : Prop :=
  a.text = b.text ∧ (a.typeName ≠ b.typeName ∨ (a == a) = false)

instance (a b : Value V) : Decidable (Clashes a b) := inferInstanceAs (Decidable (_ ∧ _))

theorem IsKey.clashes_iff {a b : Value V} (ha : a.IsKey) (hb : b.IsKey)
    (hne : (a == b) = false) : a.Clashes b ↔ a.text = b.text := by
  constructor
  · rintro ⟨htext, -⟩
    exact htext
  · intro htext
    refine ⟨htext, ?_⟩
    by_cases hkind : a.typeName = b.typeName
    · obtain rfl := ha.eq_of_text hb hkind htext
      exact .inr hne
    · exact .inl hkind

end Value

namespace Entry

/-- No two keys are equal. -/
def KeysDiffer (entries : List (Entry V)) : Prop :=
  entries.Pairwise fun d e => (d.key == e.key) = false

/-- No two keys clash. -/
def KeysApart (entries : List (Entry V)) : Prop :=
  entries.Pairwise fun d e => ¬ d.key.Clashes e.key

instance (entries : List (Entry V)) : Decidable (KeysDiffer entries) :=
  inferInstanceAs (Decidable (List.Pairwise _ _))

instance (entries : List (Entry V)) : Decidable (KeysApart entries) :=
  inferInstanceAs (Decidable (List.Pairwise _ _))

theorem keysApart_iff {entries : List (Entry V)} (hkeys : ∀ e ∈ entries, e.key.IsKey)
    (hdiffer : KeysDiffer entries) :
    KeysApart entries ↔ (entries.map (·.key.text)).Nodup := by
  have hsame : entries.Pairwise fun d e => ¬ d.key.Clashes e.key ↔ d.key.text ≠ e.key.text := by
    refine hdiffer.imp_of_mem fun hd he hne => not_congr ?_
    exact (hkeys _ hd).clashes_iff (hkeys _ he) hne
  unfold List.Nodup
  rw [List.pairwise_map]
  constructor
  · intro h
    exact (hsame.and h).imp fun hboth => hboth.1.mp hboth.2
  · intro h
    exact (hsame.and h).imp fun hboth => hboth.1.mpr hboth.2

end Entry

/-! ## What a document shows -/

namespace Json

open Entries

/-- The document is that of the value, and no part of the value is left out: the items of a list are
shown in order, and a map is shown as an object with one field for each entry, in whatever order, under
the text of the key. -/
inductive Shows : Json → Value V → Prop where
  | nil : Shows null .nil
  | bool (b : Bool) : Shows (bool b) (.bool b)
  | int {k : IntKind} (n : Integer k) : Shows (int n.val) (.int k n)
  | float32 (x : Binary .single) : Shows (float x.convert) (.float32 x)
  | float64 (x : Binary .double) : Shows (float x) (.float64 x)
  | string (s : String) : Shows (string s) (.string s)
  | list {js : List Json} {items : List (Value V)} :
      List.Forall₂ Shows js items → Shows (array js) (.list items)
  | map {fields fs : List (String × Json)} {entries : List (Entry V)} :
      fields.Perm fs → fs.map (·.1) = entries.map (·.key.text) →
      List.Forall₂ Shows (fs.map (·.2)) (entries.map Entry.value) →
      Shows (object fields) (.map entries)
  | entry {k j : Json} {e : Entry V} :
      Shows k e.key → Shows j e.value → Shows (object [("Key", k), ("Value", j)]) (.entry e)

theorem forall₂_iff_forall {α β : Type} {R : α → β → Prop} {S : β → α → Prop} {P : α → Prop}
    {as : List α} {bs : List β} (h : List.Forall₂ R as bs)
    (hiff : ∀ a ∈ as, ∀ b, R a b → (S b a ↔ P a)) : List.Forall₂ S bs as ↔ ∀ a ∈ as, P a := by
  induction h with
  | nil => simp
  | cons hab _ ih =>
    rw [List.forall₂_cons, List.forall_mem_cons, hiff _ List.mem_cons_self _ hab,
      ih fun a ha => hiff a (List.mem_cons_of_mem _ ha)]

theorem toJson_list_eq_ok_iff {items : List (Value V)} {j : Json} :
    (Value.list items).toJson = .ok j ↔
      ∃ js, List.Forall₂ (fun v j => v.toJson = .ok j) items js ∧ j = array js := by
  simp only [← mapM_eq_ok_iff, ← toJsons_eq_mapM]
  rw [Value.toJson]
  cases Value.toJsons items with
  | error e => simp
  | ok js => simp [eq_comm]

theorem toJson_map_eq_ok_iff {entries : List (Entry V)} {j : Json} :
    (Value.map entries).toJson = .ok j ↔
      ∃ fs, List.Forall₂ (fun e f => e.toField = .ok f) entries fs ∧ j = object (insertAll [] fs) := by
  simp only [← mapM_eq_ok_iff, ← toFields_eq_mapM, ← ofFields_eq]
  rw [Value.toJson]
  cases Entry.toFields entries with
  | error e => simp
  | ok fs => simp [eq_comm]

theorem toField_eq_ok_iff {e : Entry V} {f : String × Json} :
    e.toField = .ok f ↔ e.key.IsKey ∧ f.1 = e.key.text ∧ e.value.toJson = .ok f.2 := by
  obtain ⟨key, value⟩ := e
  obtain ⟨name, j⟩ := f
  rw [Entry.toField]
  constructor
  · intro h
    split at h
    · cases h
    · rename_i n hn
      obtain ⟨hkey, rfl⟩ := Value.toFieldName_eq_ok_iff.mp hn
      split at h
      · cases h
      · rename_i hj
        cases h
        exact ⟨hkey, rfl, hj⟩
  · rintro ⟨hkey, htext, hj⟩
    have hn : key.toFieldName = .ok name := Value.toFieldName_eq_ok_iff.mpr ⟨hkey, htext⟩
    have hj : value.toJson = .ok j := hj
    simp only [hn, hj]

theorem toJson_entry_eq_ok_iff {e : Entry V} {j : Json} :
    (Value.entry e).toJson = .ok j ↔ ∃ k v, e.key.toJson = .ok k ∧ e.value.toJson = .ok v ∧
      j = object [("Key", k), ("Value", v)] := by
  obtain ⟨key, value⟩ := e
  have hfields : ∀ k v, ofFields [("Key", k), ("Value", v)] = object [("Key", k), ("Value", v)] :=
    fun k v => rfl
  rw [Value.toJson, Entry.toJson, Entry.key, Entry.value]
  cases key.toJson with
  | error e => simp
  | ok k =>
    cases value.toJson with
    | error e => simp
    | ok v => simp [hfields, eq_comm]

theorem eq_of_ofFloat {x : Binary .double} {j : Json} (h : ofFloat x = .ok j) : j = float x := by
  unfold ofFloat at h
  split at h
  · exact (Except.ok.inj h).symm
  · cases h

theorem Shows.of_map {fields : List (String × Json)} {entries : List (Entry V)}
    (h : (object fields).Shows (.map entries)) :
    ∃ fs, fields.Perm fs ∧ fs.map (·.1) = entries.map (·.key.text) ∧
      List.Forall₂ Shows (fs.map (·.2)) (entries.map Entry.value) := by
  rcases h with _ | _ | _ | _ | _ | _ | _ | ⟨hperm, hnames, hvalues⟩
  exact ⟨_, hperm, hnames, hvalues⟩

/-- An object shows a map exactly if the keys have different texts and each field shows its value. -/
theorem shows_map_iff {entries : List (Entry V)} {fs : List (String × Json)}
    (hnames : fs.map (·.1) = entries.map (·.key.text)) :
    (object (insertAll [] fs)).Shows (.map entries) ↔ (entries.map (·.key.text)).Nodup ∧
      List.Forall₂ Shows (fs.map (·.2)) (entries.map Entry.value) := by
  have hkept (hnodup : (entries.map (·.key.text)).Nodup) : (insertAll [] fs).Perm fs :=
    perm_insertAll (by rwa [List.nil_append, hnames])
  constructor
  · intro h
    obtain ⟨gs, hperm, hgs, hvalues⟩ := h.of_map
    -- an object has each name once, so the entries have each text once, and all fields are kept
    have hnodup : (entries.map (·.key.text)).Nodup := by
      rw [← hgs, ← (hperm.map (·.1)).nodup_iff]
      exact nodup_names_of_ascending (ascending_insertAll List.Pairwise.nil fs)
    have hsame : gs = fs := by
      refine eq_of_perm_of_names (hperm.symm.trans (hkept hnodup)) (hgs.trans hnames.symm) ?_
      rwa [hnames]
    exact ⟨hnodup, hsame ▸ hvalues⟩
  · rintro ⟨hnodup, hvalues⟩
    exact .map (hkept hnodup) hnames hvalues

theorem eachMap_isKey {v : Value V} {j : Json} (h : v.toJson = .ok j) :
    v.EachMap fun entries => ∀ e ∈ entries, e.key.IsKey := by
  induction v using Value.induct generalizing j with
  | list items ih =>
    obtain ⟨js, hall, -⟩ := toJson_list_eq_ok_iff.mp h
    rw [Value.eachMap_list, ← forall₂_iff_forall hall fun v hv j hj => iff_of_true hj (ih v hv hj)]
    exact hall.flip
  | map entries ih =>
    obtain ⟨fs, hall, -⟩ := toJson_map_eq_ok_iff.mp h
    have hentries : ∀ e ∈ entries, ∃ f, e.toField = .ok f :=
      (forall₂_iff_forall hall fun e _ f hf => iff_of_true hf ⟨f, hf⟩).mp hall.flip
    have hkeys : ∀ e ∈ entries, e.key.IsKey := by
      intro e he
      obtain ⟨f, hf⟩ := hentries e he
      exact (toField_eq_ok_iff.mp hf).1
    rw [Value.eachMap_map]
    refine ⟨hkeys, fun e he => ⟨(hkeys e he).eachMap, ?_⟩⟩
    obtain ⟨f, hf⟩ := hentries e he
    exact ih e he (toField_eq_ok_iff.mp hf).2.2
  | entry e ihkey ihvalue =>
    obtain ⟨k, j, hk, hj, -⟩ := toJson_entry_eq_ok_iff.mp h
    exact Value.eachMap_entry.mpr ⟨ihkey hk, ihvalue hj⟩
  | _ => rintro entries ⟨⟩

/-- A document shows its value exactly if the keys of each map have different texts. -/
theorem shows_iff_nodup {v : Value V} {j : Json} (h : v.toJson = .ok j) :
    j.Shows v ↔ v.EachMap fun entries => (entries.map (·.key.text)).Nodup := by
  induction v using Value.induct generalizing j with
  | list items ih =>
    obtain ⟨js, hall, rfl⟩ := toJson_list_eq_ok_iff.mp h
    rw [Value.eachMap_list, ← forall₂_iff_forall hall fun v hv j hj => ih v hv hj]
    constructor
    · rintro (_ | _ | _ | _ | _ | _ | hitems)
      exact hitems
    · exact .list
  | map entries ih =>
    have hkeys := (Value.eachMap_map.mp (eachMap_isKey h)).1
    obtain ⟨fs, hall, rfl⟩ := toJson_map_eq_ok_iff.mp h
    have hnames : fs.map (·.1) = entries.map (·.key.text) := by
      rw [← List.forall₂_eq_eq_eq, List.forall₂_map_left_iff, List.forall₂_map_right_iff]
      exact hall.flip.imp fun f e hf => (toField_eq_ok_iff.mp hf).2.1
    have hvalues : List.Forall₂ Shows (fs.map (·.2)) (entries.map Entry.value) ↔
        ∀ e ∈ entries, e.value.EachMap fun entries => (entries.map (·.key.text)).Nodup := by
      rw [List.forall₂_map_left_iff, List.forall₂_map_right_iff]
      exact forall₂_iff_forall hall fun e he f hf => ih e he (toField_eq_ok_iff.mp hf).2.2
    rw [shows_map_iff hnames, hvalues, Value.eachMap_map]
    refine and_congr_right fun _ => forall₂_congr fun e he => ?_
    exact (and_iff_right (hkeys e he).eachMap).symm
  | entry e ihkey ihvalue =>
    obtain ⟨k, j, hk, hj, rfl⟩ := toJson_entry_eq_ok_iff.mp h
    rw [Value.eachMap_entry, ← ihkey hk, ← ihvalue hj]
    constructor
    · rintro (_ | _ | _ | _ | _ | _ | _ | _ | ⟨hkey, hvalue⟩)
      exact ⟨hkey, hvalue⟩
    · rintro ⟨hkey, hvalue⟩
      exact .entry hkey hvalue
  | nil =>
    cases h
    exact iff_of_true .nil (by rintro _ ⟨⟩)
  | bool b =>
    cases h
    exact iff_of_true (.bool b) (Value.IsKey.bool b).eachMap
  | int k n =>
    cases h
    exact iff_of_true (.int n) (Value.IsKey.int k n).eachMap
  | float32 x =>
    obtain rfl := eq_of_ofFloat h
    exact iff_of_true (.float32 x) (Value.IsKey.float32 x).eachMap
  | float64 x =>
    obtain rfl := eq_of_ofFloat h
    exact iff_of_true (.float64 x) (Value.IsKey.float64 x).eachMap
  | string s =>
    cases h
    exact iff_of_true (.string s) (Value.IsKey.string s).eachMap
  | object o => cases h
  | expression e => cases h

end Json

/-- The document of a value whose maps have different keys shows the value exactly if no two keys of a
map clash. -/
theorem shows_toJson_iff {v : Value V} {j : Json} (h : v.toJson = .ok j)
    (hkeys : v.EachMap Entry.KeysDiffer) : j.Shows v ↔ v.EachMap Entry.KeysApart := by
  have hmap : ∀ entries, Value.Part (.map entries) v →
      ((entries.map (·.key.text)).Nodup ↔ Entry.KeysApart entries) := by
    intro entries hpart
    exact (Entry.keysApart_iff (Json.eachMap_isKey h entries hpart) (hkeys entries hpart)).symm
  rw [Json.shows_iff_nodup h]
  exact forall₂_congr hmap

/-- Keys of two kinds, and a map inside a map. -/
theorem shows_toJson_iff_nested :
    let inner : List (Entry Vocabulary.empty) := [.mk (.string "1") (.bool false)]
    let outer : List (Entry Vocabulary.empty) :=
      [.mk (.int .int64 ⟨1, by decide⟩) (.map inner), .mk (.bool true) (.string "y")]
    let j : Json := .object [("1", .object [("1", .bool false)]), ("true", .string "y")]
    (Value.map outer).toJson = .ok j ∧ (Value.map outer).EachMap Entry.KeysDiffer ∧
      j.Shows (.map outer) := by
  intro inner outer j
  have heach : ∀ P : List (Entry Vocabulary.empty) → Prop, P inner → P outer →
      (Value.map outer).EachMap P := by
    intro P hinner houter
    have hmap : (Value.map inner).EachMap P := by
      rw [Value.eachMap_map, List.forall_mem_singleton]
      exact ⟨hinner, (Value.IsKey.string "1").eachMap, (Value.IsKey.bool false).eachMap⟩
    rw [Value.eachMap_map, List.forall_mem_cons, List.forall_mem_singleton]
    exact ⟨houter, ⟨(Value.IsKey.int _ _).eachMap, hmap⟩, (Value.IsKey.bool true).eachMap,
      (Value.IsKey.string "y").eachMap⟩
  have hjson : (Value.map outer).toJson = .ok j := rfl
  have hdiffer : (Value.map outer).EachMap Entry.KeysDiffer := heach _ (by decide) (by decide)
  have hapart : (Value.map outer).EachMap Entry.KeysApart := heach _ (by decide) (by decide)
  exact ⟨hjson, hdiffer, (shows_toJson_iff hjson hdiffer).mpr hapart⟩

/-- A number and its digits are different keys of a map, and of their two fields one is lost. -/
theorem not_shows_toJson :
    let entries : List (Entry Vocabulary.empty) :=
      [.mk (.int .int64 ⟨1, by decide⟩) (.string "number"), .mk (.string "1") (.string "text")]
    let j : Json := .object [("1", .string "text")]
    (Value.map entries).toJson = .ok j ∧ (Value.map entries).EachMap Entry.KeysDiffer ∧
      ¬ j.Shows (.map entries) := by
  intro entries j
  have hjson : (Value.map entries).toJson = .ok j := rfl
  have hdiffer : (Value.map entries).EachMap Entry.KeysDiffer := by
    rw [Value.eachMap_map, List.forall_mem_cons, List.forall_mem_singleton]
    exact ⟨by decide, ⟨(Value.IsKey.int _ _).eachMap, (Value.IsKey.string "number").eachMap⟩,
      (Value.IsKey.string "1").eachMap, (Value.IsKey.string "text").eachMap⟩
  refine ⟨hjson, hdiffer, fun hshows => ?_⟩
  have hnodup := (Json.shows_iff_nodup hjson).mp hshows entries (.self _)
  exact absurd hnodup (by decide)

end ExprLang
