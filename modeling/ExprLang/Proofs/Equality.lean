import ExprLang.Proofs.Induction
import ExprLang.Signature
import ExprLang.Value.Copy
import ExprLang.Value.Equality
import Mathlib.Data.List.Forall2

/-!
# The laws of equality

Equality of values is symmetric and transitive, but not reflexive: a value equals itself exactly if no
float in it, at any depth, is not a number. It compares four kinds of things in four ways: kinds and
contents strictly, floats by their places on the line, parts one by one and in order, objects and
functions by identity.

The equations of `Value.equal` are read once, as what a value of each shape is equal to. Each law is an
induction over values and expressions together (`Hereditary`), with one case for each shape.

Main statement: `equality_laws`.
-/

namespace ExprLang

variable {V : Vocabulary}

/-! ## What a value is equal to -/

theorem Binary.place?_eq_none_iff {f : Format} {x : Binary f} : x.place? = none ↔ x = .nan := by
  cases x <;> simp [place?]

theorem Binary.equal_iff {f : Format} {x y : Binary f} :
    x.equal y = true ↔ ∃ p, x.place? = some p ∧ y.place? = some p := by
  unfold equal compare?
  cases x.place? with
  | none => simp
  | some p =>
    cases y.place? with
    | none => simp
    | some q =>
      show (some (compare p q) == some .eq) = true ↔ _
      rw [beq_iff_eq, Option.some_inj, Std.compare_eq_iff_eq]
      constructor
      · rintro rfl
        exact ⟨p, rfl, rfl⟩
      · rintro ⟨r, hp, hq⟩
        exact Option.some_inj.mp (hp.trans hq.symm)

theorem Binary.equal_self_iff {f : Format} {x : Binary f} : x.equal x = true ↔ x ≠ .nan := by
  rw [equal_iff, ne_eq, ← place?_eq_none_iff, ← ne_eq, Option.ne_none_iff_exists']
  simp only [and_self]

theorem Value.equalLists_iff {as bs : List (Value V)} :
    equalLists as bs = true ↔ List.Forall₂ (fun v w => (v == w) = true) as bs := by
  induction as generalizing bs with
  | nil =>
    cases bs with
    | nil => exact iff_of_true rfl .nil
    | cons b bs => exact iff_of_false Bool.false_ne_true nofun
  | cons a as ih =>
    cases bs with
    | nil => exact iff_of_false Bool.false_ne_true nofun
    | cons b bs =>
      show (equal a b && equalLists as bs) = true ↔ _
      rw [Bool.and_eq_true, List.forall₂_cons, ih]
      rfl

def Entry.Alike (d e : Entry V) : Prop := (d.key == e.key) = true ∧ (d.value == e.value) = true

theorem Entry.equal_iff {d e : Entry V} : Entry.equal d e = true ↔ d.Alike e := by
  obtain ⟨key, value⟩ := d
  obtain ⟨key', value'⟩ := e
  show (Value.equal key key' && Value.equal value value') = true ↔ _
  rw [Bool.and_eq_true]
  rfl

theorem Entry.equalLists_iff {ds es : List (Entry V)} :
    equalLists ds es = true ↔ List.Forall₂ Alike ds es := by
  induction ds generalizing es with
  | nil =>
    cases es with
    | nil => exact iff_of_true rfl .nil
    | cons e es => exact iff_of_false Bool.false_ne_true nofun
  | cons d ds ih =>
    cases es with
    | nil => exact iff_of_false Bool.false_ne_true nofun
    | cons e es =>
      show (equal d e && equalLists ds es) = true ↔ _
      rw [Bool.and_eq_true, List.forall₂_cons, ih, equal_iff]

theorem Expr.equalLists_iff {as bs : List (Expr V)} :
    equalLists as bs = true ↔ List.Forall₂ (fun a b => (a == b) = true) as bs := by
  induction as generalizing bs with
  | nil =>
    cases bs with
    | nil => exact iff_of_true rfl .nil
    | cons b bs => exact iff_of_false Bool.false_ne_true nofun
  | cons a as ih =>
    cases bs with
    | nil => exact iff_of_false Bool.false_ne_true nofun
    | cons b bs =>
      show (equal a b && equalLists as bs) = true ↔ _
      rw [Bool.and_eq_true, List.forall₂_cons, ih]
      rfl

namespace Value

variable {w : Value V}

theorem nil_beq_iff : ((nil : Value V) == w) = true ↔ w = nil := by
  constructor
  · intro h
    cases w with
    | nil => rfl
    | _ => cases h
  · rintro rfl
    rfl

theorem bool_beq_iff {b : Bool} : (bool b == w) = true ↔ w = bool b := by
  constructor
  · intro h
    cases w with
    | bool c =>
      have hbool : (b == c) = true := h
      rw [beq_iff_eq.mp hbool]
    | _ => cases h
  · rintro rfl
    exact beq_self_eq_true b

theorem int_beq_iff {k : IntKind} {n : Integer k} : (int k n == w) = true ↔ w = int k n := by
  constructor
  · intro h
    cases w with
    | int l m =>
      obtain ⟨hkind, hval⟩ := Bool.and_eq_true_iff.mp h
      obtain rfl := beq_iff_eq.mp hkind
      rw [Integer.ext (beq_iff_eq.mp hval)]
    | _ => cases h
  · rintro rfl
    exact Bool.and_eq_true_iff.mpr ⟨beq_self_eq_true k, beq_self_eq_true n.val⟩

theorem float32_beq_iff {x : Binary .single} :
    (float32 x == w) = true ↔ ∃ y, w = float32 y ∧ x.equal y = true := by
  constructor
  · intro h
    cases w with
    | float32 y => exact ⟨y, rfl, h⟩
    | _ => cases h
  · rintro ⟨y, rfl, h⟩
    exact h

theorem float64_beq_iff {x : Binary .double} :
    (float64 x == w) = true ↔ ∃ y, w = float64 y ∧ x.equal y = true := by
  constructor
  · intro h
    cases w with
    | float64 y => exact ⟨y, rfl, h⟩
    | _ => cases h
  · rintro ⟨y, rfl, h⟩
    exact h

theorem string_beq_iff {s : String} : (string s == w) = true ↔ w = string s := by
  constructor
  · intro h
    cases w with
    | string s' =>
      have hstring : (s == s') = true := h
      rw [beq_iff_eq.mp hstring]
    | _ => cases h
  · rintro rfl
    exact beq_self_eq_true s

theorem list_beq_iff {items : List (Value V)} : (list items == w) = true ↔
    ∃ items', w = list items' ∧ List.Forall₂ (fun v v' => (v == v') = true) items items' := by
  constructor
  · intro h
    cases w with
    | list items' => exact ⟨items', rfl, equalLists_iff.mp h⟩
    | _ => cases h
  · rintro ⟨items', rfl, h⟩
    exact equalLists_iff.mpr h

theorem map_beq_iff {entries : List (Entry V)} : (map entries == w) = true ↔
    ∃ entries', w = map entries' ∧ List.Forall₂ Entry.Alike entries entries' := by
  constructor
  · intro h
    cases w with
    | map entries' => exact ⟨entries', rfl, Entry.equalLists_iff.mp h⟩
    | _ => cases h
  · rintro ⟨entries', rfl, h⟩
    exact Entry.equalLists_iff.mpr h

theorem entry_beq_iff {e : Entry V} : (entry e == w) = true ↔ ∃ e', w = entry e' ∧ e.Alike e' := by
  constructor
  · intro h
    cases w with
    | entry e' => exact ⟨e', rfl, Entry.equal_iff.mp h⟩
    | _ => cases h
  · rintro ⟨e', rfl, h⟩
    exact Entry.equal_iff.mpr h

theorem object_beq_iff {o : V.Object} : (object o == w) = true ↔ w = object o := by
  constructor
  · intro h
    cases w with
    | object o' =>
      have hobject : (o == o') = true := h
      rw [beq_iff_eq.mp hobject]
    | _ => cases h
  · rintro rfl
    exact beq_self_eq_true o

theorem expression_beq_iff {e : Expr V} : (expression e == w) = true ↔
    ∃ e', w = expression e' ∧ (e == e') = true := by
  constructor
  · intro h
    cases w with
    | expression e' => exact ⟨e', rfl, h⟩
    | _ => cases h
  · rintro ⟨e', rfl, h⟩
    exact h

end Value

namespace Expr

variable {e : Expr V}

theorem literal_beq_iff {v : Value V} : (literal v == e) = true ↔
    ∃ v', e = literal v' ∧ (v == v') = true := by
  constructor
  · intro h
    cases e with
    | literal v' => exact ⟨v', rfl, h⟩
    | _ => cases h
  · rintro ⟨v', rfl, h⟩
    exact h

theorem lookup_beq_iff {name : String} : ((lookup name : Expr V) == e) = true ↔ e = lookup name := by
  constructor
  · intro h
    cases e with
    | lookup name' =>
      have hlookup : (name == name') = true := h
      rw [beq_iff_eq.mp hlookup]
    | _ => cases h
  · rintro rfl
    exact beq_self_eq_true name

theorem field_beq_iff {parent : Expr V} {name : String} : (field parent name == e) = true ↔
    ∃ parent', e = field parent' name ∧ (parent == parent') = true := by
  constructor
  · intro h
    cases e with
    | field parent' name' =>
      obtain ⟨hparent, hname⟩ := Bool.and_eq_true_iff.mp h
      obtain rfl := beq_iff_eq.mp hname
      exact ⟨parent', rfl, hparent⟩
    | _ => cases h
  · rintro ⟨parent', rfl, hparent⟩
    exact Bool.and_eq_true_iff.mpr ⟨hparent, beq_self_eq_true name⟩

theorem call_beq_iff {f : Function V} {arguments : List (Expr V)} {index : Nat} :
    (call f arguments index == e) = true ↔ ∃ arguments', e = call f arguments' index ∧
      List.Forall₂ (fun a a' => (a == a') = true) arguments arguments' := by
  constructor
  · intro h
    cases e with
    | call g arguments' j =>
      obtain ⟨h, hindex⟩ := Bool.and_eq_true_iff.mp h
      obtain ⟨hfunction, hall⟩ := Bool.and_eq_true_iff.mp h
      obtain rfl := beq_iff_eq.mp hfunction
      obtain rfl := beq_iff_eq.mp hindex
      exact ⟨arguments', rfl, equalLists_iff.mp hall⟩
    | _ => cases h
  · rintro ⟨arguments', rfl, hall⟩
    have h := Bool.and_eq_true_iff.mpr ⟨beq_self_eq_true f, equalLists_iff.mpr hall⟩
    exact Bool.and_eq_true_iff.mpr ⟨h, beq_self_eq_true index⟩

theorem method_beq_iff {parent : Expr V} {name : String} {arguments : List (Expr V)} {index : Nat} :
    (method parent name arguments index == e) = true ↔
      ∃ parent' arguments', e = method parent' name arguments' index ∧
        (parent == parent') = true ∧
        List.Forall₂ (fun a a' => (a == a') = true) arguments arguments' := by
  constructor
  · intro h
    cases e with
    | method parent' name' arguments' j =>
      obtain ⟨h, hindex⟩ := Bool.and_eq_true_iff.mp h
      obtain ⟨h, hall⟩ := Bool.and_eq_true_iff.mp h
      obtain ⟨hparent, hname⟩ := Bool.and_eq_true_iff.mp h
      obtain rfl := beq_iff_eq.mp hname
      obtain rfl := beq_iff_eq.mp hindex
      exact ⟨parent', arguments', rfl, hparent, equalLists_iff.mp hall⟩
    | _ => cases h
  · rintro ⟨parent', arguments', rfl, hparent, hall⟩
    have h := Bool.and_eq_true_iff.mpr ⟨hparent, beq_self_eq_true name⟩
    have h := Bool.and_eq_true_iff.mpr ⟨h, equalLists_iff.mpr hall⟩
    exact Bool.and_eq_true_iff.mpr ⟨h, beq_self_eq_true index⟩

end Expr

/-! ## Symmetry and transitivity -/

/-- At `a`, the relation is symmetric and transitive. -/
def EquivAt {α : Type} (R : α → α → Prop) (a : α) : Prop := ∀ b, R a b → R b a ∧ ∀ c, R b c → R a c

namespace EquivAt

variable {α β : Type} {R : α → α → Prop} {S : β → β → Prop} {a : α} {b : β}

theorem of_eq (h : ∀ c, R a c ↔ c = a) : EquivAt R a := by
  intro c hc
  obtain rfl := (h c).mp hc
  exact ⟨hc, fun _ hd => hd⟩

/-- What is related to a whole is a whole of related parts. -/
theorem of_parts (g : β → α) (h : ∀ b c, R (g b) c ↔ ∃ b', c = g b' ∧ S b b') (hb : EquivAt S b) :
    EquivAt R (g b) := by
  intro c hc
  obtain ⟨b', rfl, hrel⟩ := (h b c).mp hc
  obtain ⟨hsymm, htrans⟩ := hb b' hrel
  refine ⟨(h b' _).mpr ⟨b, rfl, hsymm⟩, fun d hd => ?_⟩
  obtain ⟨b'', rfl, hrel'⟩ := (h b' d).mp hd
  exact (h b _).mpr ⟨b'', rfl, htrans b'' hrel'⟩

theorem prod (ha : EquivAt R a) (hb : EquivAt S b) :
    EquivAt (fun x y : α × β => R x.1 y.1 ∧ S x.2 y.2) (a, b) := by
  rintro ⟨a', b'⟩ ⟨hra, hrb⟩
  obtain ⟨hsymm, htrans⟩ := ha a' hra
  obtain ⟨hsymm', htrans'⟩ := hb b' hrb
  exact ⟨⟨hsymm, hsymm'⟩, fun c hc => ⟨htrans c.1 hc.1, htrans' c.2 hc.2⟩⟩

theorem forall₂ {as : List α} (h : ∀ a ∈ as, EquivAt R a) : EquivAt (List.Forall₂ R) as := by
  intro bs hbs
  induction hbs with
  | nil => exact ⟨.nil, fun _ hcs => hcs⟩
  | @cons a b as bs hab _ ih =>
    rw [List.forall_mem_cons] at h
    obtain ⟨hsymm, htrans⟩ := h.1 b hab
    obtain ⟨hsymm', htrans'⟩ := ih h.2
    refine ⟨.cons hsymm hsymm', fun cs hcs => ?_⟩
    cases hcs with
    | cons hc hcs => exact .cons (htrans _ hc) (htrans' _ hcs)

end EquivAt

theorem Binary.equivAt {f : Format} (x : Binary f) :
    EquivAt (fun x y : Binary f => x.equal y = true) x := by
  intro y hxy
  obtain ⟨p, hx, hy⟩ := equal_iff.mp hxy
  refine ⟨equal_iff.mpr ⟨p, hy, hx⟩, fun z hyz => ?_⟩
  obtain ⟨q, hy', hz⟩ := equal_iff.mp hyz
  rw [hy, Option.some_inj] at hy'
  exact equal_iff.mpr ⟨p, hx, hy' ▸ hz⟩

theorem Entry.equivAt {e : Entry V} (hkey : EquivAt (fun v w => (v == w) = true) e.key)
    (hvalue : EquivAt (fun v w => (v == w) = true) e.value) : EquivAt Alike e := by
  intro d hd
  obtain ⟨hsymm, htrans⟩ := hkey.prod hvalue (d.key, d.value) hd
  exact ⟨hsymm, fun c hc => htrans (c.key, c.value) hc⟩

theorem equivAt_beq : Hereditary (V := V) (EquivAt fun v w => (v == w) = true)
    (EquivAt fun e e' => (e == e') = true) where
  nil := .of_eq fun _ => Value.nil_beq_iff
  bool _ := .of_eq fun _ => Value.bool_beq_iff
  int _ _ := .of_eq fun _ => Value.int_beq_iff
  float32 x := .of_parts Value.float32 (fun _ _ => Value.float32_beq_iff) x.equivAt
  float64 x := .of_parts Value.float64 (fun _ _ => Value.float64_beq_iff) x.equivAt
  string _ := .of_eq fun _ => Value.string_beq_iff
  list _ ih := .of_parts Value.list (fun _ _ => Value.list_beq_iff) (.forall₂ ih)
  map _ ih := .of_parts Value.map (fun _ _ => Value.map_beq_iff)
    (.forall₂ fun e he => Entry.equivAt (ih e he).1 (ih e he).2)
  entry _ hkey hvalue :=
    .of_parts Value.entry (fun _ _ => Value.entry_beq_iff) (Entry.equivAt hkey hvalue)
  object _ := .of_eq fun _ => Value.object_beq_iff
  expression _ ih := .of_parts Value.expression (fun _ _ => Value.expression_beq_iff) ih
  literal _ ih := .of_parts Expr.literal (fun _ _ => Expr.literal_beq_iff) ih
  lookup _ := .of_eq fun _ => Expr.lookup_beq_iff
  field _ name ih := .of_parts (Expr.field · name) (fun _ _ => Expr.field_beq_iff) ih
  call f _ index ih := .of_parts (Expr.call f · index) (fun _ _ => Expr.call_beq_iff) (.forall₂ ih)
  method _ name _ index hparent ih :=
    .of_parts (fun x : Expr V × List (Expr V) => Expr.method x.1 name x.2 index)
      (fun _ _ => by simp only [Expr.method_beq_iff, Prod.exists]) (hparent.prod (.forall₂ ih))

instance : PartialEquivBEq (Value V) where
  symm h := (equivAt_beq.value _ _ h).1
  trans h h' := (equivAt_beq.value _ _ h).2 _ h'

/-! ## What equals itself -/

mutual

/-- A float somewhere in the value is not a number. -/
inductive Value.HasNan : Value V → Prop where
  | float32 : Value.HasNan (.float32 .nan)
  | float64 : Value.HasNan (.float64 .nan)
  | item {v : Value V} {items : List (Value V)} :
      v ∈ items → Value.HasNan v → Value.HasNan (.list items)
  | mapKey {e : Entry V} {entries : List (Entry V)} :
      e ∈ entries → Value.HasNan e.key → Value.HasNan (.map entries)
  | mapValue {e : Entry V} {entries : List (Entry V)} :
      e ∈ entries → Value.HasNan e.value → Value.HasNan (.map entries)
  | entryKey {e : Entry V} : Value.HasNan e.key → Value.HasNan (.entry e)
  | entryValue {e : Entry V} : Value.HasNan e.value → Value.HasNan (.entry e)
  | expression {e : Expr V} : Expr.HasNan e → Value.HasNan (.expression e)

/-- A float somewhere in a literal of the expression is not a number. -/
inductive Expr.HasNan : Expr V → Prop where
  | literal {v : Value V} : Value.HasNan v → Expr.HasNan (.literal v)
  | field {parent : Expr V} {name : String} : Expr.HasNan parent → Expr.HasNan (.field parent name)
  | callArgument {f : Function V} {e : Expr V} {arguments : List (Expr V)} {index : Nat} :
      e ∈ arguments → Expr.HasNan e → Expr.HasNan (.call f arguments index)
  | methodParent {parent : Expr V} {name : String} {arguments : List (Expr V)} {index : Nat} :
      Expr.HasNan parent → Expr.HasNan (.method parent name arguments index)
  | methodArgument {parent e : Expr V} {name : String} {arguments : List (Expr V)} {index : Nat} :
      e ∈ arguments → Expr.HasNan e → Expr.HasNan (.method parent name arguments index)

end

theorem beq_self_iff : Hereditary (V := V) (fun v => (v == v) = true ↔ ¬ v.HasNan)
    (fun e => (e == e) = true ↔ ¬ e.HasNan) where
  nil := iff_of_true (Value.nil_beq_iff.mpr rfl) nofun
  bool _ := iff_of_true (Value.bool_beq_iff.mpr rfl) nofun
  int _ _ := iff_of_true (Value.int_beq_iff.mpr rfl) nofun
  string _ := iff_of_true (Value.string_beq_iff.mpr rfl) nofun
  object _ := iff_of_true (Value.object_beq_iff.mpr rfl) nofun
  lookup _ := iff_of_true (Expr.lookup_beq_iff.mpr rfl) nofun
  float32 x := by
    show x.equal x = true ↔ _
    rw [Binary.equal_self_iff]
    refine not_congr ⟨fun h => h ▸ .float32, fun h => ?_⟩
    cases h
    rfl
  float64 x := by
    show x.equal x = true ↔ _
    rw [Binary.equal_self_iff]
    refine not_congr ⟨fun h => h ▸ .float64, fun h => ?_⟩
    cases h
    rfl
  list items ih := by
    show Value.equalLists items items = true ↔ _
    rw [Value.equalLists_iff, List.forall₂_same]
    constructor
    · intro h hnan
      cases hnan with
      | item hv hnan => exact (ih _ hv).mp (h _ hv) hnan
    · intro h v hv
      exact (ih v hv).mpr fun hnan => h (.item hv hnan)
  map entries ih := by
    show Entry.equalLists entries entries = true ↔ _
    rw [Entry.equalLists_iff, List.forall₂_same]
    constructor
    · intro h hnan
      cases hnan with
      | mapKey he hnan => exact (ih _ he).1.mp (h _ he).1 hnan
      | mapValue he hnan => exact (ih _ he).2.mp (h _ he).2 hnan
    · intro h e he
      exact ⟨(ih e he).1.mpr fun hnan => h (.mapKey he hnan),
        (ih e he).2.mpr fun hnan => h (.mapValue he hnan)⟩
  entry e hkey hvalue := by
    show Entry.equal e e = true ↔ _
    rw [Entry.equal_iff]
    constructor
    · intro h hnan
      cases hnan with
      | entryKey hnan => exact hkey.mp h.1 hnan
      | entryValue hnan => exact hvalue.mp h.2 hnan
    · intro h
      exact ⟨hkey.mpr fun hnan => h (.entryKey hnan), hvalue.mpr fun hnan => h (.entryValue hnan)⟩
  expression e ih := by
    show (e == e) = true ↔ _
    refine ih.trans (not_congr ⟨.expression, fun h => ?_⟩)
    cases h with
    | expression hnan => exact hnan
  literal v ih := by
    show (v == v) = true ↔ _
    refine ih.trans (not_congr ⟨.literal, fun h => ?_⟩)
    cases h with
    | literal hnan => exact hnan
  field parent name ih := by
    show ((parent == parent) && name == name) = true ↔ _
    rw [Bool.and_eq_true, and_iff_left (beq_self_eq_true name)]
    refine ih.trans (not_congr ⟨.field, fun h => ?_⟩)
    cases h with
    | field hnan => exact hnan
  call f arguments index ih := by
    show (f == f && Expr.equalLists arguments arguments && index == index) = true ↔ _
    rw [beq_self_eq_true, beq_self_eq_true, Bool.true_and, Bool.and_true, Expr.equalLists_iff,
      List.forall₂_same]
    constructor
    · intro h hnan
      cases hnan with
      | callArgument he hnan => exact (ih _ he).mp (h _ he) hnan
    · intro h e he
      exact (ih e he).mpr fun hnan => h (.callArgument he hnan)
  method parent name arguments index hparent ih := by
    show ((parent == parent) && name == name && Expr.equalLists arguments arguments &&
      index == index) = true ↔ _
    rw [beq_self_eq_true name, beq_self_eq_true index, Bool.and_true, Bool.and_true,
      Bool.and_eq_true, Expr.equalLists_iff, List.forall₂_same]
    constructor
    · intro h hnan
      cases hnan with
      | methodParent hnan => exact hparent.mp h.1 hnan
      | methodArgument he hnan => exact (ih _ he).mp (h.2 _ he) hnan
    · intro h
      exact ⟨hparent.mpr fun hnan => h (.methodParent hnan), fun e he =>
        (ih e he).mpr fun hnan => h (.methodArgument he hnan)⟩

/-! ## Copies -/

theorem Value.copyLists_eq_self {values : List (Value V)} (h : ∀ v ∈ values, v.copy = v) :
    copyLists values = values := by
  induction values with
  | nil => rfl
  | cons v rest ih =>
    rw [List.forall_mem_cons] at h
    show v.copy :: copyLists rest = v :: rest
    rw [h.1, ih h.2]

theorem Entry.copy_eq_self {e : Entry V} (hkey : e.key.copy = e.key)
    (hvalue : e.value.copy = e.value) : copy e = e := by
  obtain ⟨key, value⟩ := e
  exact congrArg₂ mk hkey hvalue

theorem Entry.copyLists_eq_self {entries : List (Entry V)}
    (h : ∀ e ∈ entries, e.key.copy = e.key ∧ e.value.copy = e.value) :
    copyLists entries = entries := by
  induction entries with
  | nil => rfl
  | cons e rest ih =>
    rw [List.forall_mem_cons] at h
    show copy e :: copyLists rest = e :: rest
    rw [copy_eq_self h.1.1 h.1.2, ih h.2]

theorem Expr.copyLists_eq_self {es : List (Expr V)} (h : ∀ e ∈ es, e.copy = e) :
    copyLists es = es := by
  induction es with
  | nil => rfl
  | cons e rest ih =>
    rw [List.forall_mem_cons] at h
    show e.copy :: copyLists rest = e :: rest
    rw [h.1, ih h.2]

theorem copy_eq_self : Hereditary (V := V) (fun v => v.copy = v) (fun e => e.copy = e) where
  nil := rfl
  bool _ := rfl
  int _ _ := rfl
  float32 _ := rfl
  float64 _ := rfl
  string _ := rfl
  object _ := rfl
  expression _ _ := rfl
  lookup _ := rfl
  list items ih := congrArg Value.list (Value.copyLists_eq_self ih)
  map entries ih := congrArg Value.map (Entry.copyLists_eq_self ih)
  entry e hkey hvalue := congrArg Value.entry (Entry.copy_eq_self hkey hvalue)
  literal v ih := congrArg Expr.literal ih
  field parent name ih := congrArg (Expr.field · name) ih
  call f arguments index ih := congrArg (Expr.call f · index) (Expr.copyLists_eq_self ih)
  method parent name arguments index hparent ih := by
    show Expr.method parent.copy name (Expr.copyLists arguments) index = _
    rw [hparent, Expr.copyLists_eq_self ih]

/-! ## All laws -/

/-- The kind of a value; nil has none. -/
def Value.kind? : Value V → Option Kind
  | nil => none
  | bool _ => some .bool
  | int k _ => some (.int k)
  | float32 _ => some .float32
  | float64 _ => some .float64
  | string _ => some .string
  | list _ => some .list
  | map _ => some .map
  | entry _ => some .entry
  | object _ => some .object
  | expression _ => some .expression

theorem Value.kind?_eq_of_beq {v w : Value V} (h : (v == w) = true) : v.kind? = w.kind? := by
  cases v with
  | nil => rw [nil_beq_iff.mp h]
  | bool => rw [bool_beq_iff.mp h]
  | int => rw [int_beq_iff.mp h]
  | string => rw [string_beq_iff.mp h]
  | object => rw [object_beq_iff.mp h]
  | float32 =>
    obtain ⟨_, rfl, -⟩ := float32_beq_iff.mp h
    rfl
  | float64 =>
    obtain ⟨_, rfl, -⟩ := float64_beq_iff.mp h
    rfl
  | list =>
    obtain ⟨_, rfl, -⟩ := list_beq_iff.mp h
    rfl
  | map =>
    obtain ⟨_, rfl, -⟩ := map_beq_iff.mp h
    rfl
  | entry =>
    obtain ⟨_, rfl, -⟩ := entry_beq_iff.mp h
    rfl
  | expression =>
    obtain ⟨_, rfl, -⟩ := expression_beq_iff.mp h
    rfl

structure EqualityLaws (V : Vocabulary) : Prop where
  symm : ∀ v w : Value V, (v == w) = (w == v)
  trans : ∀ u v w : Value V, (u == v) = true → (v == w) = true → (u == w) = true
  /-- Integers of different widths are of different kinds, and so are the two kinds of floats. -/
  kind : ∀ v w : Value V, v.kind? ≠ w.kind? → (v == w) = false
  self : ∀ v : Value V, (v == v) = true ↔ ¬ v.HasNan
  selfExpr : ∀ e : Expr V, (e == e) = true ↔ ¬ e.HasNan
  copy : ∀ v : Value V, (v.copy == v) = true ↔ ¬ v.HasNan
  copyExpr : ∀ e : Expr V, (e.copy == e) = true ↔ ¬ e.HasNan
  /-- An object equals itself, whatever it shows, and no other. -/
  object : ∀ o o' : V.Object, (Value.object o == .object o') = true ↔ o = o'
  /-- The functions of equal calls are one function. -/
  call : ∀ (f g : Function V) (arguments arguments' : List (Expr V)) (index index' : Nat),
    (Expr.call f arguments index == .call g arguments' index') = true ↔
      f = g ∧ List.Forall₂ (fun e e' => (e == e') = true) arguments arguments' ∧ index = index'
  map : ∀ entries entries' : List (Entry V), (Value.map entries == .map entries') = true ↔
    List.Forall₂ Entry.Alike entries entries'

/-- Equality is a partial equivalence, and what keeps it from being reflexive is nothing but floats that
are not numbers. -/
theorem equality_laws (V : Vocabulary) : EqualityLaws V where
  symm v w := BEq.comm
  trans u v w h h' := BEq.trans h h'
  kind v w hne := by
    rw [← Bool.not_eq_true]
    intro h
    exact hne (Value.kind?_eq_of_beq h)
  self := beq_self_iff.value
  selfExpr := beq_self_iff.expr
  copy v := by
    rw [copy_eq_self.value v]
    exact beq_self_iff.value v
  copyExpr e := by
    rw [copy_eq_self.expr e]
    exact beq_self_iff.expr e
  object o o' := by
    rw [Value.object_beq_iff, Value.object.injEq]
    exact eq_comm
  call f g arguments arguments' index index' := by
    rw [Expr.call_beq_iff]
    constructor
    · rintro ⟨_, h, hall⟩
      cases h
      exact ⟨rfl, hall, rfl⟩
    · rintro ⟨rfl, hall, rfl⟩
      exact ⟨arguments', rfl, hall⟩
  map entries entries' := by
    rw [Value.map_beq_iff]
    constructor
    · rintro ⟨_, h, hall⟩
      cases h
      exact hall
    · intro hall
      exact ⟨entries', rfl, hall⟩

/-- A list of the zeros equals a list of them with other signs; what is not a number keeps an expression
around it from being equal to itself. -/
example : (Value.list [.float64 (.zero true)] : Value .empty) == .list [.float64 (.zero false)] ∧
    (Expr.literal (.list [.float32 .nan]) == (.literal (.list [.float32 .nan]) : Expr .empty)) = false :=
  ⟨rfl, rfl⟩

end ExprLang
