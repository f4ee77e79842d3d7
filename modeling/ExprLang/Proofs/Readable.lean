import ExprLang.Proofs.Equality
import ExprLang.Proofs.Grammar
import ExprLang.Proofs.TokenStream

/-!
# Expressions that a source can have

Not every tree is read from a source: `Readable` says which ones are. Their literals are truth values,
strings, and numbers that are not negative; their names are identifiers; and they call functions as
the registry holds them, under names that a source can spell.

Main statements: `readable_of_isExpr`, `Readable.equal_self`.
-/

namespace ExprLang

open Text Lexeme Grammar

variable {V : Vocabulary} {r : Registry V}

/-- What a source can hold. -/
inductive Expr.Readable (r : Registry V) : Expr V → Prop where
  | bool {b : Bool} : Readable r (.literal (.bool b))
  | string {s : String} : Readable r (.literal (.string s))
  | integer {n : Integer .int64} : 0 ≤ n.val → Readable r (.literal (.int64 n))
  | finite {units : Nat} {h : Format.double.Represents units} :
      Readable r (.literal (.float64 (.finite false units h)))
  | infinite : Readable r (.literal (.float64 (.infinite false)))
  | allValues : Readable r (.lookup "")
  | lookup {name : String} : IsIdentifier name → Readable r (.lookup name)
  | field {parent : Expr V} {name : String} :
      Readable r parent → IsIdentifier name → Readable r (.field parent name)
  | call {f : Function V} {arguments : List (Expr V)} {index : Nat} :
      r.find? f.name = some f → ¬ IsKeyword f.name.toList → (∀ a ∈ arguments, Readable r a) →
      index < 2 ^ 64 → Readable r (.call f arguments index)
  | method {parent : Expr V} {name : String} {arguments : List (Expr V)} {index : Nat} :
      Readable r parent → IsIdentifier name → (∀ a ∈ arguments, Readable r a) →
      index < 2 ^ 64 → Readable r (.method parent name arguments index)

/-! ## What is parsed -/

/-- The identifiers among the words are identifiers. -/
def Spelled (ws : List Word) : Prop := ∀ w ∈ ws, w.kind = .identifier → IsIdentifier w.text

theorem spelled_append {ws ws' : List Word} : Spelled (ws ++ ws') ↔ Spelled ws ∧ Spelled ws' := by
  simp only [Spelled, List.mem_append, or_imp, forall_and]

theorem spelled_cons {w : Word} {ws : List Word} :
    Spelled (w :: ws) ↔ (w.kind = .identifier → IsIdentifier w.text) ∧ Spelled ws := by
  simp only [Spelled, List.mem_cons, forall_eq_or_imp]

theorem isIdentifier_of_forms {raw : List Char} {name : String}
    (h : Forms .identifier raw name.toList) : IsIdentifier name := by
  cases h with
  | identifier hword hkeyword => exact ⟨hword, hkeyword⟩
  | symbol hmem => exact absurd (by decide) (kind_of_mem_symbols hmem)

theorem spelled_words (source : String) : Spelled (scan source).words := by
  intro w hw hkind
  obtain ⟨t, ht, rfl⟩ := List.mem_map.mp hw
  obtain ⟨raw, hforms⟩ := (scans_scanFrom 0 source.toList).forms t (List.mem_of_mem_filter ht)
  have hkind : t.kind = .identifier := hkind
  rw [hkind] at hforms
  exact isIdentifier_of_forms hforms

theorem not_isKeyword_unaryFunction {operator name : String}
    (h : Operator.unaryFunction? operator = some name) : ¬ IsKeyword name.toList := by
  have hall : ∀ p ∈ Operator.unaries, ¬ IsKeyword p.2.toList := by decide
  exact hall _ (Operator.unaryFunction?_eq_some_iff.mp h)

theorem not_isKeyword_binaryFunction {operator name : String}
    (h : Operator.binaryFunction? operator = some name) : ¬ IsKeyword name.toList := by
  have hall : ∀ p ∈ Operator.binaries, ¬ IsKeyword p.2.toList := by decide
  exact hall _ (Operator.binaryFunction?_eq_some_iff.mp h)

theorem Expr.Readable.of_find? {name : String} {f : Function V} {arguments : List (Expr V)}
    {index : Nat} (hf : r.find? name = some f) (hname : ¬ IsKeyword name.toList)
    (harguments : ∀ a ∈ arguments, Readable r a) (hindex : index < 2 ^ 64) :
    Readable r (.call f arguments index) := by
  obtain ⟨rfl, -⟩ := r.named name f hf
  exact .call hf hname harguments hindex

theorem Grammar.IsLiteral.readable {w : Word} {e : Expr V} (h : IsLiteral w e) : e.Readable r := by
  cases h with
  | integer hn => exact .integer (by omega)
  | @float text =>
    unfold Binary.ofDecimal Binary.round
    split
    · exact .finite
    · exact .infinite
  | bool => exact .bool
  | string => exact .string
  | allValues => exact .allValues

theorem Grammar.IsIndex.lt {ws : List Word} {index : Nat} (h : IsIndex ws index) :
    index < 2 ^ 64 := by
  cases h with
  | absent => decide
  | present hlt => exact hlt

mutual

/-- What a grammar derives from the words of a source is readable. -/
theorem readable_of_isExpr {ws : List Word} {e : Expr V} : IsExpr r ws e → Spelled ws → e.Readable r
  | .operand h, hws => readable_of_isOperand h hws
  | .binary hleft hname hf hright, hws => by
    obtain ⟨hws, hws'⟩ := spelled_append.mp hws
    have hleft := readable_of_isExpr hleft hws
    have hright := readable_of_isOperand hright (spelled_cons.mp hws').2
    refine .of_find? hf (not_isKeyword_binaryFunction hname) ?_ (by decide)
    simp [hleft, hright]

theorem readable_of_isOperand {ws : List Word} {e : Expr V} :
    IsOperand r ws e → Spelled ws → e.Readable r
  | .unary _ hname hf h, hws => by
    have hoperand := readable_of_isOperand h (spelled_cons.mp hws).2
    refine .of_find? hf (not_isKeyword_unaryFunction hname) ?_ (by decide)
    simp [hoperand]
  | .chain h, hws => readable_of_isChain h hws

theorem readable_of_isChain {ws : List Word} {e : Expr V} :
    IsChain r ws e → Spelled ws → e.Readable r
  | .literal h, _ => h.readable
  | .group hf h, hws => by
    have hws := (spelled_append.mp (spelled_cons.mp hws).2).1
    have hexpr := readable_of_isExpr h hws
    refine .of_find? hf (by decide) ?_ (by decide)
    simp [hexpr]
  | .lookup, hws => .lookup ((spelled_cons.mp hws).1 rfl)
  | .call hf harguments hindex, hws => by
    obtain ⟨hname, hws⟩ := spelled_cons.mp hws
    have harguments := readable_of_isArguments harguments (spelled_append.mp hws).1
    exact .of_find? hf (hname rfl).2 harguments hindex.lt
  | .field hparent, hws => by
    obtain ⟨hws, hws'⟩ := spelled_append.mp hws
    have hname := (spelled_cons.mp (spelled_cons.mp hws').2).1 rfl
    exact .field (readable_of_isChain hparent hws) hname
  | .method hparent harguments hindex, hws => by
    obtain ⟨hws, hws'⟩ := spelled_append.mp hws
    obtain ⟨hname, hws'⟩ := spelled_cons.mp (spelled_cons.mp hws').2
    have harguments := readable_of_isArguments harguments (spelled_append.mp hws').1
    exact .method (readable_of_isChain hparent hws) (hname rfl) harguments hindex.lt
  | .index htarget hf h, hws => by
    obtain ⟨hws, hws'⟩ := spelled_append.mp hws
    have htarget := readable_of_isChain htarget hws
    have hexpr := readable_of_isExpr h (spelled_append.mp (spelled_cons.mp hws').2).1
    refine .of_find? hf (by decide) ?_ (by decide)
    simp [htarget, hexpr]

theorem readable_of_isArguments {ws : List Word} {arguments : List (Expr V)} :
    IsArguments r ws arguments → Spelled ws → ∀ a ∈ arguments, a.Readable r
  | .none, _ => by simp
  | .some h, hws => readable_of_isList h (spelled_append.mp (spelled_cons.mp hws).2).1

theorem readable_of_isList {ws : List Word} {es : List (Expr V)} :
    IsList r ws es → Spelled ws → ∀ e ∈ es, e.Readable r
  | .one h, hws => by
    have hexpr := readable_of_isExpr h hws
    simp [hexpr]
  | .more hlist h, hws => by
    obtain ⟨hws, hws'⟩ := spelled_append.mp hws
    have hlist := readable_of_isList hlist hws
    have hexpr := readable_of_isExpr h (spelled_cons.mp hws').2
    intro a ha
    rcases List.mem_append.mp ha with ha | ha
    · exact hlist a ha
    · rwa [List.mem_singleton.mp ha]

end

/-! ## Equality -/

namespace Expr

theorem equalLists_map_eq_false {g : Expr V → Expr V} {es : List (Expr V)} {e : Expr V}
    (he : e ∈ es) (h : equal (g e) e = false) : equalLists (es.map g) es = false := by
  induction es with
  | nil => cases he
  | cons a es ih =>
    rw [List.map_cons, equalLists]
    rcases List.mem_cons.mp he with rfl | he
    · rw [h, Bool.false_and]
    · rw [ih he, Bool.and_false]

theorem equalLists_self {es : List (Expr V)} (h : ∀ e ∈ es, equal e e = true) :
    equalLists es es = true :=
  equalLists_iff.mpr (List.forall₂_same.mpr h)

/-- What can be read is equal to itself: it holds nothing that is not a number. -/
theorem Readable.equal_self {e : Expr V} (h : e.Readable r) : equal e e = true := by
  induction h with
  | bool | string | allValues | lookup => simp [equal, Value.equal]
  | integer => simp [equal, Value.equal, Value.int64]
  | finite | infinite => exact Binary.equal_self_iff.mpr nofun
  | field _ _ ih => simp [equal, ih]
  | call _ _ _ _ ih => simp [equal, equalLists_self ih]
  | method _ _ _ _ ihparent ih => simp [equal, ihparent, equalLists_self ih]

end Expr

end ExprLang
