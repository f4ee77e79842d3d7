import ExprLang.Proofs.IntegerSources
import ExprLang.Proofs.Reread

/-!
# Integer literals of every kind

The literal of an integer is written as a source of that integer: digits, a sign in front of them for a
negative one, and a call of the conversion around both for another kind than the widest signed one. The
source is read as calls around a literal of 64 bits, and these give the integer back.

A sign is no part of a literal, and digits are a literal of 64 bits whatever is around them. So the least
integer of 64 bits and the greater half of the unsigned ones are written, and not read.

Main statement: `evaluate_render_integer_iff`.
-/

namespace ExprLang

open Lexeme Grammar

variable {V : Vocabulary} {r : Registry V}

/-! ## The words of a literal -/

/-- The digits of a number, behind a sign if it is negative. -/
def numberWords (n : Int) : List Word :=
  (if n < 0 then [⟨.binaryOperator, "-"⟩] else []) ++ [⟨.integer, toString n.natAbs⟩]

/-- A number, in a call of the conversion to its kind. -/
def literalWords (k : IntKind) (n : Int) : List Word :=
  if k = .int64 then numberWords n
  else ⟨.identifier, k.name⟩ :: ⟨.leftParenthesis, "("⟩ ::
    (numberWords n ++ [⟨.rightParenthesis, ")"⟩])

theorem toList_number (n : Int) : (toString n).toList =
    (if n < 0 then ['-'] else []) ++ (toString n.natAbs).toList := by
  rw [Int.toString_eq_repr, Int.repr_eq_if]
  by_cases hn : n < 0
  · have habs : (-n).toNat = n.natAbs := by omega
    rw [if_neg (by omega), if_pos hn, String.toList_append, habs]
    rfl
  · have habs : n.toNat = n.natAbs := by omega
    rw [if_pos (by omega), if_neg hn, habs]
    rfl

/-- What may stand behind digits. -/
def EndsNumber (d : Char) : Prop := d.isDigit = false ∧ d ≠ '.'

theorem writes_number (n : Int) : Writes EndsNumber (toString n).toList (numberWords n) := by
  have hdigits : Writes EndsNumber (toString n.natAbs).toList [⟨.integer, toString n.natAbs⟩] :=
    writes_integer n.natAbs
  rw [toList_number, numberWords]
  by_cases hn : n < 0
  · have hsign : Writes (fun d => symbols.any (·.1 = ['-'] ++ [d]) = false) ['-']
        [⟨.binaryOperator, "-"⟩] := writes_symbol (by decide)
    rw [if_pos hn, if_pos hn]
    exact hsign.append hdigits
      ((begins_of_ne_nil (toString_ne_nil n.natAbs)).mono fun d _ => any_symbols_sign d)
  · rw [if_neg hn, if_neg hn]
    exact hdigits

theorem isIdentifier_kind (k : IntKind) : IsIdentifier k.name := by
  have hname : isFunctionName k.name = true ∧ ¬ IsKeyword k.name.toList := by
    cases k <;> decide
  exact ⟨isWord_of_isFunctionName hname.1, hname.2⟩

theorem begins_number (n : Int) : Begins (fun _ => True) (toString n).toList := by
  refine begins_of_ne_nil ?_
  rw [toList_number]
  exact List.append_ne_nil_of_right_ne_nil _ (toString_ne_nil n.natAbs)

theorem writes_literal (k : IntKind) (n : Integer k) :
    Writes EndsNumber (Expr.literal (.int k n) : Expr V).render.toList (literalWords k n.val) := by
  have hrender : (Expr.literal (.int k n) : Expr V).render =
      if k = .int64 then toString n.val else k.name ++ "(" ++ toString n.val ++ ")" := rfl
  have hnumber := writes_number n.val
  rw [hrender, literalWords]
  by_cases hk : k = .int64
  · rw [if_pos hk, if_pos hk]
    exact hnumber
  · have hparens := hnumber.parenthesized ⟨by decide, by decide⟩ (begins_number n.val)
    have hcall := (writes_identifier (isIdentifier_kind k)).append hparens (begins_cons (by rfl) _)
    rw [if_neg hk, if_neg hk]
    simpa [String.toList_append] using hcall.mono fun _ _ => trivial

/-! ## What the words evaluate to -/

section Reading

variable (stamp : Nat)

theorem exists_operand {n : Int} (h : n.natAbs < 2 ^ 63) : ∃ e : Expr V,
    IsOperand (.withBuiltins stamp) (numberWords n) e ∧
      ∀ (host : Host V) (site : Site) (env : Env V),
        e.evaluateAt host site env = .ok (.int64 (.wrap .int64 n)) := by
  have hholds : IntKind.int64.Holds n.natAbs := IntKind.holds_int64_iff.mpr (by omega)
  obtain ⟨m, hm⟩ : ∃ m : Integer .int64, m.val = n.natAbs := ⟨⟨_, hholds⟩, rfl⟩
  have hliteral : IsLiteral (V := V) ⟨.integer, toString n.natAbs⟩ (.literal (.int64 m)) :=
    .integer (by rw [numeral_toString, hm])
  have hdigits : IsOperand (.withBuiltins stamp) [⟨.integer, toString n.natAbs⟩]
      (.literal (.int64 m) : Expr V) := .chain (.literal hliteral)
  rw [numberWords]
  by_cases hn : n < 0
  · have hneg : m.neg = .wrap .int64 n := by
      rw [Integer.neg, hm]
      congr 1
      omega
    rw [if_pos hn]
    refine ⟨_, .unary (.inr rfl) rfl (Registry.find?_withBuiltins stamp .negate) hdigits, ?_⟩
    intro host site env
    rw [Expr.evaluateAt_ofOne rfl rfl, ← hneg]
    rfl
  · have hwrap : m = .wrap .int64 n := by
      rw [← Integer.wrap_val m, hm]
      congr 1
      omega
    rw [if_neg hn, ← hwrap]
    exact ⟨_, hdigits, fun host site env => rfl⟩

theorem exists_isExpr_literalWords {k : IntKind} {n : Integer k} (h : n.val.natAbs < 2 ^ 63) :
    ∃ e : Expr V, IsExpr (.withBuiltins stamp) (literalWords k n.val) e ∧
      ∀ (host : Host V) (env : Env V), e.evaluate host env = .ok (.int k n) := by
  obtain ⟨e, hoperand, hevaluate⟩ := exists_operand (V := V) stamp h
  have hval : (Integer.wrap .int64 n.val).val = n.val :=
    Integer.val_wrap_eq_iff.mpr (IntKind.holds_int64_iff.mpr (by omega))
  rw [literalWords]
  by_cases hk : k = .int64
  · subst hk
    rw [if_pos rfl]
    refine ⟨e, .operand hoperand, fun host env => ?_⟩
    rw [← Integer.wrap_val n]
    exact hevaluate host [] env
  · have hcall : IsChain (.withBuiltins stamp : Registry V)
        (⟨.identifier, k.name⟩ ::
          (⟨.leftParenthesis, "("⟩ :: (numberWords n.val ++ [⟨.rightParenthesis, ")"⟩]) ++ []))
        (.call ((Builtin.convert (.integer k)).toFunction stamp) [e] 0) :=
      .call (Registry.find?_withBuiltins stamp (.convert (.integer k)))
        (.some (.one (.operand hoperand))) .absent
    rw [List.append_nil] at hcall
    rw [if_neg hk]
    refine ⟨_, .operand (.chain hcall), fun host env => ?_⟩
    have hconvert : Conversion.apply (.integer k) (.int64 (.wrap .int64 n.val) : Value V) =
        .ok (.int k n) := by
      show Except.ok (Value.int k (.wrap k (Integer.wrap .int64 n.val).val)) = _
      rw [hval, Integer.wrap_val]
    rw [Expr.evaluate, Expr.evaluateAt_ofOne rfl rfl, hevaluate]
    simp only [Except.bind, hconvert]
    rfl

end Reading

/-! ## Digits that are no literal -/

/-- Digits that are no index of a result stand for a number below `2 ^ 63`. -/
theorem numeral_lt_of_isExpr {before after : List Word} {w : Word} {digits : String} {e : Expr V}
    (hw : w.kind ≠ .leftResultIndex) (h : IsExpr r (before ++ w :: ⟨.integer, digits⟩ :: after) e) :
    numeral digits < 2 ^ 63 := by
  obtain ⟨s, s₁, s₂, t, u, rfl, hu, hfirst, hsecond⟩ := exists_steps_of_isExpr h
  have hkind : u.kind = .integer := congrArg Word.kind hu
  cases hsecond with
  | literal _ hliteral =>
    rw [hu] at hliteral
    cases hliteral with
    | @integer _ m hm =>
      have hbounds := m.bounds_int64
      omega
  | resultIndex =>
    -- only a brace makes an index of what follows
    cases hfirst with
    | openResultIndex hbrace => exact absurd hbrace hw
  | unary _ hother =>
    rw [hkind] at hother
    rcases hother with hother | hother <;> cases hother
  | openGroup _ hother | identifier _ hother | point _ hother | openIndex _ hother
  | binary _ hother | closeGroup _ hother | closeIndex _ hother | lastArgument _ hother
  | nextArgument _ hother | noArguments hother | member hother | openFunction hother
  | openMethod hother | openResultIndex hother | closeResultIndex hother =>
    rw [hkind] at hother
    cases hother

theorem exists_split_literalWords (k : IntKind) (n : Integer k) (h : 2 ^ 63 ≤ n.val.natAbs) :
    ∃ before w after, literalWords k n.val =
        before ++ w :: ⟨.integer, toString n.val.natAbs⟩ :: after ∧ w.kind ≠ .leftResultIndex := by
  rw [literalWords, numberWords]
  by_cases hk : k = .int64
  · have hn : n.val < 0 := by
      subst hk
      have hbounds := n.bounds_int64
      omega
    rw [if_pos hk, if_pos hn]
    exact ⟨[], ⟨.binaryOperator, "-"⟩, [], rfl, by decide⟩
  · rw [if_neg hk]
    by_cases hn : n.val < 0
    · rw [if_pos hn]
      exact ⟨[_, _], ⟨.binaryOperator, "-"⟩, [_], rfl, by decide⟩
    · rw [if_neg hn]
      exact ⟨[_], ⟨.leftParenthesis, "("⟩, [_], rfl, by decide⟩

theorem parse_render_great (stamp : Nat) {k : IntKind} {n : Integer k}
    (h : 2 ^ 63 ≤ n.val.natAbs) (e : Expr V) :
    Expr.parse (.withBuiltins stamp) (Expr.literal (.int k n) : Expr V).render ≠ .ok e := by
  intro hparse
  obtain ⟨hwords, -⟩ := scan_of_writes (writes_literal (V := V) k n)
  have hexpr := ((parse_eq_ok_iff _ _ e).mp hparse).2
  obtain ⟨before, w, after, hsplit, hw⟩ := exists_split_literalWords k n h
  rw [hwords, hsplit] at hexpr
  have hlt := numeral_lt_of_isExpr hw hexpr
  rw [numeral_toString] at hlt
  omega

/-! ## Literals read back -/

/-- The literal of an integer is parsed, and evaluates everywhere to the integer, of its own kind, exactly
if its digits are below `2 ^ 63`. Otherwise it is not parsed. -/
theorem evaluate_render_integer_iff (stamp : Nat) (k : IntKind) (n : Integer k) :
    ((∃ e : Expr V,
        Expr.parse (.withBuiltins stamp) (Expr.literal (.int k n) : Expr V).render = .ok e ∧
          ∀ (host : Host V) (env : Env V), e.evaluate host env = .ok (.int k n)) ↔
      n.val.natAbs < 2 ^ 63) ∧
    (2 ^ 63 ≤ n.val.natAbs → ∀ e : Expr V,
      Expr.parse (.withBuiltins stamp) (Expr.literal (.int k n) : Expr V).render ≠ .ok e) := by
  refine ⟨⟨?_, fun h => ?_⟩, fun h e => parse_render_great stamp h e⟩
  · rintro ⟨e, hparse, -⟩
    by_contra hgreat
    exact parse_render_great stamp (Nat.le_of_not_lt hgreat) e hparse
  · obtain ⟨e, hexpr, hevaluate⟩ := exists_isExpr_literalWords (V := V) stamp h
    obtain ⟨hwords, hstop⟩ := scan_of_writes (writes_literal (V := V) k n)
    exact ⟨e, parse_of_words hstop hwords hexpr, hevaluate⟩

/-- The greatest integer is written as a source that is not parsed. -/
theorem not_evaluate_render_integer : ∃ n : Integer .uint64,
    (Expr.literal (.int .uint64 n) : Expr .empty).render = "uint64(18446744073709551615)" ∧
      ∀ e : Expr Vocabulary.empty,
        Expr.parse (.withBuiltins 0) "uint64(18446744073709551615)" ≠ .ok e := by
  have hrender : (Expr.literal (.int .uint64 ⟨2 ^ 64 - 1, by decide⟩) : Expr .empty).render =
      "uint64(18446744073709551615)" := by decide +kernel
  refine ⟨⟨2 ^ 64 - 1, by decide⟩, hrender, fun e => ?_⟩
  rw [← hrender]
  exact parse_render_great 0 (by decide) e

end ExprLang
