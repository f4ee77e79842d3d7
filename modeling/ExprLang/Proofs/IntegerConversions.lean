import ExprLang.Proofs.ModularArithmetic

/-!
# Conversions between kinds of integers

A conversion to a kind of `w` bits is the reduction modulo `2 ^ w`, whatever the kind of the operand. The
modulus of a narrower kind divides that of a wider one. So a detour through a kind at least as wide as the
last one changes nothing, and a conversion to a kind that is no wider than the operands is a ring
homomorphism: it can be made before or after an addition, a subtraction, a multiplication or a negation.

Main statement: `builtins_conversionLaws`.
-/

namespace ExprLang

variable {V : Vocabulary} {k s t : IntKind}

/-! ## Reductions -/

theorem IntKind.size_dvd (h : t.bits ≤ k.bits) : (t.size : Int) ∣ k.size :=
  Int.natCast_dvd_natCast.mpr (Nat.pow_dvd_pow 2 h)

namespace Integer

theorem wrap_val_wrap (h : t.bits ≤ s.bits) (n : Int) : wrap t (wrap s n).val = wrap t n :=
  wrap_congr ((wrap_represents s n).of_dvd (IntKind.size_dvd h))

end Integer

theorem Arithmetic.exact_congr {op : Arithmetic} (hop : op ≠ .divide) {d m m' n n' : Int}
    (hm : m ≡ m' [ZMOD d]) (hn : n ≡ n' [ZMOD d]) : op.exact m n ≡ op.exact m' n' [ZMOD d] := by
  cases op with
  | add => exact hm.add hn
  | subtract => exact hm.sub hn
  | multiply => exact hm.mul hn
  | divide => exact absurd rfl hop

/-- Operands can be reduced before an operation that is no division, or its result after it. -/
theorem Integer.wrap_exact {op : Arithmetic} (hop : op ≠ .divide) (m n : Int) :
    wrap t (op.exact (wrap t m).val (wrap t n).val) = wrap t (op.exact m n) :=
  wrap_congr (Arithmetic.exact_congr hop (wrap_represents t m) (wrap_represents t n))

theorem Integer.wrap_neg (n : Int) : wrap t (-(wrap t n).val) = wrap t (-n) :=
  wrap_congr (wrap_represents t n).neg

/-! ## Calls -/

/-- The kind of integers that a conversion goes to. -/
def Conversion.integerKind? : Conversion → Option IntKind
  | int => some .int64
  | uint => some .uint64
  | integer k => some k
  | float32 | float64 => none

theorem Conversion.apply_int {c : Conversion} (hc : c.integerKind? = some t) (n : Integer k) :
    c.apply (.int k n : Value V) = .ok (.int t (.wrap t n.val)) := by
  cases c <;> cases hc <;> rfl

variable {host : Host V} {stamp : Nat}

theorem gives_convert_iff {c : Conversion} (hc : c.integerKind? = some t) {n : Integer k}
    {v : Value V} :
    (Builtin.convert c).Gives host stamp [.int k n] v ↔ v = .int t (.wrap t n.val) := by
  rw [Builtin.gives_ofOne_iff rfl, Conversion.apply_int hc, Except.ok.injEq, eq_comm]

theorem gives_arithmetic_of_ne_divide {op : Arithmetic} (hop : op ≠ .divide) {m n : Integer k}
    {v : Value V} :
    (Builtin.arithmetic op).Gives host stamp [.int k m, .int k n] v ↔
      v = .int k (.wrap k (op.exact m.val n.val)) := by
  rw [Builtin.gives_ofTwo_iff rfl, Arithmetic.apply_int, Arithmetic.onIntegers_of_ne_divide hop,
    Option.elim_some, Except.ok.injEq, eq_comm]

structure ConversionLaws (host : Host V) (stamp : Nat) : Prop where
  reduces : ∀ {c : Conversion} {t : IntKind}, c.integerKind? = some t →
    ∀ {k : IntKind} (n : Integer k), ∃ m : Integer t,
      (m.Represents n.val ∧ ∀ m' : Integer t, m'.Represents n.val → m' = m) ∧
        ∀ v : Value V, (Builtin.convert c).Gives host stamp [.int k n] v ↔ v = .int t m
  through : ∀ {c d : Conversion} {s t : IntKind}, c.integerKind? = some s →
    d.integerKind? = some t → t.bits ≤ s.bits → ∀ {k : IntKind} (n : Integer k) (v : Value V),
      (∃ w, (Builtin.convert c).Gives host stamp [.int k n] w ∧
        (Builtin.convert d).Gives host stamp [w] v) ↔
      (Builtin.convert d).Gives host stamp [.int k n] v
  arithmetic : ∀ {c : Conversion} {t : IntKind}, c.integerKind? = some t →
    ∀ {op : Arithmetic}, op ≠ .divide → ∀ {k : IntKind}, t.bits ≤ k.bits →
    ∀ (m n : Integer k) (v : Value V),
      (∃ w, (Builtin.arithmetic op).Gives host stamp [.int k m, .int k n] w ∧
        (Builtin.convert c).Gives host stamp [w] v) ↔
      ∃ m' n', (Builtin.convert c).Gives host stamp [.int k m] m' ∧
        (Builtin.convert c).Gives host stamp [.int k n] n' ∧
        (Builtin.arithmetic op).Gives host stamp [m', n'] v
  negate : ∀ {c : Conversion} {t : IntKind}, c.integerKind? = some t →
    ∀ {k : IntKind}, t.bits ≤ k.bits → ∀ (n : Integer k) (v : Value V),
      (∃ w, Builtin.negate.Gives host stamp [.int k n] w ∧
        (Builtin.convert c).Gives host stamp [w] v) ↔
      ∃ w, (Builtin.convert c).Gives host stamp [.int k n] w ∧
        Builtin.negate.Gives host stamp [w] v

theorem builtins_conversionLaws (host : Host V) (stamp : Nat) : ConversionLaws host stamp where
  reduces {_ t} hc _ n := by
    refine ⟨.wrap t n.val, ⟨Integer.wrap_represents t n.val, ?_⟩, fun _ => gives_convert_iff hc⟩
    exact fun _ h => Integer.represents_iff.mp h
  through hc hd hbits _ n v := by
    simp only [gives_convert_iff hc, gives_convert_iff hd, exists_eq_left,
      Integer.wrap_val_wrap hbits]
  arithmetic hc _ hop _ hbits m n v := by
    simp only [gives_convert_iff hc, exists_and_left, exists_eq_left,
      gives_arithmetic_of_ne_divide hop, Integer.wrap_val_wrap hbits, Integer.wrap_exact hop]
  negate hc _ hbits n v := by
    simp only [gives_convert_iff hc, exists_eq_left, gives_negate_iff, Integer.neg,
      Integer.wrap_val_wrap hbits, Integer.wrap_neg]

/-- A conversion to a wider kind does not commute with negation. -/
example : (Integer.wrap .int16 (Integer.wrap .uint8 1).neg.val).val = 255 ∧
    (Integer.wrap .int16 (Integer.wrap .uint8 1).val).neg.val = -1 := by decide

end ExprLang
