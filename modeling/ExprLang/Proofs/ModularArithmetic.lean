import ExprLang.Proofs.BuiltinCalls
import Mathlib.Data.Int.ModEq

/-!
# Arithmetic modulo the size of a kind

Arithmetic combines two numbers of one kind and nothing else. A kind of `w` bits has exactly one number
congruent to an integer modulo `2 ^ w`, and that number of the exact result is what arithmetic on integers
gives. A quotient is truncated toward zero and is never reduced: where it does not exist or is not of the
kind, there is no result.

Main statement: `builtins_arithmeticLaws`.
-/

namespace ExprLang

variable {V : Vocabulary} {k : IntKind}

/-! ## Representatives -/

namespace Integer

/-- The integer of the kind is congruent to `n` modulo the size of the kind. -/
def Represents (a : Integer k) (n : Int) : Prop := a.val ≡ n [ZMOD k.size]

theorem wrap_represents (k : IntKind) (n : Int) : (wrap k n).Represents n := by
  have hmod : (n - k.lower) % k.size ≡ n - k.lower [ZMOD k.size] := Int.mod_modEq _ _
  calc
    (wrap k n).val ≡ k.lower + (n - k.lower) [ZMOD k.size] := hmod.add_left k.lower
    _ = n := by omega

theorem wrap_congr {m n : Int} (h : m ≡ n [ZMOD k.size]) : wrap k m = wrap k n := by
  have hmod : (m - k.lower) % k.size = (n - k.lower) % k.size := h.sub_right k.lower
  ext
  simp only [wrap, hmod]

theorem represents_iff {a : Integer k} {n : Int} : a.Represents n ↔ a = wrap k n := by
  constructor
  · intro h
    rw [← wrap_congr h, wrap_val]
  · rintro rfl
    exact wrap_represents k n

theorem existsUnique_represents (k : IntKind) (n : Int) : ∃! a : Integer k, a.Represents n :=
  ⟨wrap k n, wrap_represents k n, fun _ h => represents_iff.mp h⟩

theorem sub_eq_add_neg (a b : Integer k) : a.sub b = a.add b.neg := by
  have hneg : -b.val ≡ b.neg.val [ZMOD k.size] := (wrap_represents k (-b.val)).symm
  exact wrap_congr (hneg.add_left a.val)

end Integer

/-! ## Quotients -/

/-- A signed kind is balanced around zero, any other starts at zero. -/
theorem IntKind.lower_upper (k : IntKind) :
    (k.isSigned = true ∧ k.lower < 0 ∧ k.upper = -k.lower) ∨ (k.isSigned = false ∧ k.lower = 0) := by
  cases k <;> decide

/-- Only one quotient is too great. -/
theorem IntKind.holds_tdiv_iff (m : Integer k) {n : Integer k} (hn : n.val ≠ 0) :
    k.Holds (m.val.tdiv n.val) ↔ ¬ (k.isSigned = true ∧ m.val = k.lower ∧ n.val = -1) := by
  obtain ⟨hlower, hupper⟩ := m.holds
  have hlower' := n.holds.1
  unfold Holds
  by_cases hone : n.val.natAbs = 1
  · rcases Int.natAbs_eq_iff.mp hone with hval | hval
    · rw [hval, Int.natCast_one, Int.tdiv_one]
      omega
    · -- A kind with a number below zero is signed.
      rw [hval, Int.natCast_one, Int.tdiv_neg, Int.tdiv_one]
      rcases k.lower_upper with ⟨hsigned, hneg, hbalanced⟩ | ⟨-, hzero⟩
      · simp only [hsigned, true_and, and_true]
        omega
      · omega
  · have hhalf : (m.val.tdiv n.val).natAbs ≤ m.val.natAbs / 2 := by
      rw [Int.natAbs_tdiv]
      exact Nat.div_le_div_left (by omega) (by decide)
    rcases k.lower_upper with ⟨-, hneg, hbalanced⟩ | ⟨-, hzero⟩
    · omega
    · have hnonneg : 0 ≤ m.val.tdiv n.val := Int.tdiv_nonneg (by omega) (by omega)
      omega

/-- What truncation toward zero means, said of the remainder. -/
theorem eq_tdiv_iff {m n q : Int} :
    n ≠ 0 ∧ q = m.tdiv n ↔
      ∃ r : Int, m = q * n + r ∧ r.natAbs < n.natAbs ∧ (r = 0 ∨ r.sign = m.sign) := by
  constructor
  · rintro ⟨hn, rfl⟩
    refine ⟨m.tmod n, (Int.tdiv_mul_add_tmod m n).symm, ?_, ?_⟩
    · rw [Int.natAbs_tmod]
      exact Nat.mod_lt _ (Int.natAbs_pos.mpr hn)
    · rw [Int.sign_tmod]
      by_cases hdvd : n ∣ m
      · exact .inl (Int.tmod_eq_zero_of_dvd hdvd)
      · exact .inr (if_neg hdvd)
  · rintro ⟨r, hm, hr, hsign⟩
    have hn : n ≠ 0 := by omega
    have hsum : r + n * q = m := by
      rw [hm, Int.mul_comm n q, Int.add_comm]
    refine ⟨hn, ?_⟩
    rcases Int.le_total 0 m with hm₀ | hm₀
    · have hr₀ : 0 ≤ r := by
        rcases hsign with rfl | hsign
        · exact Int.le_refl 0
        · rwa [← Int.sign_nonneg_iff, hsign, Int.sign_nonneg_iff]
      exact ((Int.tdiv_tmod_unique hm₀ hn).mpr ⟨hsum, hr₀, by omega⟩).1.symm
    · have hr₀ : r ≤ 0 := by
        rcases hsign with rfl | hsign
        · exact Int.le_refl 0
        · rwa [← Int.sign_nonpos_iff, hsign, Int.sign_nonpos_iff]
      exact ((Int.tdiv_tmod_unique' hm₀ hn).mpr ⟨hsum, by omega, hr₀⟩).1.symm

/-! ## Operations -/

namespace Arithmetic

/-- The operation on all integers; a quotient is truncated toward zero. -/
def exact : Arithmetic → Int → Int → Int
  | add, m, n => m + n
  | subtract, m, n => m - n
  | multiply, m, n => m * n
  | divide, m, n => m.tdiv n

/-- A division is neither by zero nor that of the least number by -1. -/
def Admits (op : Arithmetic) (m n : Integer k) : Prop :=
  op = .divide → n.val ≠ 0 ∧ ¬ (k.isSigned = true ∧ m.val = k.lower ∧ n.val = -1)

/-- The operands are numbers of one kind, and a division of integers is admitted. -/
inductive Combines (op : Arithmetic) : Value V → Value V → Prop where
  | int {k : IntKind} {m n : Integer k} : op.Admits m n → Combines op (.int k m) (.int k n)
  | float32 (x y : Binary .single) : Combines op (.float32 x) (.float32 y)
  | float64 (x y : Binary .double) : Combines op (.float64 x) (.float64 y)

theorem admits_divide_iff {m n : Integer k} :
    divide.Admits m n ↔ n.val ≠ 0 ∧ k.Holds (m.val.tdiv n.val) := by
  unfold Admits
  rw [imp_iff_right rfl]
  exact and_congr_right fun hn => (IntKind.holds_tdiv_iff m hn).symm

theorem div?_eq_some_iff {m n c : Integer k} :
    m.div? n = some c ↔ n.val ≠ 0 ∧ c.val = m.val.tdiv n.val := by
  rw [Integer.div?, Option.ite_none_left_eq_some, Integer.ofInt?_eq_some_iff]

theorem onIntegers_of_ne_divide {op : Arithmetic} (hop : op ≠ .divide) (m n : Integer k) :
    op.onIntegers m n = some (.wrap k (op.exact m.val n.val)) := by
  cases op with
  | divide => exact absurd rfl hop
  | _ => rfl

theorem onIntegers_eq_some_iff {op : Arithmetic} {m n c : Integer k} :
    op.onIntegers m n = some c ↔ op.Admits m n ∧ c.Represents (op.exact m.val n.val) := by
  by_cases hop : op = .divide
  · -- A quotient that the kind holds is its own representative.
    subst hop
    rw [onIntegers, div?_eq_some_iff, admits_divide_iff, and_assoc]
    refine and_congr_right fun _ => ⟨fun hc => ?_, fun ⟨hholds, hc⟩ => ?_⟩
    · rw [exact, ← hc]
      exact ⟨c.holds, Int.ModEq.refl _⟩
    · rw [Integer.represents_iff.mp hc]
      exact Integer.val_wrap_eq_iff.mpr hholds
  · rw [onIntegers_of_ne_divide hop, Option.some.injEq, eq_comm, Integer.represents_iff]
    exact (and_iff_right fun h => absurd h hop).symm

theorem apply_int (op : Arithmetic) (m n : Integer k) :
    op.apply (.int k m : Value V) (.int k n) =
      (op.onIntegers m n).elim (.error (op.name ++ ": integer division by zero or overflow"))
        fun c => .ok (.int k c) := by
  simp only [apply, dite_true]
  cases op.onIntegers m n <;> rfl

theorem apply_int_eq_ok_iff {op : Arithmetic} {m n : Integer k} {v : Value V} :
    op.apply (.int k m) (.int k n) = .ok v ↔ ∃ c, op.onIntegers m n = some c ∧ v = .int k c := by
  rw [apply_int]
  cases op.onIntegers m n <;> simp [eq_comm]

theorem apply_subtract_int (m n : Integer k) :
    subtract.apply (.int k m : Value V) (.int k n) = add.apply (.int k m) (.int k n.neg) := by
  rw [apply_int, apply_int, onIntegers, onIntegers, Integer.sub_eq_add_neg]
  rfl

theorem combines_int_iff {op : Arithmetic} {m n : Integer k} :
    op.Combines (.int k m : Value V) (.int k n) ↔ ∃ c, op.onIntegers m n = some c := by
  simp only [onIntegers_eq_some_iff]
  constructor
  · rintro ⟨hadmits⟩
    exact ⟨_, hadmits, Integer.wrap_represents k _⟩
  · rintro ⟨c, hadmits, -⟩
    exact .int hadmits

theorem exists_apply_eq_ok_iff {op : Arithmetic} {a b : Value V} :
    (∃ v, op.apply a b = .ok v) ↔ op.Combines a b := by
  constructor
  · rintro ⟨v, hv⟩
    unfold apply at hv
    split at hv
    · rename_i k m l n
      by_cases hkind : l = k
      · subst hkind
        obtain ⟨c, hc, -⟩ := apply_int_eq_ok_iff.mp hv
        exact combines_int_iff.mpr ⟨c, hc⟩
      · rw [dif_neg hkind] at hv
        cases hv
    · exact .float32 _ _
    · exact .float64 _ _
    · cases hv
  · rintro (hadmits | ⟨x, y⟩ | ⟨x, y⟩)
    · obtain ⟨c, hc⟩ := combines_int_iff.mp (.int (V := V) hadmits)
      exact ⟨.int _ c, apply_int_eq_ok_iff.mpr ⟨c, hc, rfl⟩⟩
    · exact ⟨_, rfl⟩
    · exact ⟨_, rfl⟩

end Arithmetic

/-! ## Calls -/

variable {host : Host V} {stamp : Nat}

theorem gives_arithmetic_iff {op : Arithmetic} {m n : Integer k} {v : Value V} :
    (Builtin.arithmetic op).Gives host stamp [.int k m, .int k n] v ↔
      op.Admits m n ∧ ∃ c : Integer k, v = .int k c ∧ c.Represents (op.exact m.val n.val) := by
  rw [Builtin.gives_ofTwo_iff rfl, Arithmetic.apply_int_eq_ok_iff]
  simp only [Arithmetic.onIntegers_eq_some_iff]
  constructor
  · rintro ⟨c, ⟨hadmits, hc⟩, rfl⟩
    exact ⟨hadmits, c, rfl, hc⟩
  · rintro ⟨hadmits, c, rfl, hc⟩
    exact ⟨c, ⟨hadmits, hc⟩, rfl⟩

theorem gives_divide_iff {m n q : Integer k} :
    (Builtin.arithmetic .divide).Gives host stamp [.int k m, .int k n] (.int k q) ↔
      n.val ≠ 0 ∧ q.val = m.val.tdiv n.val := by
  rw [Builtin.gives_ofTwo_iff rfl, Arithmetic.apply_int_eq_ok_iff, ← Arithmetic.div?_eq_some_iff]
  constructor
  · rintro ⟨c, hc, heq⟩
    cases heq
    exact hc
  · intro hq
    exact ⟨q, hq, rfl⟩

theorem gives_negate_iff {m : Integer k} {v : Value V} :
    Builtin.negate.Gives host stamp [.int k m] v ↔ v = .int k m.neg := by
  rw [Builtin.gives_ofOne_iff rfl, Value.negate, Except.ok.injEq, eq_comm]

structure ArithmeticLaws (host : Host V) (stamp : Nat) : Prop where
  combines : ∀ (op : Arithmetic) (a b : Value V),
    (∃ results, ((Builtin.arithmetic op).toFunction stamp).invoke host [a, b] = .ok results) ↔
      op.Combines a b
  representative : ∀ (op : Arithmetic) {k : IntKind} (m n : Integer k) (v : Value V),
    (Builtin.arithmetic op).Gives host stamp [.int k m, .int k n] v ↔
      op.Admits m n ∧ ∃ c : Integer k, v = .int k c ∧ c.Represents (op.exact m.val n.val)
  unique : ∀ (k : IntKind) (n : Int), ∃! c : Integer k, c.Represents n
  truncated : ∀ {k : IntKind} (m n q : Integer k),
    (Builtin.arithmetic .divide).Gives host stamp [.int k m, .int k n] (.int k q) ↔
      ∃ r : Int, m.val = q.val * n.val + r ∧ r.natAbs < n.val.natAbs ∧
        (r = 0 ∨ r.sign = m.val.sign)
  negated : ∀ {k : IntKind} (m : Integer k) (v : Value V),
    Builtin.negate.Gives host stamp [.int k m] v ↔
      ∃ c : Integer k, v = .int k c ∧ c.Represents (-m.val)
  subtracted : ∀ {k : IntKind} (m n : Integer k) (v : Value V),
    (Builtin.arithmetic .subtract).Gives host stamp [.int k m, .int k n] v ↔
      ∃ w, Builtin.negate.Gives host stamp [.int k n] w ∧
        (Builtin.arithmetic .add).Gives host stamp [.int k m, w] v

theorem builtins_arithmeticLaws (host : Host V) (stamp : Nat) : ArithmeticLaws host stamp where
  combines op a b := by
    rw [← Arithmetic.exists_apply_eq_ok_iff, Builtin.invoke_ofTwo rfl]
    simp
  representative _ _ _ _ _ := gives_arithmetic_iff
  unique := Integer.existsUnique_represents
  truncated m n q := by
    rw [gives_divide_iff]
    exact eq_tdiv_iff
  negated m v := by
    simp only [gives_negate_iff, Integer.represents_iff, exists_eq_right]
    rfl
  subtracted m n v := by
    simp only [gives_negate_iff, exists_eq_left]
    rw [Builtin.gives_ofTwo_iff rfl, Builtin.gives_ofTwo_iff rfl, Arithmetic.apply_subtract_int]

/-- The least number of a signed kind is its own negative. -/
example : (Integer.wrap .int8 (-128)).neg.val = -128 := by decide

end ExprLang
