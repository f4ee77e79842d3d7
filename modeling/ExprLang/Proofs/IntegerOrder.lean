import ExprLang.Proofs.BuiltinCalls
import ExprLang.Proofs.Rounding

/-!
# Comparing integers

Integers are compared by the doubles nearest to them, while equality looks at the integers. As rounding
keeps the order, a comparison never turns two integers around. But where two integers have one nearest
double, they are neither before nor after each other, though they are not equal. So the comparisons are
those of the integers exactly where the doubles tell the integers apart. The doubles do so within
`2 ^ 53` on both sides of zero, hence for all kinds of at most 32 bits, and beyond that they do not.

Main statements: `comparesAsIntegers_iff`, `not_comparesAsIntegers`.
-/

namespace ExprLang

variable {f : Format}

/-! ## The place of an integer -/

namespace Format

/-- How many units the number nearest to a whole number has; infinity stands just outside. -/
def unitsOf (f : Format) (n : Nat) : Nat := min (f.nearest (n * 2 ^ f.scale) 1) (2 ^ f.span)

/-- The place of the number nearest to an integer. -/
def place (f : Format) (n : Int) : Int := if n < 0 then -f.unitsOf n.natAbs else f.unitsOf n.natAbs

theorem unitsOf_mono (hprecision : 0 < f.precision) {m n : Nat} (h : m ≤ n) :
    f.unitsOf m ≤ f.unitsOf n := by
  have hnearest : f.nearest (m * 2 ^ f.scale) 1 ≤ f.nearest (n * 2 ^ f.scale) 1 :=
    nearest_mono hprecision (Nat.mul_le_mul_right _ h) 1
  unfold unitsOf
  omega

theorem place_mono (hprecision : 0 < f.precision) {a b : Int} (h : a ≤ b) :
    f.place a ≤ f.place b := by
  unfold place
  by_cases ha : a < 0
  · by_cases hb : b < 0
    · -- Both are negative: the order of the counts is the other way round.
      have hunits : f.unitsOf b.natAbs ≤ f.unitsOf a.natAbs := unitsOf_mono hprecision (by omega)
      rw [if_pos ha, if_pos hb]
      omega
    · rw [if_pos ha, if_neg hb]
      omega
  · have hb : ¬ b < 0 := by omega
    have hunits : f.unitsOf a.natAbs ≤ f.unitsOf b.natAbs := unitsOf_mono hprecision (by omega)
    rw [if_neg ha, if_neg hb]
    omega

theorem represents_whole (hspan : f.precision + f.scale < f.span) {m : Nat}
    (h : m ≤ 2 ^ f.precision) : f.Represents (m * 2 ^ f.scale) := by
  refine ⟨?_, m, f.scale, h, rfl⟩
  calc
    m * 2 ^ f.scale ≤ 2 ^ f.precision * 2 ^ f.scale := Nat.mul_le_mul_right _ h
    _ = 2 ^ (f.precision + f.scale) := (Nat.pow_add 2 _ _).symm
    _ < 2 ^ f.span := Nat.pow_lt_pow_right (by decide) hspan

theorem place_of_le (hprecision : 0 < f.precision) (hspan : f.precision + f.scale < f.span)
    {n : Int} (h : n.natAbs ≤ 2 ^ f.precision) : f.place n = n * (2 ^ f.scale : Nat) := by
  have hrepresents : f.Represents (n.natAbs * 2 ^ f.scale) := represents_whole hspan h
  have hunits : f.unitsOf n.natAbs = n.natAbs * 2 ^ f.scale := by
    unfold unitsOf
    rw [nearest_of_represents hprecision hrepresents]
    exact Nat.min_eq_left (Nat.le_of_lt hrepresents.1)
  unfold place
  rw [hunits, Int.natCast_mul]
  split
  · have hneg : -(n.natAbs : Int) = n := by omega
    rw [← Int.neg_mul, hneg]
  · have hpos : (n.natAbs : Int) = n := by omega
    rw [hpos]

end Format

namespace Binary

theorem place?_round (negative : Bool) (num den : Nat) :
    let units : Nat := min (f.nearest num den) (2 ^ f.span)
    (round negative num den : Binary f).place? = some (if negative then -units else units : Int) := by
  intro units
  unfold round
  split
  · rename_i h
    have hunits : units = f.nearest num den := Nat.min_eq_left (Nat.le_of_lt h)
    rw [hunits]
    rfl
  · rename_i h
    have hunits : units = 2 ^ f.span := Nat.min_eq_right (Nat.le_of_not_lt h)
    rw [hunits]
    rfl

theorem place?_ofInt (n : Int) : (ofInt n : Binary f).place? = some (f.place n) := by
  rw [ofInt, place?_round]
  simp only [Format.place, Format.unitsOf, decide_eq_true_eq]

theorem equal_ofInt_iff (a b : Int) :
    (ofInt a : Binary f).equal (ofInt b) = true ↔ f.place a = f.place b := by
  simp [equal, compare?, place?_ofInt]

/-- Rounded integers are equal or as the integers are. -/
theorem compare?_ofInt (hprecision : 0 < f.precision) (a b : Int) :
    (ofInt a : Binary f).compare? (ofInt b) =
      some (if (ofInt a : Binary f).equal (ofInt b) then .eq else compare a b) := by
  simp only [compare?, place?_ofInt, equal_ofInt_iff]
  by_cases hplace : f.place a = f.place b
  · rw [if_pos hplace, Int.compare_eq_eq.mpr hplace]
  · rw [if_neg hplace]
    rcases Int.lt_trichotomy a b with hlt | heq | hlt
    · have hle : f.place a ≤ f.place b := Format.place_mono hprecision (Int.le_of_lt hlt)
      rw [Int.compare_eq_lt.mpr hlt, Int.compare_eq_lt.mpr (by omega)]
    · exact absurd (congrArg f.place heq) hplace
    · have hle : f.place b ≤ f.place a := Format.place_mono hprecision (Int.le_of_lt hlt)
      rw [Int.compare_eq_gt.mpr hlt, Int.compare_eq_gt.mpr (by omega)]

end Binary

/-! ## Integers of a kind -/

variable {V : Vocabulary} {host : Host V} {stamp : Nat} {k : IntKind}

/-- Different integers have different doubles. -/
def Integer.Apart (a b : Integer k) : Prop :=
  (Binary.ofInt a.val : Binary .double).equal (.ofInt b.val) = true → a = b

theorem Integer.apart_of_le {a b : Integer k} (ha : a.val.natAbs ≤ 2 ^ 53)
    (hb : b.val.natAbs ≤ 2 ^ 53) : a.Apart b := by
  intro hequal
  rw [Binary.equal_ofInt_iff, Format.place_of_le (by decide) (by decide) ha,
    Format.place_of_le (by decide) (by decide) hb] at hequal
  have hscale : ((2 ^ Format.double.scale : Nat) : Int) ≠ 0 :=
    Int.natCast_ne_zero.mpr (Nat.ne_of_gt (Nat.two_pow_pos _))
  exact Integer.ext (Int.eq_of_mul_eq_mul_right hscale hequal)

theorem Integer.natAbs_le_of_bits (hk : k.bits ≤ 32) (a : Integer k) : a.val.natAbs ≤ 2 ^ 53 := by
  obtain ⟨hlower, hupper⟩ := a.holds
  cases k <;> simp [IntKind.lower, IntKind.upper, IntKind.size, IntKind.bits, IntKind.isSigned]
    at hk hlower hupper <;> omega

/-- How a comparison orders integers. -/
def Comparison.Relates : Comparison → Int → Int → Prop
  | greaterThan, a, b => a > b
  | greaterThanEqual, a, b => a ≥ b
  | lessThan, a, b => a < b
  | lessThanEqual, a, b => a ≤ b

instance (c : Comparison) (a b : Int) : Decidable (c.Relates a b) :=
  match c with
  | .greaterThan => inferInstanceAs (Decidable (a > b))
  | .greaterThanEqual => inferInstanceAs (Decidable (a ≥ b))
  | .lessThan => inferInstanceAs (Decidable (a < b))
  | .lessThanEqual => inferInstanceAs (Decidable (a ≤ b))

theorem Comparison.holds_compare (c : Comparison) (a b : Int) :
    c.holds (compare a b) = decide (c.Relates a b) := by
  rw [Bool.eq_iff_iff, decide_eq_true_iff]
  cases c with
  | greaterThan => exact beq_iff_eq.trans Int.compare_eq_gt
  | greaterThanEqual => exact bne_iff_ne.trans Int.compare_ne_lt
  | lessThan => exact beq_iff_eq.trans Int.compare_eq_lt
  | lessThanEqual => exact bne_iff_ne.trans Int.compare_ne_gt

/-- A call of a built-in function with two integers of a kind. -/
def Builtin.onIntegers (host : Host V) (stamp : Nat) (b : Builtin) (x y : Integer k) :
    Except InvokeError (List (Value V)) :=
  (b.toFunction stamp).invoke host [.int k x, .int k y]

theorem Comparison.order?_int (c : Comparison) (a b : Integer k) :
    c.order? (.int k a : Value V) (.int k b) =
      .ok (some (if (Binary.ofInt a.val : Binary .double).equal (.ofInt b.val) then .eq
        else compare a.val b.val)) := by
  rw [← Binary.compare?_ofInt (by decide)]
  simp [order?, Value.toString?, Value.typeName, Value.toDouble?]

/-- Two integers compare as they are, or as equal if they have one double. -/
theorem onIntegers_compare (c : Comparison) (a b : Integer k) :
    (Builtin.compare c).onIntegers host stamp a b =
      .ok [.bool (c.holds (if (Binary.ofInt a.val : Binary .double).equal (.ofInt b.val) then .eq
        else compare a.val b.val))] := by
  have hcall : (Builtin.compare c).onIntegers host stamp a b =
      (Outcome.ofExcept (c.apply (.int k a : Value V) (.int k b))).toExcept :=
    Builtin.invoke_ofTwo rfl _ _
  rw [hcall, Comparison.apply, Comparison.order?_int]
  rfl

theorem onIntegers_equals (a b : Integer k) :
    Builtin.equals.onIntegers host stamp a b = .ok [.bool (decide (a.val = b.val))] := by
  have hcall : Builtin.equals.onIntegers host stamp a b =
      (Outcome.ofExcept (.ok (.bool ((.int k a : Value V) == .int k b)))).toExcept :=
    Builtin.invoke_ofTwo (b := .equals) (f := fun x y => .ok (.bool (x == y))) rfl _ _
  have hequal : ((.int k a : Value V) == .int k b) = decide (a.val = b.val) := by
    show (k == k && a.val == b.val) = decide (a.val = b.val)
    rw [beq_self_eq_true, Bool.true_and, Bool.beq_eq_decide_eq]
  rw [hcall, hequal]
  rfl

/-- The function answers that it holds of two integers of a kind. -/
def Builtin.HoldsOf (host : Host V) (stamp : Nat) (b : Builtin) (x y : Integer k) : Prop :=
  b.onIntegers host stamp x y = .ok [.bool true]

/-- The comparisons of two integers answer what holds of the integers. -/
structure ComparesAsIntegers (host : Host V) (stamp : Nat) (a b : Integer k) : Prop where
  answer : ∀ c : Comparison, (Builtin.compare c).onIntegers host stamp a b =
    .ok [.bool (decide (c.Relates a.val b.val))]
  exactlyOne :
    let lessThan := (Builtin.compare .lessThan).HoldsOf host stamp a b
    let equals := Builtin.equals.HoldsOf host stamp a b
    let greaterThan := (Builtin.compare .greaterThan).HoldsOf host stamp a b
    (lessThan ∧ ¬ equals ∧ ¬ greaterThan) ∨ (¬ lessThan ∧ equals ∧ ¬ greaterThan) ∨
      (¬ lessThan ∧ ¬ equals ∧ greaterThan)
  lessThanEqual_iff : (Builtin.compare .lessThanEqual).HoldsOf host stamp a b ↔
    (Builtin.compare .lessThan).HoldsOf host stamp a b ∨ Builtin.equals.HoldsOf host stamp a b

theorem holdsOf_iff {b : Builtin} {x y : Integer k} {p : Prop} [Decidable p]
    (h : b.onIntegers host stamp x y = .ok [.bool (decide p)]) : b.HoldsOf host stamp x y ↔ p := by
  unfold Builtin.HoldsOf
  rw [h]
  simp

theorem comparesAsIntegers_of_answer {a b : Integer k}
    (h : ∀ c : Comparison, (Builtin.compare c).onIntegers host stamp a b =
      .ok [.bool (decide (c.Relates a.val b.val))]) : ComparesAsIntegers host stamp a b := by
  have hequals : Builtin.equals.HoldsOf host stamp a b ↔ a.val = b.val :=
    holdsOf_iff (onIntegers_equals a b)
  have hlt : (Builtin.compare .lessThan).HoldsOf host stamp a b ↔ a.val < b.val :=
    holdsOf_iff (p := a.val < b.val) (h .lessThan)
  have hgt : (Builtin.compare .greaterThan).HoldsOf host stamp a b ↔ a.val > b.val :=
    holdsOf_iff (p := a.val > b.val) (h .greaterThan)
  have hle : (Builtin.compare .lessThanEqual).HoldsOf host stamp a b ↔ a.val ≤ b.val :=
    holdsOf_iff (p := a.val ≤ b.val) (h .lessThanEqual)
  refine ⟨h, ?_, ?_⟩
  · simp only [hequals, hlt, hgt]
    omega
  · rw [hequals, hlt, hle]
    omega

/-- Comparing integers is exact up to doubles that are equal: the answers are those of the integers
exactly where the doubles tell the integers apart. -/
theorem comparesAsIntegers_iff (host : Host V) (stamp : Nat) (a b : Integer k) :
    (∀ c : Comparison, (Builtin.compare c).onIntegers host stamp a b =
      .ok [.bool (c.holds (if (Binary.ofInt a.val : Binary .double).equal (.ofInt b.val) then .eq
        else compare a.val b.val))]) ∧
    (ComparesAsIntegers host stamp a b ↔ a.Apart b) ∧
    (k.bits ≤ 32 ∨ (a.val.natAbs ≤ 2 ^ 53 ∧ b.val.natAbs ≤ 2 ^ 53) → a.Apart b) := by
  refine ⟨fun c => onIntegers_compare c a b, ⟨fun h hequal => ?_, fun hapart => ?_⟩, ?_⟩
  · -- Neither before nor after: only equality is left.
    have hnot : ∀ c : Comparison, c.holds .eq = false → ¬ c.Relates a.val b.val := by
      intro c hc hrelates
      have hanswer := (onIntegers_compare c a b).symm.trans (h.answer c)
      simp [hequal, hc, hrelates] at hanswer
    have hlt : ¬ a.val < b.val := hnot .lessThan rfl
    have hgt : ¬ a.val > b.val := hnot .greaterThan rfl
    exact Integer.ext (by omega)
  · refine comparesAsIntegers_of_answer fun c => ?_
    rw [onIntegers_compare, ← c.holds_compare]
    split
    · rename_i hequal
      rw [hapart hequal, Int.compare_eq_eq.mpr rfl]
    · rfl
  · rintro (hbits | ⟨ha, hb⟩)
    · exact Integer.apart_of_le (a.natAbs_le_of_bits hbits) (b.natAbs_le_of_bits hbits)
    · exact Integer.apart_of_le ha hb

def twoPow53 : Integer .int64 := ⟨2 ^ 53, by decide⟩

def afterTwoPow53 : Integer .int64 := ⟨2 ^ 53 + 1, by decide⟩

/-- Beyond `2 ^ 53` a smaller integer can be neither before, nor equal to, nor after a larger one. -/
theorem not_comparesAsIntegers :
    twoPow53.val < afterTwoPow53.val ∧
      ¬ (Builtin.compare .lessThan).HoldsOf Host.empty 0 twoPow53 afterTwoPow53 ∧
      ¬ Builtin.equals.HoldsOf Host.empty 0 twoPow53 afterTwoPow53 ∧
      ¬ (Builtin.compare .greaterThan).HoldsOf Host.empty 0 twoPow53 afterTwoPow53 ∧
      ¬ ComparesAsIntegers Host.empty 0 twoPow53 afterTwoPow53 := by
  have hequal : (Binary.ofInt twoPow53.val : Binary .double).equal (.ofInt afterTwoPow53.val) =
      true := by
    decide +kernel
  have hnot : ∀ c : Comparison, c.holds .eq = false →
      ¬ (Builtin.compare c).HoldsOf Host.empty 0 twoPow53 afterTwoPow53 := by
    intro c hc hholds
    have hanswer := (onIntegers_compare c twoPow53 afterTwoPow53).symm.trans hholds
    simp [hequal, hc] at hanswer
  have hlt := hnot .lessThan rfl
  have hne : ¬ Builtin.equals.HoldsOf Host.empty 0 twoPow53 afterTwoPow53 := by
    rw [holdsOf_iff (onIntegers_equals twoPow53 afterTwoPow53)]
    decide
  have hgt := hnot .greaterThan rfl
  refine ⟨by decide, hlt, hne, hgt, fun h => ?_⟩
  rcases h.exactlyOne with ⟨h, -⟩ | ⟨-, h, -⟩ | ⟨-, -, h⟩
  · exact hlt h
  · exact hne h
  · exact hgt h

end ExprLang
