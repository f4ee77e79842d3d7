/-! # Integers of a kind

Each kind of integer holds `2 ^ bits` neighbouring numbers. Arithmetic reduces its exact result to the
number of the kind that is congruent to it.
-/

namespace ExprLang

-- A power of natural numbers is the one of the core library, also where Mathlib offers another.
attribute [instance (2000), default_instance 20000] instPowNat

inductive IntKind where
  | int8
  | int16
  | int32
  | int64
  | uint8
  | uint16
  | uint32
  | uint64
deriving DecidableEq, Repr

namespace IntKind

def bits : IntKind → Nat
  | .int8 | .uint8 => 8
  | .int16 | .uint16 => 16
  | .int32 | .uint32 => 32
  | .int64 | .uint64 => 64

def isSigned : IntKind → Bool
  | .int8 | .int16 | .int32 | .int64 => true
  | .uint8 | .uint16 | .uint32 | .uint64 => false

def name : IntKind → String
  | .int8 => "int8"
  | .int16 => "int16"
  | .int32 => "int32"
  | .int64 => "int64"
  | .uint8 => "uint8"
  | .uint16 => "uint16"
  | .uint32 => "uint32"
  | .uint64 => "uint64"

/-- How many numbers the kind holds. -/
def size (k : IntKind) : Nat := 2 ^ k.bits

/-- The least number of the kind. -/
def lower (k : IntKind) : Int := if k.isSigned then -(2 ^ (k.bits - 1) : Nat) else 0

/-- The first number above the kind. -/
def upper (k : IntKind) : Int := k.lower + k.size

def Holds (k : IntKind) (n : Int) : Prop := k.lower ≤ n ∧ n < k.upper

instance (k : IntKind) (n : Int) : Decidable (k.Holds n) := inferInstanceAs (Decidable (_ ∧ _))

theorem size_pos (k : IntKind) : 0 < k.size := Nat.two_pow_pos _

theorem lower_lt_upper (k : IntKind) : k.lower < k.upper := by
  have := k.size_pos
  unfold upper
  omega

end IntKind

structure Integer (k : IntKind) where
  val : Int
  holds : k.Holds val
deriving DecidableEq

namespace Integer

variable {k : IntKind}

@[ext]
theorem ext {a b : Integer k} (h : a.val = b.val) : a = b := by
  cases a; cases b; cases h; rfl

def ofInt? (k : IntKind) (n : Int) : Option (Integer k) :=
  if h : k.Holds n then some ⟨n, h⟩ else none

theorem ofInt?_eq_some_iff {n : Int} {a : Integer k} : ofInt? k n = some a ↔ a.val = n := by
  unfold ofInt?
  split
  · rw [Option.some.injEq]
    exact ⟨fun h => h ▸ rfl, fun h => ext h.symm⟩
  · rename_i hholds
    constructor
    · intro h
      cases h
    · rintro rfl
      exact absurd a.holds hholds

/-- The number of the kind that is congruent to `n`. -/
def wrap (k : IntKind) (n : Int) : Integer k where
  val := k.lower + (n - k.lower) % k.size
  holds := by
    have h := k.size_pos
    have h₁ := Int.emod_nonneg (n - k.lower) (b := k.size) (by omega)
    have h₂ := Int.emod_lt_of_pos (n - k.lower) (b := k.size) (by omega)
    unfold IntKind.Holds IntKind.upper
    omega

/-- The number of the kind that is nearest to `n`. -/
def clamp (k : IntKind) (n : Int) : Integer k :=
  if h : k.Holds n then ⟨n, h⟩
  else if n < k.lower then ⟨k.lower, Int.le_refl _, k.lower_lt_upper⟩
  else ⟨k.upper - 1, by have := k.lower_lt_upper; unfold IntKind.Holds; omega⟩

theorem wrap_val (a : Integer k) : wrap k a.val = a := by
  have h := a.holds
  unfold IntKind.Holds IntKind.upper at h
  ext
  simp only [wrap]
  rw [Int.emod_eq_of_lt (by omega) (by omega)]
  omega

theorem val_wrap_eq_iff {n : Int} : (wrap k n).val = n ↔ k.Holds n := by
  constructor
  · intro h
    exact h ▸ (wrap k n).holds
  · intro h
    exact congrArg Integer.val (wrap_val ⟨n, h⟩)

def add (a b : Integer k) : Integer k := wrap k (a.val + b.val)

def sub (a b : Integer k) : Integer k := wrap k (a.val - b.val)

def mul (a b : Integer k) : Integer k := wrap k (a.val * b.val)

def neg (a : Integer k) : Integer k := wrap k (-a.val)

/-- The quotient toward zero, where there is one and the kind holds it. -/
def div? (a b : Integer k) : Option (Integer k) :=
  if b.val = 0 then none else ofInt? k (a.val.tdiv b.val)

def text (a : Integer k) : String := toString a.val

end Integer

end ExprLang
