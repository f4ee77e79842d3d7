import ExprLang.Number.Integer

/-! # Binary floating-point numbers

A format has a smallest positive number, its *unit*, and every finite number of the format is a whole
number of units. So a finite number is stored as its sign and its count of units, and an operation is
exact arithmetic on counts followed by `round`, the only place where anything is lost.

* `Binary.round` takes the exact quotient of two counts to the nearest number of the format, a tie
  to the one with an even last digit.
* `Binary.compare?` orders numbers by their place on the line. Zero has two signs and one place; what
  is not a number has none.
-/

namespace ExprLang

/-- A binary interchange format. One is `2 ^ scale` units; finite numbers have at most `precision`
significant bits and lie below `2 ^ span` units. -/
structure Format where
  precision : Nat
  scale : Nat
  span : Nat
deriving DecidableEq, Repr

namespace Format

def single : Format := ⟨24, 149, 277⟩

def double : Format := ⟨53, 1074, 2098⟩

/-- Some number of the format has this many units. -/
def Represents (f : Format) (units : Nat) : Prop :=
  units < 2 ^ f.span ∧ ∃ m k, m ≤ 2 ^ f.precision ∧ units = m * 2 ^ k

/-- Near `units`, the numbers of the format are `2 ^ gap` units apart. -/
def gap (f : Format) (units : Nat) : Nat := units.log2 + 1 - f.precision

end Format

/-- The whole number nearest to a quotient, a tie going to the even one. -/
def roundDiv (num den : Nat) : Nat :=
  let q := num / den
  let r := num % den
  if 2 * r < den ∨ (2 * r = den ∧ q % 2 = 0) then q else q + 1

theorem roundDiv_le (num den : Nat) : roundDiv num den ≤ num / den + 1 := by
  simp only [roundDiv]
  split <;> omega

/-- The count of units nearest to a quotient among those with at most `precision` bits. -/
def Format.nearest (f : Format) (num den : Nat) : Nat :=
  let k := f.gap (num / den)
  roundDiv num (den * 2 ^ k) * 2 ^ k

/-- What is left after rounding has at most one digit more than fits, and then it is a power of two. -/
theorem Format.roundDiv_gap_le (f : Format) (num den : Nat) :
    roundDiv num (den * 2 ^ f.gap (num / den)) ≤ 2 ^ f.precision := by
  have h : num / den < 2 ^ (f.precision + f.gap (num / den)) :=
    Nat.lt_of_lt_of_le Nat.lt_log2_self
      (Nat.pow_le_pow_right (by decide) (by unfold Format.gap; omega))
  refine Nat.le_trans (roundDiv_le _ _) ?_
  rw [← Nat.div_div_eq_div_mul, Nat.succ_le_iff]
  exact Nat.div_lt_of_lt_mul (by rwa [← Nat.pow_add, Nat.add_comm])

theorem Format.represents_nearest {f : Format} {num den : Nat}
    (h : f.nearest num den < 2 ^ f.span) : f.Represents (f.nearest num den) :=
  ⟨h, _, _, f.roundDiv_gap_le num den, rfl⟩

inductive Binary (f : Format) where
  | nan
  | infinite (negative : Bool)
  | finite (negative : Bool) (units : Nat) (represents : f.Represents units)
deriving DecidableEq

namespace Binary

variable {f g : Format}

/-- The number nearest to `num / den` units; infinity from `2 ^ span` units on. -/
def round (negative : Bool) (num den : Nat) : Binary f :=
  if h : f.nearest num den < 2 ^ f.span then
    .finite negative (f.nearest num den) (f.represents_nearest h)
  else .infinite negative

def zero (negative : Bool) : Binary f :=
  .finite negative 0 ⟨Nat.two_pow_pos _, 0, 0, Nat.zero_le _, by simp⟩

def isFinite : Binary f → Bool
  | .finite .. => true
  | _ => false

/-- The place on the line, in units; infinity stands just outside. -/
def place? : Binary f → Option Int
  | .nan => none
  | .infinite negative => some (if negative then -(2 ^ f.span : Nat) else (2 ^ f.span : Nat))
  | .finite negative units _ => some (if negative then -units else units)

def compare? (x y : Binary f) : Option Ordering :=
  match x.place?, y.place? with
  | some a, some b => some (compare a b)
  | _, _ => none

/-- Equality of places, so that the zeros are equal and what is not a number equals nothing. -/
def equal (x y : Binary f) : Bool := x.compare? y == some .eq

def ofInt (n : Int) : Binary f :=
  round (n < 0) (n.natAbs * 2 ^ f.scale) 1

def convert : Binary f → Binary g
  | .nan => .nan
  | .infinite negative => .infinite negative
  | .finite negative units _ =>
    round negative (units * 2 ^ g.scale) (2 ^ f.scale)

end Binary

end ExprLang
