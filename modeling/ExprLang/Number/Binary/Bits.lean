import ExprLang.Number.Binary

/-! # Floating-point numbers as bits

A number is coded as a sign, an exponent and a fraction. The codes of the positive numbers follow
their order: those with exponent zero count units, and each further exponent doubles the distance
between neighbours.
-/

namespace ExprLang

namespace Format

/-- The code of positive infinity; larger codes, up to the sign, are not numbers. -/
def infinityBits (f : Format) : Nat := (f.span - f.precision + 2) * 2 ^ (f.precision - 1)

def signBit (f : Format) : Nat := (f.span - f.precision + 3) * 2 ^ (f.precision - 1)

/-- The units of the positive number with this code. -/
def unitsOfBits (f : Format) (bits : Nat) : Nat :=
  let half := 2 ^ (f.precision - 1)
  match bits / half with
  | 0 => bits
  | e + 1 => (half + bits % half) * 2 ^ e

/-- The code of the positive number with these units. -/
def bitsOfUnits (f : Format) (units : Nat) : Nat :=
  let k := f.gap units
  k * 2 ^ (f.precision - 1) + units / 2 ^ k

end Format

namespace Binary

variable {f : Format}

def ofBits (bits : Nat) : Binary f :=
  let negative : Bool := f.signBit ≤ bits
  let bits := bits % f.signBit
  if f.infinityBits < bits then .nan
  else if bits = f.infinityBits then .infinite negative
  else round negative (f.unitsOfBits bits) 1

def toBits : Binary f → Nat
  | .nan => f.infinityBits + 2 ^ (f.precision - 2)
  | .infinite negative => f.infinityBits + if negative then f.signBit else 0
  | .finite negative units _ => f.bitsOfUnits units + if negative then f.signBit else 0

end Binary

end ExprLang
