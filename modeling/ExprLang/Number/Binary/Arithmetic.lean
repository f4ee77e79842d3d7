import ExprLang.Number.Binary.Bits

/-! # Arithmetic on floating-point numbers

Sums, products, quotients and remainders are computed exactly and rounded once. The sign of a zero
result is the sign its operands call for: a sum of zeros is negative only if both are, products and
quotients multiply signs, and a remainder keeps the sign of the dividend.
-/

namespace ExprLang.Binary

variable {f : Format}

def neg : Binary f → Binary f
  | .nan => .nan
  | .infinite negative => .infinite !negative
  | .finite negative units h => .finite (!negative) units h

def add : Binary f → Binary f → Binary f
  | .nan, _ | _, .nan => .nan
  | .infinite a, .infinite b => if a = b then .infinite a else .nan
  | .infinite a, .finite .. => .infinite a
  | .finite .., .infinite b => .infinite b
  | .finite a x _, .finite b y _ =>
    if a = b then round a (x + y) 1
    else if x = y then zero false
    else if y < x then round a (x - y) 1
    else round b (y - x) 1

def sub (x y : Binary f) : Binary f := add x y.neg

def mul : Binary f → Binary f → Binary f
  | .nan, _ | _, .nan => .nan
  | .infinite a, .infinite b => .infinite (a != b)
  | .infinite a, .finite b units _ | .finite a units _, .infinite b =>
    if units = 0 then .nan else .infinite (a != b)
  | .finite a x _, .finite b y _ => round (a != b) (x * y) (2 ^ f.scale)

def div : Binary f → Binary f → Binary f
  | .nan, _ | _, .nan => .nan
  | .infinite _, .infinite _ => .nan
  | .infinite a, .finite b .. => .infinite (a != b)
  | .finite a .., .infinite b => zero (a != b)
  | .finite a x _, .finite b y _ =>
    if y ≠ 0 then round (a != b) (x * 2 ^ f.scale) y
    else if x = 0 then .nan
    else .infinite (a != b)

/-- What is left of the dividend after as many whole divisors as fit. -/
def mod : Binary f → Binary f → Binary f
  | .nan, _ | _, .nan | .infinite _, _ => .nan
  | .finite a x h, .infinite _ => .finite a x h
  | .finite a x _, .finite _ y _ => if y = 0 then .nan else round a (x % y) 1

/-- The power function of the platform. -/
def pow (x y : Binary .double) : Binary .double :=
  let place (z : Binary .double) : Float := Float.ofBits (UInt64.ofNat z.toBits)
  ofBits ((place x).pow (place y)).toBits.toNat

end ExprLang.Binary
