import ExprLang.Number.Binary

/-! # Floating-point numbers as decimal text

A finite number is written without an exponent, with the fewest digits that read back as the number;
of two such texts the nearer one is taken, and the larger one in a tie.

The search goes down the decimal places. At each place it tries the two multiples of the place that
enclose the number, and it stops at the first place where one of them reads back. The last place is
that of the unit, where the number itself is a multiple.
-/

namespace ExprLang

/-- The number `coefficient * 10 ^ exponent`. -/
structure Decimal where
  coefficient : Nat
  exponent : Int
deriving DecidableEq, Repr

namespace Decimal

/-- Plain positional digits, with a point if the exponent is negative. -/
def text (d : Decimal) : List Char :=
  let digits := Nat.toDigits 10 d.coefficient
  let places := (-d.exponent).toNat
  if places = 0 then digits ++ List.replicate d.exponent.toNat '0'
  else
    let digits := List.replicate (places + 1 - digits.length) '0' ++ digits
    digits.take (digits.length - places) ++ '.' :: digits.drop (digits.length - places)

/-- Digits with at most one point among them. -/
def ofText (cs : List Char) : Decimal :=
  let whole := cs.takeWhile (· ≠ '.')
  let fraction := (cs.dropWhile (· ≠ '.')).drop 1
  ⟨Nat.ofDigitChars 10 (whole ++ fraction) 0, -fraction.length⟩

/-- The decimal as a quotient of units of a format. -/
def num (f : Format) (d : Decimal) : Nat := d.coefficient * 10 ^ d.exponent.toNat * 2 ^ f.scale

def den (d : Decimal) : Nat := 10 ^ (-d.exponent).toNat

end Decimal

namespace Format

/-- The decimal reads back as the number of `units`. -/
def readsAs (f : Format) (units : Nat) (d : Decimal) : Bool := f.nearest (d.num f) d.den = units

/-- The multiple of `10 ^ exponent` that reads back as `units`, the nearer one of two. -/
def decimalAt? (f : Format) (units : Nat) (exponent : Int) : Option Decimal :=
  let num := units * 10 ^ (-exponent).toNat
  let den := 2 ^ f.scale * 10 ^ exponent.toNat
  let low : Decimal := ⟨num / den, exponent⟩
  let high : Decimal := ⟨num / den + 1, exponent⟩
  if 2 * (num % den) < den then [low, high].find? (f.readsAs units)
  else [high, low].find? (f.readsAs units)

/-- Tries `places` decimal places, from that of `10 ^ exponent` down. -/
def decimalFrom (f : Format) (units : Nat) (exponent : Int) : Nat → Decimal
  | 0 => ⟨units * 5 ^ f.scale, -f.scale⟩
  | places + 1 =>
    match f.decimalAt? units exponent with
    | some d => d
    | none => f.decimalFrom units (exponent - 1) places

/-- The shortest decimal that reads back as `units`. -/
def shortest (f : Format) (units : Nat) : Decimal :=
  let wholeDigits := (Nat.toDigits 10 (units / 2 ^ f.scale)).length
  f.decimalFrom units (wholeDigits - 1 : Nat) (wholeDigits + f.scale)

end Format

namespace Binary

variable {f : Format}

def ofDecimal (d : Decimal) : Binary f := round false (d.num f) d.den

def text : Binary f → String
  | .nan => "NaN"
  | .infinite negative => if negative then "-inf" else "inf"
  | .finite negative units _ =>
    let digits := (f.shortest units).text
    String.ofList (if negative then '-' :: digits else digits)

end Binary

end ExprLang
