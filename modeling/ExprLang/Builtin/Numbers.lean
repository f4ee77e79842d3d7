import ExprLang.Native
import ExprLang.Number.Binary.Arithmetic

/-! # Arithmetic and conversion

Arithmetic combines two numbers of one kind. Integers keep to their kind by reduction; a quotient that
does not exist or does not fit is an error. A conversion to an integer takes the whole part of a float
and goes to the nearest number of the kind, while an integer is reduced.
-/

namespace ExprLang

variable {V : Vocabulary}

namespace Arithmetic

def onIntegers {k : IntKind} : Arithmetic → Integer k → Integer k → Option (Integer k)
  | add, a, b => some (a.add b)
  | subtract, a, b => some (a.sub b)
  | multiply, a, b => some (a.mul b)
  | divide, a, b => a.div? b

def onFloats {f : Format} : Arithmetic → Binary f → Binary f → Binary f
  | add, x, y => x.add y
  | subtract, x, y => x.sub y
  | multiply, x, y => x.mul y
  | divide, x, y => x.div y

def mismatch (op : Arithmetic) (a b : Value V) : String :=
  if a.isNumber && b.isNumber then
    op.name ++ " cannot use different types (" ++ a.typeName ++ " & " ++ b.typeName ++
      ") - convert them first"
  else
    op.name ++ " can only use numeric types, not " ++ a.typeName ++ " and " ++ b.typeName

def apply (op : Arithmetic) (a b : Value V) : Except String (Value V) :=
  match a, b with
  | .int k x, .int l y =>
    if h : l = k then
      match op.onIntegers x (h ▸ y) with
      | some z => .ok (.int k z)
      | none => .error (op.name ++ ": integer division by zero or overflow")
    else .error (op.mismatch a b)
  | .float32 x, .float32 y => .ok (.float32 (op.onFloats x y))
  | .float64 x, .float64 y => .ok (.float64 (op.onFloats x y))
  | _, _ => .error (op.mismatch a b)

end Arithmetic

def Value.negate : Value V → Except String (Value V)
  | .int k n => .ok (.int k n.neg)
  | .float32 x => .ok (.float32 x.neg)
  | .float64 x => .ok (.float64 x.neg)
  | v => .error ("cannot negate " ++ v.typeName)

/-- The whole part as an integer of the kind, or the nearest one; zero for what is not a number. -/
def Binary.toInteger {f : Format} (k : IntKind) : Binary f → Integer k
  | .nan => .wrap k 0
  | .infinite negative => .clamp k (if negative then k.lower - 1 else k.upper)
  | .finite negative units _ =>
    let whole : Int := units / 2 ^ f.scale
    .clamp k (if negative then -whole else whole)

namespace Conversion

def toInteger? (k : IntKind) : Value V → Option (Integer k)
  | .int _ n => some (.wrap k n.val)
  | .float32 x => some (x.toInteger k)
  | .float64 x => some (x.toInteger k)
  | _ => none

def toFloat? (f : Format) : Value V → Option (Binary f)
  | .int _ n => some (.ofInt n.val)
  | .float32 x => some x.convert
  | .float64 x => some x.convert
  | _ => none

def convert? : Conversion → Value V → Option (Value V)
  | int, v => (toInteger? .int64 v).map (.int _)
  | uint, v => (toInteger? .uint64 v).map (.int _)
  | integer k, v => (toInteger? k v).map (.int _)
  | float32, v => (toFloat? .single v).map .float32
  | float64, v => (toFloat? .double v).map .float64

def apply (c : Conversion) (v : Value V) : Except String (Value V) :=
  match c.convert? v with
  | some w => .ok w
  | none => .error ("cannot convert " ++ v.typeName ++ " to " ++ c.name)

end Conversion

end ExprLang
