import ExprLang.Builtin.Numbers
import ExprLang.Text.Bytes
import ExprLang.Value.Render

/-! # Strings

Lengths and positions in strings count bytes. Where a string is asked for, nil is the empty one.
-/

namespace ExprLang.Strings

variable {V : Vocabulary}

def len (s : String) : Integer .int64 := .wrap .int64 (Text.byteLength s.toList)

/-- The bytes from `start` up to `stop`, or to the end if `stop` is below one. -/
def substring (s : String) (start stop : Integer .int64) : Except String String :=
  let length := Text.byteLength s.toList
  let stop : Int := if stop.val < 1 then length else stop.val
  match if 0 ≤ start.val then Text.sliceBytes start.val.toNat stop.toNat s.toList else none with
  | some cs => .ok (String.ofList cs)
  | none =>
    .error ("substring: slice bounds [" ++ start.text ++ ":" ++ toString stop ++
      "] out of range for string of length " ++ toString length)

/-- The position of the first occurrence, or -1. -/
def instring (s pattern : String) : Integer .int64 :=
  match Text.findBytes pattern.toList s.toList with
  | some i => .wrap .int64 i
  | none => .wrap .int64 (-1)

/-- A string argument, with nil as the empty string. -/
def asText (position : Nat) : Value V → Except InvokeError String
  | .nil => .ok ""
  | .string s => .ok s
  | v => .error (.argumentType position .string v.typeName)

/-- The sum of two numbers, else the two strings in a row. -/
def addOrConcat (a b : Value V) : Except String (Value V) :=
  if a.isNumber && b.isNumber then Arithmetic.add.apply a b
  else
    match asText 1 a, asText 2 b with
    | .ok s, .ok t => .ok (.string (s ++ t))
    | .error e, _ => .error e.message
    | _, .error e => .error e.message

end ExprLang.Strings
