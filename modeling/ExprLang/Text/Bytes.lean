/-! # Text by bytes

Positions in a text count the bytes of its characters in UTF-8. A position is usable only between two
characters.
-/

namespace ExprLang.Text

def byteLength : List Char → Nat
  | [] => 0
  | c :: rest => c.utf8Size + byteLength rest

/-- What follows the first `n` bytes, if they end between two characters. -/
def dropBytes (n : Nat) : List Char → Option (List Char)
  | [] => if n = 0 then some [] else none
  | c :: rest =>
    if n = 0 then some (c :: rest)
    else if c.utf8Size ≤ n then dropBytes (n - c.utf8Size) rest
    else none

/-- The first `n` bytes, if they end between two characters. -/
def takeBytes (n : Nat) : List Char → Option (List Char)
  | [] => if n = 0 then some [] else none
  | c :: rest =>
    if n = 0 then some []
    else if c.utf8Size ≤ n then (takeBytes (n - c.utf8Size) rest).map (c :: ·)
    else none

/-- The bytes from `start` up to `stop`. -/
def sliceBytes (start stop : Nat) (cs : List Char) : Option (List Char) :=
  if start ≤ stop then (dropBytes start cs).bind (takeBytes (stop - start)) else none

def findBytes (pattern : List Char) : List Char → Option Nat
  | [] => if pattern.isEmpty then some 0 else none
  | c :: rest =>
    if pattern.isPrefixOf (c :: rest) then some 0
    else (findBytes pattern rest).map (· + c.utf8Size)

example : sliceBytes 1 3 ['h', 'é', 'y'] = some ['é'] := by decide

example : sliceBytes 1 2 ['h', 'é', 'y'] = none := by decide

end ExprLang.Text
