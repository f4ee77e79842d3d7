/-! # Ranges of code points

A character class is a list of closed ranges in increasing order. Membership walks the list and stops
at the first range that begins beyond the code point.
-/

namespace ExprLang.Text

/-- Closed ranges of code points, in increasing order. -/
abbrev Ranges := List (Nat × Nat)

def Ranges.contains : Ranges → Nat → Bool
  | [], _ => false
  | (low, high) :: rest, n => low ≤ n && (n ≤ high || Ranges.contains rest n)

end ExprLang.Text
