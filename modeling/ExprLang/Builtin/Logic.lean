import ExprLang.Native

/-! # Equality, choice, truth and order

Order is between two strings, by code point, or between two numbers of one kind. Numbers are ordered
by the doubles nearest to them; what is not a number is neither before nor after anything.
-/

namespace ExprLang

variable {V : Vocabulary}

def Comparison.holds : Comparison → Ordering → Bool
  | .greaterThan, o => o == .gt
  | .greaterThanEqual, o => o != .lt
  | .lessThan, o => o == .lt
  | .lessThanEqual, o => o != .gt

def Comparison.order? (c : Comparison) (a b : Value V) : Except String (Option Ordering) :=
  match a.toString?, b.toString? with
  | some s, some t => .ok (some (compare s t))
  | _, _ =>
    if a.typeName ≠ b.typeName then
      .error (c.name ++ ": mismatched types " ++ a.typeName ++ " and " ++ b.typeName)
    else
      match a.toDouble?, b.toDouble? with
      | some x, some y => .ok (x.compare? y)
      | _, _ => .error (c.name ++ ": cannot compare " ++ a.typeName ++ " values")

def Comparison.apply (c : Comparison) (a b : Value V) : Except String (Value V) :=
  (c.order? a b).map fun
    | some o => .bool (c.holds o)
    | none => .bool false

/-- The result of the first case that equals the subject. Cases and results alternate; one value left
over is the result if no case matches. -/
def choose (subject : Value V) : List (Value V) → Value V
  | [] => .nil
  | [default] => default
  | case :: result :: rest => if case == subject then result else choose subject rest

def Value.switch : List (Value V) → Except String (Value V)
  | [] => .error "switch requires a value to test"
  | subject :: cases => .ok (choose subject cases)

end ExprLang
