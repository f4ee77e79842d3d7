/-! # Operators

An operator, a grouping and an indexing are calls of functions that a registry must hold under these
names.
-/

namespace ExprLang.Operator

def unaryFunction? : String → Option String
  | "!" => some "not"
  | "-" => some "negate"
  | _ => none

def binaryFunction? : String → Option String
  | "+" => some "addOrConcat"
  | "-" => some "subtract"
  | "*" => some "multiply"
  | "/" => some "divide"
  | "^" => some "pow"
  | "%" => some "mod"
  | "==" => some "equals"
  | "!=" => some "notEquals"
  | ">" => some "greaterThan"
  | ">=" => some "greaterThanEqual"
  | "<" => some "lessThan"
  | "<=" => some "lessThanEqual"
  | "&&" => some "and"
  | "||" => some "or"
  | _ => none

def groupFunction : String := "nil"

def indexFunction : String := "indexOf"

end ExprLang.Operator
