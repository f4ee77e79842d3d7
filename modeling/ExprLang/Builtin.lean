import ExprLang.Number.Integer

/-! # The built-in functions by name

Operators, grouping and indexing are calls of built-in functions. The names here are the ones a
source uses.
-/

namespace ExprLang

inductive Comparison where
  | greaterThan
  | greaterThanEqual
  | lessThan
  | lessThanEqual
deriving DecidableEq, Repr

inductive Arithmetic where
  | add
  | subtract
  | multiply
  | divide
deriving DecidableEq, Repr

/-- The target of a conversion. `int` and `uint` are the widest integers under another name. -/
inductive Conversion where
  | int
  | uint
  | integer (k : IntKind)
  | float32
  | float64
deriving DecidableEq, Repr

inductive Builtin where
  | equals
  | notEquals
  | switch
  | and
  | or
  | not
  | compare (c : Comparison)
  | nil
  | addOrConcat
  | arithmetic (a : Arithmetic)
  | pow
  | mod
  | negate
  | convert (c : Conversion)
  | string
  | concat
  | len
  | substring
  | instring
  | slice
  | map
  | entry
  | select
  | indexOf
  | count
deriving DecidableEq, Repr

def Comparison.name : Comparison → String
  | .greaterThan => "greaterThan"
  | .greaterThanEqual => "greaterThanEqual"
  | .lessThan => "lessThan"
  | .lessThanEqual => "lessThanEqual"

def Arithmetic.name : Arithmetic → String
  | .add => "add"
  | .subtract => "subtract"
  | .multiply => "multiply"
  | .divide => "divide"

def Conversion.name : Conversion → String
  | .int => "int"
  | .uint => "uint"
  | .integer k => k.name
  | .float32 => "float32"
  | .float64 => "float64"

namespace Builtin

def name : Builtin → String
  | equals => "equals"
  | notEquals => "notEquals"
  | switch => "switch"
  | and => "and"
  | or => "or"
  | not => "not"
  | compare c => c.name
  | nil => "nil"
  | addOrConcat => "addOrConcat"
  | arithmetic a => a.name
  | pow => "pow"
  | mod => "mod"
  | negate => "negate"
  | convert c => c.name
  | string => "string"
  | concat => "concat"
  | len => "len"
  | substring => "substring"
  | instring => "instring"
  | slice => "slice"
  | map => "map"
  | entry => "entry"
  | select => "select"
  | indexOf => "indexOf"
  | count => "count"

/-- Every built-in function, in the order in which they are registered. -/
def all : List Builtin :=
  [equals, notEquals, switch, and, or, not,
    compare .greaterThan, compare .greaterThanEqual, compare .lessThan, compare .lessThanEqual,
    nil, addOrConcat,
    arithmetic .add, arithmetic .subtract, arithmetic .multiply, arithmetic .divide,
    pow, mod, negate,
    convert .int, convert (.integer .int8), convert (.integer .int16), convert (.integer .int32),
    convert (.integer .int64), convert .uint, convert (.integer .uint8),
    convert (.integer .uint16), convert (.integer .uint32), convert (.integer .uint64),
    convert .float32, convert .float64,
    string, concat, len, substring, instring,
    slice, map, entry, select, indexOf, count]

theorem mem_all (b : Builtin) : b ∈ all := by
  cases b with
  | compare c => cases c <;> decide
  | arithmetic a => cases a <;> decide
  | convert c =>
    cases c with
    | integer k => cases k <;> decide
    | _ => decide
  | _ => decide

end Builtin

end ExprLang
