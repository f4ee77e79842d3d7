import ExprLang.Function
import ExprLang.Number.Binary

/-! # Values and expressions

Values are what expressions produce and consume. An expression can itself be a value: it is handed
unevaluated to a function that asks for it.

Integers and floats of different kinds are different values. A map is a list of entries in the order
of their making.
-/

namespace ExprLang

mutual

inductive Value (V : Vocabulary) where
  | nil
  | bool (b : Bool)
  | int (k : IntKind) (n : Integer k)
  | float32 (x : Binary .single)
  | float64 (x : Binary .double)
  | string (s : String)
  | list (items : List (Value V))
  | map (entries : List (Entry V))
  | entry (e : Entry V)
  | object (o : V.Object)
  | expression (e : Expr V)

inductive Entry (V : Vocabulary) where
  | mk (key value : Value V)

/-- An expression tree. Operators, grouping and indexing are calls; `resultIndex` picks one of the
results of a call.

* `lookup` reads a name of the environment; the empty name stands for all of it.
* `field` reads a field of what the parent evaluates to; the empty name stands for all of it.
* `call` calls a function that was found when the source was read.
* `method` calls a method that is found when the parent has been evaluated. -/
inductive Expr (V : Vocabulary) where
  | literal (v : Value V)
  | lookup (name : String)
  | field (parent : Expr V) (name : String)
  | call (f : Function V) (arguments : List (Expr V)) (resultIndex : Nat)
  | method (parent : Expr V) (name : String) (arguments : List (Expr V)) (resultIndex : Nat)

end

variable {V : Vocabulary}

namespace Entry

def key : Entry V → Value V
  | mk key _ => key

def value : Entry V → Value V
  | mk _ value => value

end Entry

namespace Value

def int64 (n : Integer .int64) : Value V := .int .int64 n

def typeName : Value V → String
  | nil => "nil"
  | bool _ => "bool"
  | int k _ => k.name
  | float32 _ => "float32"
  | float64 _ => "float64"
  | string _ => "string"
  | list _ => "list"
  | map _ => "map"
  | entry _ => "entry"
  | object o => V.typeName o
  | expression _ => "expression"

def isNil : Value V → Bool
  | nil => true
  | _ => false

/-- The double nearest to a number. -/
def toDouble? : Value V → Option (Binary .double)
  | int _ n => some (.ofInt n.val)
  | float32 x => some x.convert
  | float64 x => some x
  | _ => none

def isNumber (v : Value V) : Bool := v.toDouble?.isSome

def toString? : Value V → Option String
  | string s => some s
  | _ => none

def toBool? : Value V → Option Bool
  | bool b => some b
  | _ => none

end Value

end ExprLang
