import ExprLang.Number.Integer

/-! # Signatures

A callable declares the kind of each parameter, and perhaps one more kind for any number of further
arguments. The signature says how many arguments a call may have and which kind each must be.
-/

namespace ExprLang

/-- What a parameter takes. An `expression` parameter takes its argument unevaluated. -/
inductive Kind where
  | any
  | bool
  | string
  | int (k : IntKind)
  | float32
  | float64
  | list
  | map
  | entry
  | object
  | expression
deriving DecidableEq

def Kind.name : Kind → String
  | .any => "any"
  | .bool => "bool"
  | .string => "string"
  | .int k => k.name
  | .float32 => "float32"
  | .float64 => "float64"
  | .list => "list"
  | .map => "map"
  | .entry => "entry"
  | .object => "object"
  | .expression => "expression"

def Kind.label : Kind → String
  | .any => "Any"
  | .bool => "Bool"
  | .string => "String"
  | .int k => (if k.isSigned then "I" else "U") ++ toString k.bits
  | .float32 => "F32"
  | .float64 => "F64"
  | .list => "List"
  | .map => "Map"
  | .entry => "Entry"
  | .object => "Object"
  | .expression => "Expression"

inductive Arity where
  | exactly (n : Nat)
  | atLeast (n : Nat)
deriving DecidableEq

def Arity.accepts : Arity → Nat → Bool
  | .exactly n, count => count = n
  | .atLeast n, count => n ≤ count

def Arity.text : Arity → String
  | .exactly n => toString n
  | .atLeast n => "at least " ++ toString n

structure Signature where
  params : List Kind
  variadic : Option Kind
deriving DecidableEq

namespace Signature

def empty : Signature := ⟨[], none⟩

/-- The kind of the argument at a position, counted from zero. -/
def kindAt (s : Signature) (i : Nat) : Option Kind := s.params[i]? <|> s.variadic

def arity (s : Signature) : Arity :=
  match s.variadic with
  | some _ => .atLeast s.params.length
  | none => .exactly s.params.length

/-- Declares one more parameter; a variadic one replaces the variadic one before it. -/
def push (s : Signature) (kind : Kind) (variadic : Bool) : Signature :=
  if variadic then { s with variadic := some kind } else { s with params := s.params ++ [kind] }

def outline (s : Signature) : String :=
  let variadic := match s.variadic with
    | some k => "Some(" ++ k.label ++ ")"
    | none => "None"
  "Signature \x7b params: [" ++ String.intercalate ", " (s.params.map Kind.label) ++
    "], variadic: " ++ variadic ++ " \x7d"

end Signature

end ExprLang
