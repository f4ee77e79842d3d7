import ExprLang.Number.Binary.Decimal
import ExprLang.Text.Literal
import ExprLang.Value

/-! # Values and expressions as text

`Value.text` is how a value is shown. `Expr.render` is a source of the expression: it uses calls
only, never operators.

A source has literals for booleans, strings, 64-bit integers and doubles. Other numbers are written as
a call of the conversion to their kind. Float literals always have a point.
-/

namespace ExprLang

variable {V : Vocabulary}

/-- A double as a literal; a whole number gets the point and a zero. -/
def Binary.literal (x : Binary .double) : String :=
  let text := x.text
  if x.isFinite && !text.toList.contains '.' then text ++ ".0" else text

def Value.literal? : Value V → Option String
  | .string s => some (Text.literal s)
  | .float64 x => some x.literal
  | .float32 x => some ("float32(" ++ (x.convert : Binary .double).literal ++ ")")
  | .int k n => some (if k = .int64 then n.text else k.name ++ "(" ++ n.text ++ ")")
  | _ => none

mutual

def Value.text : Value V → String
  | .nil => "<nil>"
  | .bool b => if b then "true" else "false"
  | .int _ n => n.text
  | .float32 x => x.text
  | .float64 x => x.text
  | .string s => s
  | .list items => "[" ++ String.intercalate " " (Value.texts items) ++ "]"
  | .map entries => "map[" ++ String.intercalate " " (Entry.texts entries) ++ "]"
  | .entry (.mk key value) => "\x7b" ++ Value.text key ++ " " ++ Value.text value ++ "\x7d"
  | .object o => V.shown o
  | .expression e => Expr.render e
termination_by structural x => x

def Value.texts : List (Value V) → List String
  | [] => []
  | v :: rest => Value.text v :: Value.texts rest
termination_by structural x => x

def Entry.text : Entry V → String
  | .mk key value => Value.text key ++ ":" ++ Value.text value
termination_by structural x => x

def Entry.texts : List (Entry V) → List String
  | [] => []
  | e :: rest => Entry.text e :: Entry.texts rest
termination_by structural x => x

def Expr.render : Expr V → String
  | .literal v => (Value.literal? v).getD (Value.text v)
  | .lookup name => if name = "" then "#" else name
  | .field parent name => Expr.render parent ++ "." ++ if name = "" then "#" else name
  | .call f arguments i =>
    f.name ++ "(" ++ String.intercalate ", " (Expr.renderEach arguments) ++ ")" ++
      if i = 0 then "" else "\x7b" ++ toString i ++ "\x7d"
  | .method parent name arguments i =>
    Expr.render parent ++ "." ++ name ++
      "(" ++ String.intercalate ", " (Expr.renderEach arguments) ++ ")" ++
      if i = 0 then "" else "\x7b" ++ toString i ++ "\x7d"
termination_by structural x => x

def Expr.renderEach : List (Expr V) → List String
  | [] => []
  | e :: rest => Expr.render e :: Expr.renderEach rest
termination_by structural x => x

end

end ExprLang
