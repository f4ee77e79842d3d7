import ExprLang.Demo.Vocabulary
import ExprLang.Value.Render

/-! # The native functions of the sample -/

namespace ExprLang.Demo

abbrev Val := Value vocabulary

def number (n : Int) : Val := .int64 (.wrap _ n)

def source (d : Deferred vocabulary) : String := d.expression.render

/-- Binds the entries of a map in turn, each under the text of its key. -/
def environment (entries : List (Entry vocabulary)) : Env vocabulary :=
  .ofList (entries.map fun e => (e.key.text, e.value))

open Outcome

def NativeName.native : NativeName → Native vocabulary
  | .one => ⟨[], none, fun _ () => result (number 1)⟩
  | .pair => ⟨[], none, fun _ () => results [number 1, .string "two"]⟩
  | .triple =>
    ⟨[.int .int64, .string, .float64], none, fun _ (a, b, c, ()) =>
      results [.float64 c, .string b, .int64 a]⟩
  | .unit => ⟨[], none, fun _ () => results []⟩
  | .text => ⟨[], none, fun _ () => result (.string "text")⟩
  | .fail => ⟨[.string], none, fun _ (reason, ()) => failed reason⟩
  | .checked =>
    ⟨[.int .int64], none, fun _ (n, ()) =>
      if n.val < 0 then failed "negative" else result (.int64 n)⟩
  | .failPair =>
    ⟨[.bool], none, fun _ (ok, ()) =>
      if ok then results [.bool true, number 7] else failed "not ok"⟩
  | .boom => ⟨[.string], none, fun _ (reason, ()) => panicked (reason ++ "!")⟩
  | .boomStatic => ⟨[], none, fun _ () => panicked "static boom"⟩
  | .boomAny => ⟨[], none, fun _ () => panicked "unknown panic"⟩
  | .echo p => ⟨[p], none, fun _ (x, ()) => result (p.toValue x)⟩
  | .optI64 =>
    ⟨[.optional (.int .int64)], none, fun _ (n, ()) => result (n.elim .nil .int64)⟩
  | .optExpr =>
    ⟨[.optional .expression], none, fun _ (e, ()) => result (.string (e.elim "none" source))⟩
  | .optObject =>
    ⟨[.optional .object], none, fun _ (o, ()) =>
      result (.string (o.elim "none" vocabulary.typeName))⟩
  | .restI64 =>
    ⟨[.string], some (.int .int64), fun _ (first, rest) =>
      result (.string (first ++ "|[" ++ String.intercalate ", " (rest.map Integer.text) ++ "]"))⟩
  | .restExpr =>
    ⟨[], some .expression, fun _ rest =>
      result (.string (String.intercalate " ; " (rest.map source)))⟩
  | .restOpt =>
    ⟨[], some (.optional .bool), fun _ rest => result (number (rest.filter Option.isNone).length)⟩
  | .restAny => ⟨[], some .any, fun _ rest => result (.list rest)⟩
  | .atLeast2 =>
    ⟨[.int .int64, .int .int64], some (.int .int64), fun _ (a, b, rest) =>
      result (.int64 (rest.foldl Integer.add (a.add b)))⟩
  | .six =>
    ⟨[.int .int8, .int .uint8, .bool, .string, .float64, .list], none,
      fun _ (a, b, c, d, e, g, ()) =>
        result (.string (String.intercalate "|"
          [a.text, b.text, toString c, d, e.text, toString g.length]))⟩
  | .render => ⟨[.expression], none, fun _ (e, ()) => result (.string (source e))⟩
  | .evalWith =>
    ⟨[.expression, .map], none, fun _ (e, entries, ()) =>
      match e.evaluate (environment entries) with
      | .ok v => result v
      | .error err => failed err.message⟩
  | .failExprLast =>
    ⟨[.int .int64, .expression], none, fun _ (n, e, ()) => failed (n.text ++ "/" ++ source e)⟩
  | .mixed =>
    ⟨[.expression, .any], some .expression, fun _ (e, v, rest) =>
      results [.string (source e), v, number rest.length]⟩

end ExprLang.Demo
