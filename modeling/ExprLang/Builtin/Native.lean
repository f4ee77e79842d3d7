import ExprLang.Builtin.Collections
import ExprLang.Builtin.Logic
import ExprLang.Builtin.Strings

/-! # The built-in functions as native functions

The parameters and the body of each built-in function.
-/

namespace ExprLang

variable {V : Vocabulary}

namespace Builtin

def ofTwo (f : Value V → Value V → Except String (Value V)) : Native V :=
  ⟨[.any, .any], none, fun _ (a, b, ()) => .ofExcept (f a b)⟩

def ofOne (f : Value V → Except String (Value V)) : Native V :=
  ⟨[.any], none, fun _ (a, ()) => .ofExcept (f a)⟩

def native : Builtin → Native V
  | .equals => ofTwo fun a b => .ok (.bool (a == b))
  | .notEquals => ofTwo fun a b => .ok (.bool !(a == b))
  | .switch => ⟨[], some .any, fun _ values => .ofExcept (Value.switch values)⟩
  | .and => ⟨[.bool, .bool], none, fun _ (a, b, ()) => .result (.bool (a && b))⟩
  | .or => ⟨[.bool, .bool], none, fun _ (a, b, ()) => .result (.bool (a || b))⟩
  | .not => ⟨[.bool], none, fun _ (a, ()) => .result (.bool !a)⟩
  | .compare c => ofTwo c.apply
  | .nil => ofOne .ok
  | .addOrConcat => ofTwo Strings.addOrConcat
  | .arithmetic op => ofTwo op.apply
  | .pow => ⟨[.float64, .float64], none, fun _ (x, y, ()) => .result (.float64 (x.pow y))⟩
  | .mod => ⟨[.float64, .float64], none, fun _ (x, y, ()) => .result (.float64 (x.mod y))⟩
  | .negate => ofOne Value.negate
  | .convert c => ofOne c.apply
  | .string => ofOne fun v => .ok (.string v.text)
  | .concat => ⟨[], some .string, fun _ parts => .result (.string (String.join parts))⟩
  | .len => ⟨[.string], none, fun _ (s, ()) => .result (.int64 (Strings.len s))⟩
  | .substring =>
    ⟨[.string, .int .int64, .int .int64], none, fun _ (s, start, stop, ()) =>
      .ofExcept ((Strings.substring s start stop).map .string)⟩
  | .instring =>
    ⟨[.string, .string], none, fun _ (s, pattern, ()) =>
      .result (.int64 (Strings.instring s pattern))⟩
  | .slice => ⟨[], some .any, fun _ values => .ofExcept (Collections.slice values)⟩
  | .map => ⟨[], some .entry, fun _ entries => .ofExcept (Collections.map entries)⟩
  | .entry => ofTwo fun key value => .ok (.entry (.mk key value))
  | .select =>
    ⟨[.any, .string, .expression], some .any, fun _ (collection, name, predicate, values) =>
      .ofExcept (Collections.select collection name predicate values)⟩
  | .indexOf => ofTwo Collections.indexOf
  | .count => ofOne Collections.count

end Builtin

def Host.code (host : Host V) : Code V → Native V
  | .builtin b => b.native
  | .native n => host.native n

def Function.native (host : Host V) (f : Function V) : Native V := host.code f.code

def Function.signature (host : Host V) (f : Function V) : Signature := (f.native host).signature

def Function.outline (host : Host V) (f : Function V) : String :=
  "Function \x7b name: " ++ Text.quote f.name ++ ", signature: " ++
    (f.signature host).outline ++ " \x7d"

end ExprLang
