import ExprLang.Proofs.Evaluation
import ExprLang.Proofs.Marshalling
import ExprLang.Registry

/-!
# Calls of built-in functions

A parameter for values of any kind takes every argument for the value that it is. So a call of a
built-in function of one or two such values is the body applied to them, and a call of `select` fails at
most at the name that it is given.

Main statements: `Builtin.call_ofOne`, `Builtin.call_ofTwo`, `Builtin.call_select`, for calls with values
`Builtin.gives_ofOne_iff`, `Builtin.gives_ofTwo_iff`, and for the evaluation of calls
`Expr.evaluateAt_ofOne`, `Expr.evaluateAt_ofTwo`.
-/

namespace ExprLang

variable {V : Vocabulary}

theorem Param.convert_any (position : Nat) (a : Argument V) :
    Param.any.convert position a = .ok a.toValue := by
  unfold convert
  cases a.toValue.isNil <;> rfl

theorem Arguments.convertAll_any (taken : Nat) (arguments : List (Argument V)) :
    Arguments.convertAll .any (Arguments.number taken arguments) =
      .ok (arguments.map Argument.toValue) := by
  induction arguments generalizing taken with
  | nil => rfl
  | cons a rest ih =>
    simp only [number, convertAll, Param.convert_any, ih, List.map_cons]

theorem Arguments.convertAll_entry (taken : Nat) (entries : List (Entry V)) :
    Arguments.convertAll .entry
        (Arguments.number taken (entries.map fun e => .value (.entry e))) = .ok entries := by
  induction entries generalizing taken with
  | nil => rfl
  | cons e entries ih =>
    have hentry : Param.entry.convert (taken + 1) (.value (.entry e)) = .ok e := rfl
    simp only [List.map_cons, number, convertAll, hentry, ih]

theorem takeInputs_rest (p : Param) (arguments : List (Argument V)) :
    takeInputs [] (some p) arguments = Arguments.convertAll p (Arguments.number 0 arguments) := rfl

namespace Builtin

theorem call_ofOne (f : Value V → Except String (Value V)) (site : Site) (a : Argument V) :
    (ofOne f).call site [a] = (Outcome.ofExcept (f a.toValue)).toExcept := by
  have hinputs : takeInputs [.any] none [a] = .ok (a.toValue, ()) := by
    simp only [takeInputs, Inputs.take, Arguments.take, Arguments.next, Arguments.ofList,
      Param.convert_any, Arguments.finish]
  simp only [Native.call, ofOne, hinputs]

theorem call_ofTwo (f : Value V → Value V → Except String (Value V)) (site : Site)
    (a b : Argument V) :
    (ofTwo f).call site [a, b] = (Outcome.ofExcept (f a.toValue b.toValue)).toExcept := by
  have hinputs : takeInputs [.any, .any] none [a, b] = .ok (a.toValue, b.toValue, ()) := by
    simp only [takeInputs, Inputs.take, Arguments.take, Arguments.next, Arguments.ofList,
      Param.convert_any, Arguments.finish]
  simp only [Native.call, ofTwo, hinputs]

theorem call_select (site : Site) (collection name : Argument V) (predicate : Deferred V)
    (references : List (Argument V)) :
    (Builtin.select.native (V := V)).call site
        (collection :: name :: .deferred predicate :: references) =
      (Param.string.convert 2 name).bind fun name =>
        (Outcome.ofExcept (Collections.select collection.toValue name predicate
          (references.map Argument.toValue))).toExcept := by
  simp only [Native.call, native, takeInputs, Inputs.take, Arguments.take, Arguments.next,
    Arguments.ofList, Arguments.takeRest, Arguments.remaining, Param.convert_any,
    Arguments.convertAll_any]
  cases Param.string.convert 2 name <;> rfl

theorem call_map (site : Site) (entries : List (Entry V)) :
    (Builtin.map.native (V := V)).call site (entries.map fun e => .value (.entry e)) =
      (Outcome.ofExcept (Collections.map entries)).toExcept := by
  simp only [Native.call, native, takeInputs_rest, Arguments.convertAll_entry]

end Builtin

/-! ## Calls with values -/

@[simp]
theorem Outcome.toExcept_ofExcept_eq_ok_iff {x : Except String (Value V)} {results : List (Value V)} :
    (Outcome.ofExcept x).toExcept = .ok results ↔ ∃ v, x = .ok v ∧ [v] = results := by
  cases x <;> simp [Outcome.ofExcept, Outcome.result, Outcome.toExcept]

namespace Builtin

variable {host : Host V} {stamp : Nat} {b : Builtin}

/-- Called with the values, the function gives one result. -/
def Gives (host : Host V) (stamp : Nat) (b : Builtin) (values : List (Value V)) (result : Value V) :
    Prop :=
  (b.toFunction stamp).invoke host values = .ok [result]

theorem invoke_ofOne {f : Value V → Except String (Value V)} (hb : b.native = ofOne f)
    (v : Value V) :
    (b.toFunction stamp).invoke host [v] = (Outcome.ofExcept (f v)).toExcept := by
  show b.native.call [] [v.toArgument host [0]] = _
  rw [hb, call_ofOne, Value.toValue_toArgument]

theorem invoke_ofTwo {f : Value V → Value V → Except String (Value V)} (hb : b.native = ofTwo f)
    (v w : Value V) :
    (b.toFunction stamp).invoke host [v, w] = (Outcome.ofExcept (f v w)).toExcept := by
  show b.native.call [] [v.toArgument host [0], w.toArgument host [1]] = _
  rw [hb, call_ofTwo, Value.toValue_toArgument, Value.toValue_toArgument]

theorem gives_ofOne_iff {f : Value V → Except String (Value V)} (hb : b.native = ofOne f)
    {v result : Value V} : b.Gives host stamp [v] result ↔ f v = .ok result := by
  simp [Gives, invoke_ofOne hb]

theorem gives_ofTwo_iff {f : Value V → Value V → Except String (Value V)} (hb : b.native = ofTwo f)
    {v w result : Value V} : b.Gives host stamp [v, w] result ↔ f v w = .ok result := by
  simp [Gives, invoke_ofTwo hb]

end Builtin

/-! ## Evaluation of calls -/

theorem callResult_ofExcept (name : String) (x : Except String (Value V)) :
    callResult name 0 (Outcome.ofExcept x).toExcept =
      x.mapError fun reason => .call name (.failed reason) := by
  cases x <;> rfl

namespace Expr

variable {host : Host V} {f : Function V} {b : Builtin}

theorem argumentAt_any {s : Signature} {i : Nat} (h : s.kindAt i = some .any) (e : Expr V)
    (site : Site) (env : Env V) :
    e.argumentAt host s i site env = (e.evaluateAt host (i :: site) env).map .value :=
  argumentAt_of_evaluated (by rw [h]; decide) e site env

theorem evaluateAt_ofOne (hf : f.code = .builtin b) {g : Value V → Except String (Value V)}
    (hb : b.native = Builtin.ofOne g) (e : Expr V) (site : Site) (env : Env V) :
    (Expr.call f [e] 0).evaluateAt host site env =
      (e.evaluateAt host (0 :: site) env).bind fun v =>
        (g v).mapError fun reason => .call f.name (.failed reason) := by
  have hnative : f.native host = Builtin.ofOne g := by
    rw [Function.native, hf]
    exact hb
  have hsignature : f.signature host = ⟨[.any], none⟩ := by
    rw [Function.signature, hnative]
    rfl
  rw [evaluateAt_call, hsignature, evaluateArguments_cons, argumentAt_any rfl,
    evaluateArguments_nil]
  cases e.evaluateAt host (0 :: site) env with
  | error err => rfl
  | ok v =>
    simp only [Except.map, Except.bind, hnative, Builtin.call_ofOne, callResult_ofExcept]
    rfl

theorem evaluateAt_ofTwo (hf : f.code = .builtin b)
    {g : Value V → Value V → Except String (Value V)} (hb : b.native = Builtin.ofTwo g)
    (e e' : Expr V) (site : Site) (env : Env V) :
    (Expr.call f [e, e'] 0).evaluateAt host site env =
      (e.evaluateAt host (0 :: site) env).bind fun v =>
        (e'.evaluateAt host (1 :: site) env).bind fun w =>
          (g v w).mapError fun reason => .call f.name (.failed reason) := by
  have hnative : f.native host = Builtin.ofTwo g := by
    rw [Function.native, hf]
    exact hb
  have hsignature : f.signature host = ⟨[.any, .any], none⟩ := by
    rw [Function.signature, hnative]
    rfl
  rw [evaluateAt_call, hsignature, evaluateArguments_cons, evaluateArguments_cons,
    argumentAt_any rfl, argumentAt_any rfl, evaluateArguments_nil]
  cases e.evaluateAt host (0 :: site) env with
  | error err => rfl
  | ok v =>
    cases e'.evaluateAt host (1 :: site) env with
    | error err => rfl
    | ok w =>
      simp only [Except.map, Except.bind, hnative, Builtin.call_ofTwo, callResult_ofExcept]
      rfl

end Expr

end ExprLang
