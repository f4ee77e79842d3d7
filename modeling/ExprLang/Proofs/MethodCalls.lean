import ExprLang.Demo.Objects
import ExprLang.Proofs.Evaluation
import ExprLang.Proofs.Marshalling

/-!
# Calls of methods

A call hands over arguments: values, and expressions with their meaning. A host that calls a method by
itself has values only, some of which may be expressions. The two ways to call agree: no parameter can
tell an expression that was found as a value from one that was handed over, but for those that take
expressions, and there the evaluator hands over every argument.

So what a method call evaluates to is what the method answers to the values of the arguments, with one
result picked, and every error on the way is reported once under the name of the method.

Main statements: `Native.call_congr`, `Method.call_congr`, `evaluate_method_call`.
-/

namespace ExprLang

variable {V : Vocabulary}

/-! ## Arguments that are taken alike -/

/-- A parameter of this kind takes both arguments alike. -/
def Argument.Alike (kind : Option Kind) (a b : Argument V) : Prop :=
  a.toValue = b.toValue ∧ (kind = some .expression → a = b)

theorem Argument.Alike.refl (kind : Option Kind) (a : Argument V) : Argument.Alike kind a a :=
  ⟨rfl, fun _ => rfl⟩

/-- Arguments from position `i` on that are taken alike, one by one. -/
inductive Signature.Alike (s : Signature) : Nat → List (Argument V) → List (Argument V) → Prop where
  | nil (i : Nat) : Alike s i [] []
  | cons {i : Nat} {a b : Argument V} {arguments others : List (Argument V)} :
      Argument.Alike (s.kindAt i) a b → Alike s (i + 1) arguments others →
      Alike s i (a :: arguments) (b :: others)

namespace Signature.Alike

variable {s t : Signature} {i : Nat} {arguments others : List (Argument V)}

theorem length_eq (h : s.Alike i arguments others) : arguments.length = others.length := by
  induction h with
  | nil i => rfl
  | cons _ _ ih => rw [List.length_cons, List.length_cons, ih]

/-- Behind the first parameter, another signature counts the rest from zero. -/
theorem shift (hkind : ∀ j, s.kindAt (j + 1) = t.kindAt j) {j : Nat}
    (h : s.Alike (j + 1) arguments others) : t.Alike j arguments others := by
  induction arguments generalizing j others with
  | nil =>
    cases h
    exact .nil j
  | cons a arguments ih =>
    cases h with
    | cons hfirst hothers => exact .cons (hkind j ▸ hfirst) (ih hothers)

end Signature.Alike

namespace Param

variable {p : Param} {a b : Argument V}

theorem accept?_congr (h : Argument.Alike (some p.kind) a b) : p.accept? a = p.accept? b := by
  obtain ⟨hvalue, hsame⟩ := h
  induction p with
  | optional p ih => rw [accept?_optional, accept?_optional, ih hsame]
  | any => simp only [accept?, receive, hvalue]
  | expression => rw [hsame rfl]
  | _ =>
    -- An expression is refused here, in whichever form it comes.
    cases a with
    | value v =>
      cases b with
      | value w =>
        cases hvalue
        rfl
      | deferred d =>
        cases hvalue
        rfl
    | deferred d =>
      cases b with
      | value w =>
        cases hvalue
        rfl
      | deferred d' => rfl

theorem convert_congr (h : Argument.Alike (some p.kind) a b) (position : Nat) :
    p.convert position a = p.convert position b := by
  simp only [convert_eq_match, accept?_congr h, h.1]

end Param

section

variable {params : List Param} {rest : Option Param} {arguments others : List (Argument V)}

theorem Arguments.convertAll_congr {p : Param}
    (h : (signatureOf [] (some p)).Alike 0 arguments others) (taken : Nat) :
    convertAll p (number taken arguments) = convertAll p (number taken others) := by
  induction arguments generalizing others taken with
  | nil =>
    cases h
    rfl
  | cons a arguments ih =>
    cases h with
    | @cons _ _ b _ others hfirst hothers =>
      have hrest : convertAll p (number (taken + 1) arguments) =
          convertAll p (number (taken + 1) others) :=
        ih (hothers.shift fun _ => rfl) (taken + 1)
      rw [number, number, convertAll_cons, convertAll_cons, Param.convert_congr hfirst, hrest]

theorem Inputs.take_congr (h : (signatureOf params rest).Alike 0 arguments others)
    (taken total : Nat) (arity : Arity) :
    take params rest ⟨arguments, taken, total, arity⟩ =
      take params rest ⟨others, taken, total, arity⟩ := by
  induction params generalizing arguments others taken with
  | nil =>
    cases rest with
    | some p => exact Arguments.convertAll_congr h taken
    | none => cases h <;> rfl
  | cons p params ih =>
    cases h with
    | nil => rfl
    | cons hfirst hothers =>
      have hrest := ih (hothers.shift (t := signatureOf params rest) fun _ => rfl) (taken + 1)
      rw [take_cons, take_cons, Param.convert_congr hfirst, hrest]

theorem takeInputs_congr (h : (signatureOf params rest).Alike 0 arguments others) :
    takeInputs params rest arguments = takeInputs params rest others := by
  simp only [takeInputs, Arguments.ofList, h.length_eq]
  exact Inputs.take_congr h 0 others.length _

theorem Native.call_congr {n : Native V} (h : n.signature.Alike 0 arguments others) (site : Site) :
    n.call site arguments = n.call site others := by
  simp only [call, takeInputs_congr h]

theorem Method.call_congr {m : Method V} (h : m.signature.Alike 0 arguments others)
    (receiver : V.Object) (site : Site) :
    m.call receiver site arguments = m.call receiver site others := by
  simp only [call, takeInputs_congr h]

end

/-! ## Arguments as values -/

theorem Value.alike_toArgument (host : Host V) (site : Site) (v : Value V) {kind : Option Kind}
    (h : kind ≠ some .expression) : Argument.Alike kind (.value v) (v.toArgument host site) :=
  ⟨(v.toValue_toArgument host site).symm, fun hkind => absurd hkind h⟩

namespace Expr

variable {host : Host V}

/-- The value of the argument at a position: the expression itself where an expression is asked for. -/
def argumentValueAt (host : Host V) (s : Signature) (i : Nat) (e : Expr V) (site : Site)
    (env : Env V) : Except EvalError (Value V) :=
  if s.kindAt i = some .expression then .ok (.expression e) else e.evaluateAt host (i :: site) env

/-- The values of the arguments from position `i` on, from left to right, up to the first error. -/
def argumentValues (host : Host V) (s : Signature) (i : Nat) (site : Site) (env : Env V) :
    List (Expr V) → Except EvalError (List (Value V))
  | [] => .ok []
  | e :: rest =>
    match e.argumentValueAt host s i site env with
    | .error err => .error err
    | .ok v => (argumentValues host s (i + 1) site env rest).map (v :: ·)

/-- The arguments of a call and their values fail alike, or else are taken alike. -/
theorem evaluateArguments_cases (host : Host V) (s : Signature) (i : Nat) (es : List (Expr V))
    (site : Site) (env : Env V) :
    (∃ err, evaluateArguments host s i es site env = .error err ∧
      argumentValues host s i site env es = .error err) ∨
    ∃ arguments values, evaluateArguments host s i es site env = .ok arguments ∧
      argumentValues host s i site env es = .ok values ∧
      s.Alike i arguments (Argument.ofValues host site i values) := by
  induction es generalizing i with
  | nil => exact .inr ⟨[], [], evaluateArguments_nil s i site env, rfl, .nil i⟩
  | cons e es ih =>
    rw [evaluateArguments_cons, argumentValues, argumentValueAt]
    by_cases hkind : s.kindAt i = some .expression
    · rw [argumentAt_of_deferred hkind, if_pos hkind]
      rcases ih (i + 1) with ⟨err, harguments, hvalues⟩ | ⟨arguments, values, harguments, hvalues, h⟩
      · exact .inl ⟨err, by rw [harguments]; rfl, by rw [hvalues]; rfl⟩
      · exact .inr ⟨_, _, by rw [harguments]; rfl, by rw [hvalues]; rfl, .cons (.refl _ _) h⟩
    · rw [argumentAt_of_evaluated hkind, if_neg hkind]
      cases e.evaluateAt host (i :: site) env with
      | error err => exact .inl ⟨err, rfl, rfl⟩
      | ok v =>
        have hfirst := v.alike_toArgument host (i :: site) hkind
        rcases ih (i + 1) with ⟨err, harguments, hvalues⟩ | ⟨arguments, values, harguments, hvalues, h⟩
        · exact .inl ⟨err, by rw [harguments]; rfl, by rw [hvalues]; rfl⟩
        · exact .inr ⟨_, _, by rw [harguments]; rfl, by rw [hvalues]; rfl, .cons hfirst h⟩

theorem callMethodAt_eq {o : V.Object} {m : Method V} {name : String}
    (hfound : (host.methods o).find? name = some m) (arguments : List (Expr V)) (index : Nat)
    (site : Site) (env : Env V) :
    callMethodAt host o m name arguments index site env =
      (argumentValues host m.signature 0 site env arguments).bind fun values =>
        callResult name index (host.invokeMethodAt o name site values) := by
  unfold callMethodAt
  rcases evaluateArguments_cases host m.signature 0 arguments site env with
    ⟨err, harguments, hvalues⟩ | ⟨taken, values, harguments, hvalues, halike⟩
  · rw [harguments, hvalues]
    rfl
  · rw [harguments, hvalues]
    simp only [Except.bind, Host.invokeMethodAt, hfound, Method.call_congr halike]

end Expr

/-! ## Method calls -/

theorem evaluateAt_found {host : Host V} {parent : Expr V} {name : String}
    {arguments : List (Expr V)} {site : Site} {env : Env V} {o : V.Object} {m : Method V}
    (hparent : parent.evaluateAt host (arguments.length :: site) env = .ok (.object o))
    (hfound : (host.methods o).find? name = some m) (index : Nat) :
    (Expr.method parent name arguments index).evaluateAt host site env =
      (Expr.argumentValues host m.signature 0 site env arguments).bind fun values =>
        callResult name index (host.invokeMethodAt o name site values) := by
  have hmethod : (Value.object o).method host name = .ok (o, m) := by
    simp only [Value.method, hfound]
  rw [Expr.evaluateAt_method, hparent, ← Expr.callMethodAt_eq hfound]
  simp only [Except.bind, hmethod]

theorem Host.invokeMethodAt_of_foreign {host : Host V} {o : V.Object} {name : String} {m : Method V}
    (hfound : (host.methods o).find? name = some m) (hforeign : m.bind o = none) (site : Site)
    (values : List (Value V)) :
    host.invokeMethodAt o name site values =
      .error (.argumentType 0 .object (V.typeName o)) := by
  simp only [invokeMethodAt, hfound, Method.call, hforeign]

/-- What a method call evaluates to, by what its parent, its arguments and the method answer. -/
structure Dispatches (host : Host V) (parent : Expr V) (name : String) (arguments : List (Expr V))
    (index : Nat) (site : Site) (env : Env V) (outcome : Except EvalError (Value V)) : Prop where
  parent_error : ∀ err, parent.evaluateAt host (arguments.length :: site) env = .error err →
    outcome = .error err
  /-- Only objects have methods. -/
  no_object : ∀ v, parent.evaluateAt host (arguments.length :: site) env = .ok v →
    (∀ o, v ≠ .object o) → outcome = .error (.call name (.methodNotFound name v.typeName))
  /-- The arguments are not looked at. -/
  no_method : ∀ o, parent.evaluateAt host (arguments.length :: site) env = .ok (.object o) →
    (host.methods o).find? name = none →
    outcome = .error (.call name (.methodNotFound name (V.typeName o)))
  argument_error : ∀ o m err,
    parent.evaluateAt host (arguments.length :: site) env = .ok (.object o) →
    (host.methods o).find? name = some m →
    Expr.argumentValues host m.signature 0 site env arguments = .error err → outcome = .error err
  /-- The method is called with the values of the arguments, as a host calls it. -/
  called : ∀ o m values,
    parent.evaluateAt host (arguments.length :: site) env = .ok (.object o) →
    (host.methods o).find? name = some m →
    Expr.argumentValues host m.signature 0 site env arguments = .ok values →
    (∀ err, host.invokeMethodAt o name site values = .error err →
      outcome = .error (.call name err)) ∧
    (∀ results, host.invokeMethodAt o name site values = .ok results →
      (∀ v, results[index]? = some v → outcome = .ok v) ∧
      (results.length ≤ index →
        outcome = .error (.call name (.resultIndex index results.length)))) ∧
    (m.bind o = none →
      host.invokeMethodAt o name site values = .error (.argumentType 0 .object (V.typeName o)))

/-- The evaluator calls a method as a host does with the values of the arguments. -/
theorem evaluate_method_call (host : Host V) (parent : Expr V) (name : String)
    (arguments : List (Expr V)) (index : Nat) (site : Site) (env : Env V) :
    Dispatches host parent name arguments index site env
      ((Expr.method parent name arguments index).evaluateAt host site env) where
  parent_error err hparent := by
    rw [Expr.evaluateAt_method, hparent]
    rfl
  no_object v hparent hv := by
    rw [Expr.evaluateAt_method, hparent]
    cases v with
    | object o => exact absurd rfl (hv o)
    | _ => rfl
  no_method o hparent hnone := by
    rw [Expr.evaluateAt_method, hparent]
    simp only [Except.bind, Value.method, hnone]
    rfl
  argument_error o m err hparent hfound hvalues := by
    rw [evaluateAt_found hparent hfound, hvalues]
    rfl
  called o m values hparent hfound hvalues := by
    rw [evaluateAt_found hparent hfound, hvalues]
    refine ⟨fun err herror => ?_, fun results hresults => ⟨fun v hv => ?_, fun hindex => ?_⟩,
      fun hforeign => Host.invokeMethodAt_of_foreign hfound hforeign site values⟩
    · simp only [Except.bind, herror, callResult]
    · simp only [Except.bind, hresults, callResult, selectResult, hv]
    · have hnone : results[index]? = none := List.getElem?_eq_none hindex
      simp only [Except.bind, hresults, callResult, selectResult, hnone]

/-- The arguments are evaluated before the receiver is found to be foreign. -/
example :
    let call (argument : Expr Demo.vocabulary) :=
      (Expr.method (.literal (.object Demo.Object.odd)) "Plus" [argument] 0).evaluate Demo.host
        Table.empty
    call (.literal .nil) = .error (.call "Plus" (.argumentType 0 .object "int64")) ∧
      call (.lookup "x") = .error (.missingValue "x") :=
  ⟨rfl, rfl⟩

end ExprLang
