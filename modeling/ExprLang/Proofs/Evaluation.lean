import ExprLang.Evaluate
import ExprLang.Proofs.Induction

/-!
# The steps of evaluation

What an expression evaluates to is put together from what its parts evaluate to, each part at a site of
its own. The equations here say how, so that a proof about evaluation is an induction over the tree
(`Expr.induct`) with one equation for each shape, and never opens the evaluator.

Main statements: `Expr.evaluateAt_field`, `Expr.evaluateAt_call`, `Expr.evaluateAt_method`,
`Expr.evaluateAt_method_congr`, `Expr.evaluateArguments_congr`.
-/

namespace ExprLang

variable {V : Vocabulary} {host : Host V}

theorem Value.find?_of_method {v : Value V} {name : String} {o : V.Object} {m : Method V}
    (h : v.method host name = .ok (o, m)) : (host.methods o).find? name = some m := by
  unfold method at h
  cases v with
  | object o' =>
    simp only at h
    cases hfind : (host.methods o').find? name with
    | none =>
      rw [hfind] at h
      cases h
    | some m' =>
      rw [hfind] at h
      cases h
      exact hfind
  | _ => cases h

namespace Expr

/-! ## One equation for each shape -/

theorem evaluateAt_field (host : Host V) (parent : Expr V) (name : String) (site : Site)
    (env : Env V) :
    (Expr.field parent name).evaluateAt host site env =
      (parent.evaluateAt host (0 :: site) env).bind fun v => v.property host name := by
  rw [evaluateAt]
  cases parent.evaluateAt host (0 :: site) env <;> rfl

theorem evaluateAt_call (host : Host V) (f : Function V) (arguments : List (Expr V)) (index : Nat)
    (site : Site) (env : Env V) :
    (Expr.call f arguments index).evaluateAt host site env =
      (evaluateArguments host (f.signature host) 0 arguments site env).bind fun args =>
        callResult f.name index ((f.native host).call site args) := by
  rw [evaluateAt]
  cases evaluateArguments host (f.signature host) 0 arguments site env <;> rfl

/-- The call of a method that was found, with what its arguments evaluate to. -/
def callMethodAt (host : Host V) (o : V.Object) (m : Method V) (name : String)
    (arguments : List (Expr V)) (index : Nat) (site : Site) (env : Env V) :
    Except EvalError (Value V) :=
  (evaluateArguments host m.signature 0 arguments site env).bind fun args =>
    callResult name index (m.call o site args)

theorem evaluateAt_method (host : Host V) (parent : Expr V) (name : String)
    (arguments : List (Expr V)) (index : Nat) (site : Site) (env : Env V) :
    (Expr.method parent name arguments index).evaluateAt host site env =
      (parent.evaluateAt host (arguments.length :: site) env).bind fun v =>
        (v.method host name).bind fun found =>
          callMethodAt host found.1 found.2 name arguments index site env := by
  rw [evaluateAt]
  cases parent.evaluateAt host (arguments.length :: site) env with
  | error e => rfl
  | ok v =>
    show _ = (v.method host name).bind _
    cases hfound : v.method host name with
    | error e => simp only [hfound, Except.bind]
    | ok found =>
      obtain ⟨o, m⟩ := found
      simp only [hfound, Except.bind, callMethodAt]
      cases evaluateArguments host m.signature 0 arguments site env <;> rfl

/-- Calls of methods agree if the parents do and then, for whatever method is found, the calls of it. -/
theorem evaluateAt_method_congr {parent parent' : Expr V} {name : String}
    {arguments arguments' : List (Expr V)} {index : Nat} {site site' : Site} {env env' : Env V}
    (hparent : parent.evaluateAt host (arguments.length :: site) env =
      parent'.evaluateAt host (arguments'.length :: site') env')
    (hcall : ∀ o m, (host.methods o).find? name = some m →
      callMethodAt host o m name arguments index site env =
        callMethodAt host o m name arguments' index site' env') :
    (Expr.method parent name arguments index).evaluateAt host site env =
      (Expr.method parent' name arguments' index).evaluateAt host site' env' := by
  rw [evaluateAt_method, evaluateAt_method, hparent]
  cases parent'.evaluateAt host (arguments'.length :: site') env' with
  | error e => rfl
  | ok v =>
    simp only [Except.bind]
    cases hfound : v.method host name with
    | error e => rfl
    | ok found => exact hcall found.1 found.2 (Value.find?_of_method hfound)

/-! ## Arguments -/

/-- What a call is given for the argument at a position, counted from zero. -/
def argumentAt (host : Host V) (s : Signature) (i : Nat) (e : Expr V) (site : Site) (env : Env V) :
    Except EvalError (Argument V) :=
  if s.kindAt i = some .expression then .ok (.deferred ⟨e, e.evaluateAt host (i :: site)⟩)
  else (e.evaluateAt host (i :: site) env).map .value

theorem argumentAt_of_deferred {s : Signature} {i : Nat} (h : s.kindAt i = some .expression)
    (e : Expr V) (site : Site) (env : Env V) :
    e.argumentAt host s i site env = .ok (.deferred ⟨e, e.evaluateAt host (i :: site)⟩) :=
  if_pos h

theorem argumentAt_of_evaluated {s : Signature} {i : Nat} (h : s.kindAt i ≠ some .expression)
    (e : Expr V) (site : Site) (env : Env V) :
    e.argumentAt host s i site env = (e.evaluateAt host (i :: site) env).map .value :=
  if_neg h

theorem argumentAt_congr {s : Signature} {i : Nat} {e : Expr V} {site site' : Site}
    {env env' : Env V}
    (hmeaning : s.kindAt i = some .expression →
      e.evaluateAt host (i :: site) = e.evaluateAt host (i :: site'))
    (hvalue : s.kindAt i ≠ some .expression →
      e.evaluateAt host (i :: site) env = e.evaluateAt host (i :: site') env') :
    e.argumentAt host s i site env = e.argumentAt host s i site' env' := by
  by_cases hkind : s.kindAt i = some .expression
  · rw [argumentAt_of_deferred hkind, argumentAt_of_deferred hkind, hmeaning hkind]
  · rw [argumentAt_of_evaluated hkind, argumentAt_of_evaluated hkind, hvalue hkind]

theorem evaluateArguments_nil (s : Signature) (i : Nat) (site : Site) (env : Env V) :
    evaluateArguments host s i [] site env = .ok [] := by
  rw [evaluateArguments]

theorem evaluateArguments_cons (s : Signature) (i : Nat) (e : Expr V) (es : List (Expr V))
    (site : Site) (env : Env V) :
    evaluateArguments host s i (e :: es) site env =
      (e.argumentAt host s i site env).bind fun a =>
        (evaluateArguments host s (i + 1) es site env).map (a :: ·) := by
  rw [evaluateArguments, argumentAt]
  split
  · cases evaluateArguments host s (i + 1) es site env <;> rfl
  · cases e.evaluateAt host (i :: site) env with
    | error err => rfl
    | ok v => cases evaluateArguments host s (i + 1) es site env <;> rfl

theorem evaluateArguments_congr {s : Signature} {i : Nat} {es : List (Expr V)} {site site' : Site}
    {env env' : Env V}
    (h : ∀ (j : Nat) (e : Expr V), es[j]? = some e →
      e.argumentAt host s (i + j) site env = e.argumentAt host s (i + j) site' env') :
    evaluateArguments host s i es site env = evaluateArguments host s i es site' env' := by
  induction es generalizing i with
  | nil => rw [evaluateArguments_nil, evaluateArguments_nil]
  | cons e es ih =>
    have hfirst : e.argumentAt host s i site env = e.argumentAt host s i site' env' := h 0 e rfl
    have hothers : evaluateArguments host s (i + 1) es site env =
        evaluateArguments host s (i + 1) es site' env' := by
      refine ih fun j e' he' => ?_
      rw [Nat.add_right_comm, Nat.add_assoc]
      exact h (j + 1) e' he'
    rw [evaluateArguments_cons, evaluateArguments_cons, hfirst, hothers]

end Expr

end ExprLang
