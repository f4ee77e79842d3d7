import ExprLang.Proofs.Evaluation

/-!
# The order of evaluation

The steps of evaluating a tree stand in a list, in order: what a step works on comes before it, and
arguments come from left to right. A method is found before its arguments are looked at. An argument
that is handed over unevaluated has no steps.

The list has all the steps of a tree, also those that are never reached, and a step behind a failure may
well fail too. What is evaluated is what the steps report in turn.

Main statements: `Expr.evaluate_eq_error_iff`, `Expr.raises_of_failed`.
-/

namespace ExprLang

variable {V : Vocabulary} {host : Host V} {env : Env V}

/-! ## Steps -/

inductive Action (V : Vocabulary) where
  | literal
  | lookup (name : String)
  | property (name : String)
  | findMethod (name : String)
  | callFunction (f : Function V)
  | callMethod (name : String)

/-- The errors that an action can report. That of a call names what was called. -/
inductive Action.Raises : Action V → EvalError → Prop where
  | lookup (name : String) : Raises (.lookup name) (.missingValue name)
  | property (name typeName : String) : Raises (.property name) (.missingProperty name typeName)
  | findMethod (name typeName : String) :
      Raises (.findMethod name) (.call name (.methodNotFound name typeName))
  | callFunction (f : Function V) (cause : InvokeError) :
      Raises (.callFunction f) (.call f.name cause)
  | callMethod (name : String) (cause : InvokeError) :
      Raises (.callMethod name) (.call name cause)

/-- How a step ends. It is not reached if something that it works on has no value. -/
inductive Ending where
  | done
  | failed (e : EvalError)
  | unreached

namespace Ending

variable {α β : Type}

def of : Except EvalError α → Ending
  | .ok _ => done
  | .error e => failed e

/-- The ending of what is done with an input, if there is one. -/
def after (input : Except EvalError α) (act : α → Except EvalError β) : Ending :=
  match input with
  | .ok a => of (act a)
  | .error _ => unreached

theorem of_eq_failed_iff {x : Except EvalError α} {err : EvalError} :
    of x = failed err ↔ x = .error err := by
  cases x with
  | ok a => exact ⟨nofun, nofun⟩
  | error e => simp [of]

theorem exists_of_after_eq_failed {input : Except EvalError α} {act : α → Except EvalError β}
    {err : EvalError} (h : after input act = failed err) : ∃ a, act a = .error err := by
  cases input with
  | ok a => exact ⟨a, of_eq_failed_iff.mp h⟩
  | error e => cases h

end Ending

/-- A step, at the site of the tree that it belongs to. -/
structure EvalStep (V : Vocabulary) where
  site : Site
  action : Action V
  ending : Ending

/-- The signature by which the arguments of a method are taken. No method is found, no argument is
unevaluated. -/
def methodSignature (found : Except EvalError (V.Object × Method V)) : Signature :=
  match found with
  | .ok (_, m) => m.signature
  | .error _ => .empty

/-- The ending of the call of a method that was found or not. -/
def methodEnding (host : Host V) (found : Except EvalError (V.Object × Method V)) (name : String)
    (arguments : List (Expr V)) (index : Nat) (site : Site) (env : Env V) : Ending :=
  match found with
  | .ok (o, m) =>
    .after (Expr.evaluateArguments host m.signature 0 arguments site env) fun args =>
      callResult name index (m.call o site args)
  | .error _ => .unreached

mutual

/-- The steps of evaluating a tree, in order. -/
def Expr.stepsAt (host : Host V) : Expr V → Site → Env V → List (EvalStep V)
  | .literal _, site, _ => [⟨site, .literal, .done⟩]
  | .lookup name, site, env => [⟨site, .lookup name, .of (env.value name)⟩]
  | .field parent name, site, env =>
    Expr.stepsAt host parent (0 :: site) env ++
      [⟨site, .property name, .after (parent.evaluateAt host (0 :: site) env) fun v =>
        v.property host name⟩]
  | .call f arguments index, site, env =>
    Expr.argumentSteps host (f.signature host) 0 arguments site env ++
      [⟨site, .callFunction f,
        .after (Expr.evaluateArguments host (f.signature host) 0 arguments site env) fun args =>
          callResult f.name index ((f.native host).call site args)⟩]
  | .method parent name arguments index, site, env =>
    let receiver := parent.evaluateAt host (arguments.length :: site) env
    let found := receiver.bind fun v => v.method host name
    Expr.stepsAt host parent (arguments.length :: site) env ++
      ([⟨site, .findMethod name, .after receiver fun v => v.method host name⟩] ++
        (Expr.argumentSteps host (methodSignature found) 0 arguments site env ++
          [⟨site, .callMethod name, methodEnding host found name arguments index site env⟩]))
termination_by structural x => x

def Expr.argumentSteps (host : Host V) (s : Signature) (i : Nat) :
    List (Expr V) → Site → Env V → List (EvalStep V)
  | [], _, _ => []
  | e :: rest, site, env =>
    (if s.kindAt i = some .expression then [] else Expr.stepsAt host e (i :: site) env) ++
      Expr.argumentSteps host s (i + 1) rest site env
termination_by structural x => x

end

def Expr.steps (host : Host V) (e : Expr V) (env : Env V) : List (EvalStep V) :=
  e.stepsAt host [] env

/-- The first step that is not done fails with an error. -/
structure FailsAt (steps before : List (EvalStep V)) (s : EvalStep V) (after : List (EvalStep V))
    (err : EvalError) : Prop where
  split : steps = before ++ s :: after
  done : ∀ t ∈ before, t.ending = .done
  failed : s.ending = .failed err

/-- All steps are done if there is a result, else the first that is not done fails with the error. -/
def Reports {α : Type} (steps : List (EvalStep V)) : Except EvalError α → Prop
  | .ok _ => ∀ t ∈ steps, t.ending = .done
  | .error err => ∃ before s after, FailsAt steps before s after err

section Reports

variable {α β : Type} {L M : List (EvalStep V)} {x : Except EvalError α}

theorem FailsAt.append_right {before after : List (EvalStep V)} {s : EvalStep V} {err : EvalError}
    (h : FailsAt L before s after err) (M : List (EvalStep V)) :
    FailsAt (L ++ M) before s (after ++ M) err where
  split := by rw [h.split, List.append_assoc, List.cons_append]
  done := h.done
  failed := h.failed

theorem FailsAt.append_left {before after : List (EvalStep V)} {s : EvalStep V} {err : EvalError}
    (h : FailsAt M before s after err) (hdone : ∀ t ∈ L, t.ending = .done) :
    FailsAt (L ++ M) (L ++ before) s after err where
  split := by rw [h.split, List.append_assoc]
  done t ht := (List.mem_append.mp ht).elim (hdone t) (h.done t)
  failed := h.failed

theorem FailsAt.of_append {before after : List (EvalStep V)} {s : EvalStep V} {err : EvalError}
    (h : FailsAt (L ++ M) before s after err) :
    (∃ after₁, FailsAt L before s after₁ err) ∨
      (∃ before₂, before = L ++ before₂ ∧ (∀ t ∈ L, t.ending = .done) ∧
        FailsAt M before₂ s after err) := by
  rcases List.append_eq_append_iff.mp h.split with ⟨K, hbefore, hM⟩ | ⟨K, hL, hafter⟩
  · refine .inr ⟨K, hbefore, fun t ht => h.done t ?_, hM, fun t ht => h.done t ?_, h.failed⟩
    · exact hbefore ▸ List.mem_append_left K ht
    · exact hbefore ▸ List.mem_append_right L ht
  · cases K with
    | nil =>
      rw [List.append_nil] at hL
      exact .inr ⟨[], by rw [hL, List.append_nil], hL ▸ h.done, hafter.symm,
        List.forall_mem_nil _, h.failed⟩
    | cons t K =>
      obtain ⟨rfl, -⟩ := List.cons.inj hafter
      exact .inl ⟨K, hL, h.done, h.failed⟩

theorem FailsAt.mem {steps before after : List (EvalStep V)} {s : EvalStep V} {err : EvalError}
    (h : FailsAt steps before s after err) : s ∈ steps := by
  rw [h.split]
  exact List.mem_append_right before List.mem_cons_self

theorem FailsAt.not_done {before after : List (EvalStep V)} {s : EvalStep V} {err : EvalError}
    (h : FailsAt L before s after err) : ¬ ∀ t ∈ L, t.ending = .done := by
  intro hdone
  have hs : s.ending = .done := hdone s h.mem
  rw [h.failed] at hs
  cases hs

theorem FailsAt.error_eq {before after before' after' : List (EvalStep V)} {s s' : EvalStep V}
    {err err' : EvalError} (h : FailsAt L before s after err)
    (h' : FailsAt L before' s' after' err') : err = err' := by
  rw [h.split] at h'
  rcases h'.of_append with ⟨_, h'⟩ | ⟨K, -, -, h'⟩
  · exact absurd h.done h'.not_done
  · cases K with
    | nil =>
      have hs : s = s' := (List.cons.inj h'.split).1
      have hboth : Ending.failed err = .failed err' := by rw [← h.failed, ← h'.failed, hs]
      exact Ending.failed.inj hboth
    | cons t K =>
      have hs : s = t := (List.cons.inj h'.split).1
      have hdone : s.ending = .done := hs ▸ h'.done t List.mem_cons_self
      rw [h.failed] at hdone
      cases hdone

theorem Reports.eq_error {before after : List (EvalStep V)} {s : EvalStep V} {err : EvalError}
    (h : Reports L x) (hfails : FailsAt L before s after err) : x = .error err := by
  cases x with
  | ok a => exact absurd h hfails.not_done
  | error err' =>
    obtain ⟨_, _, _, h⟩ := h
    rw [h.error_eq hfails]

theorem Reports.exists_eq_ok (h : Reports L x) (hdone : ∀ t ∈ L, t.ending = .done) :
    ∃ a, x = .ok a := by
  cases x with
  | ok a => exact ⟨a, rfl⟩
  | error err =>
    obtain ⟨_, _, _, h⟩ := h
    exact absurd hdone h.not_done

theorem reports_of (site : Site) (action : Action V) (x : Except EvalError α) :
    Reports [⟨site, action, .of x⟩] x := by
  cases x with
  | ok a =>
    intro t ht
    rw [List.mem_singleton.mp ht]
    rfl
  | error err => exact ⟨[], _, [], rfl, List.forall_mem_nil _, rfl⟩

theorem reports_nil (a : α) : Reports ([] : List (EvalStep V)) (.ok a) :=
  List.forall_mem_nil _

/-- What goes on with a result has the further steps. -/
theorem Reports.bind {k : α → Except EvalError β} (h : Reports L x)
    (hk : ∀ a, x = .ok a → Reports M (k a)) : Reports (L ++ M) (x.bind k) := by
  cases x with
  | error err =>
    obtain ⟨before, s, after, h⟩ := h
    exact ⟨before, s, after ++ M, h.append_right M⟩
  | ok a =>
    have hM : Reports M (k a) := hk a rfl
    show Reports (L ++ M) (k a)
    cases hka : k a with
    | ok b =>
      rw [hka] at hM
      exact fun t ht => (List.mem_append.mp ht).elim (h t) (hM t)
    | error err =>
      rw [hka] at hM
      obtain ⟨before, s, after, hM⟩ := hM
      exact ⟨L ++ before, s, after, hM.append_left h⟩

theorem Reports.map {f : α → β} (h : Reports L x) : Reports L (x.map f) := by
  cases x with
  | ok a => exact h
  | error err => exact h

end Reports

namespace Expr

/-! ## Evaluation reports its steps -/

theorem argumentSteps_cons (s : Signature) (i : Nat) (e : Expr V) (rest : List (Expr V))
    (site : Site) (env : Env V) :
    argumentSteps host s i (e :: rest) site env =
      (if s.kindAt i = some .expression then [] else e.stepsAt host (i :: site) env) ++
        argumentSteps host s (i + 1) rest site env := by
  rw [argumentSteps]

theorem reports_argumentSteps {es : List (Expr V)}
    (h : ∀ e ∈ es, ∀ site, Reports (e.stepsAt host site env) (e.evaluateAt host site env))
    (s : Signature) (i : Nat) (site : Site) :
    Reports (argumentSteps host s i es site env) (evaluateArguments host s i es site env) := by
  induction es generalizing i with
  | nil =>
    rw [argumentSteps, evaluateArguments_nil]
    exact reports_nil []
  | cons e rest ih =>
    rw [argumentSteps_cons, evaluateArguments_cons]
    have hrest := ih (fun e he => h e (List.mem_cons_of_mem _ he)) (i + 1)
    refine Reports.bind ?_ fun a _ => hrest.map
    by_cases hkind : s.kindAt i = some .expression
    · rw [if_pos hkind, argumentAt_of_deferred hkind]
      exact reports_nil _
    · rw [if_neg hkind, argumentAt_of_evaluated hkind]
      exact (h e List.mem_cons_self (i :: site)).map

theorem reports_stepsAt (e : Expr V) (site : Site) :
    Reports (e.stepsAt host site env) (e.evaluateAt host site env) := by
  induction e using induct generalizing site with
  | literal v =>
    rw [stepsAt, evaluateAt]
    exact reports_of site .literal (.ok v)
  | lookup name =>
    rw [stepsAt, evaluateAt]
    exact reports_of site (.lookup name) (env.value name)
  | field parent name ih =>
    rw [stepsAt, evaluateAt_field]
    refine (ih (0 :: site)).bind fun v hv => ?_
    rw [hv]
    exact reports_of site (.property name) (v.property host name)
  | call f arguments index ih =>
    rw [stepsAt, evaluateAt_call]
    refine (reports_argumentSteps ih (f.signature host) 0 site).bind fun args hargs => ?_
    rw [hargs]
    exact reports_of site (.callFunction f) _
  | method parent name arguments index ihparent ih =>
    rw [stepsAt, evaluateAt_method]
    refine (ihparent (arguments.length :: site)).bind fun v hv => ?_
    rw [hv]
    refine (reports_of site (.findMethod name) (v.method host name)).bind fun found hfound => ?_
    simp only [Except.bind, hfound]
    refine (reports_argumentSteps ih found.2.signature 0 site).bind fun args hargs => ?_
    rw [methodEnding, hargs]
    exact reports_of site (.callMethod name) _

/-- Evaluation fails exactly like the first step that is not done. -/
theorem evaluate_eq_error_iff (host : Host V) (e : Expr V) (env : Env V) (err : EvalError) :
    e.evaluate host env = .error err ↔
      ∃ before s after, FailsAt (e.steps host env) before s after err := by
  have hreports : Reports (e.steps host env) (e.evaluate host env) := reports_stepsAt e []
  constructor
  · intro h
    rw [h] at hreports
    exact hreports
  · rintro ⟨before, s, after, hfails⟩
    exact hreports.eq_error hfails

/-! ## Where steps are and what they raise -/

theorem exists_of_mem_argumentSteps {s : Signature} {i : Nat} {es : List (Expr V)} {site : Site}
    {t : EvalStep V} (h : t ∈ argumentSteps host s i es site env) :
    ∃ j e, i ≤ j ∧ j < i + es.length ∧ e ∈ es ∧ t ∈ e.stepsAt host (j :: site) env := by
  induction es generalizing i with
  | nil =>
    rw [argumentSteps] at h
    cases h
  | cons e rest ih =>
    rw [argumentSteps_cons] at h
    rcases List.mem_append.mp h with h | h
    · split at h
      · cases h
      · exact ⟨i, e, Nat.le_refl i, by rw [List.length_cons]; omega, List.mem_cons_self, h⟩
    · obtain ⟨j, e', hij, hj, he', ht⟩ := ih h
      exact ⟨j, e', by omega, by rw [List.length_cons]; omega, List.mem_cons_of_mem e he', ht⟩

theorem suffix_of_mem_stepsAt {e : Expr V} {site : Site} {t : EvalStep V}
    (h : t ∈ e.stepsAt host site env) : site <:+ t.site := by
  induction e using induct generalizing site with
  | literal v =>
    rw [stepsAt, List.mem_singleton] at h
    exact h ▸ List.suffix_refl site
  | lookup name =>
    rw [stepsAt, List.mem_singleton] at h
    exact h ▸ List.suffix_refl site
  | field parent name ih =>
    rw [stepsAt, List.mem_append, List.mem_singleton] at h
    rcases h with h | rfl
    · exact (List.suffix_cons 0 site).trans (ih h)
    · exact List.suffix_refl site
  | call f arguments index ih =>
    rw [stepsAt, List.mem_append, List.mem_singleton] at h
    rcases h with h | rfl
    · obtain ⟨j, e, -, -, he, ht⟩ := exists_of_mem_argumentSteps h
      exact (List.suffix_cons j site).trans (ih e he ht)
    · exact List.suffix_refl site
  | method parent name arguments index ihparent ih =>
    rw [stepsAt, List.mem_append, List.mem_append, List.mem_append, List.mem_singleton,
      List.mem_singleton] at h
    rcases h with h | rfl | h | rfl
    · exact (List.suffix_cons _ site).trans (ihparent h)
    · exact List.suffix_refl site
    · obtain ⟨j, e, -, -, he, ht⟩ := exists_of_mem_argumentSteps h
      exact (List.suffix_cons j site).trans (ih e he ht)
    · exact List.suffix_refl site

/-- Every evaluated tree has a step of its own. -/
theorem exists_mem_stepsAt (host : Host V) (e : Expr V) (site : Site) (env : Env V) :
    ∃ t ∈ e.stepsAt host site env, t.site = site := by
  have hlast : ∃ steps t, e.stepsAt host site env = steps ++ [t] ∧ t.site = site := by
    cases e with
    | literal v => exact ⟨[], _, by rw [stepsAt]; rfl, rfl⟩
    | lookup name => exact ⟨[], _, by rw [stepsAt]; rfl, rfl⟩
    | field parent name => exact ⟨_, _, by rw [stepsAt], rfl⟩
    | call f arguments index => exact ⟨_, _, by rw [stepsAt], rfl⟩
    | method parent name arguments index =>
      exact ⟨_, _, by rw [stepsAt, ← List.append_assoc, ← List.append_assoc], rfl⟩
  obtain ⟨steps, t, hsteps, ht⟩ := hlast
  exact ⟨t, by rw [hsteps]; exact List.mem_append_right steps List.mem_cons_self, ht⟩

end Expr

/-! ### Errors of a single step -/

theorem Env.raises_of_value {name : String} {err : EvalError} (h : env.value name = .error err) :
    Action.Raises (.lookup name : Action V) err := by
  unfold value at h
  split at h
  · cases h
  · split at h
    · cases h
    · cases h
      exact .lookup name

theorem Value.raises_of_property {v : Value V} {name : String} {err : EvalError}
    (h : v.property host name = .error err) : Action.Raises (.property name : Action V) err := by
  unfold property at h
  split at h
  · cases h
  · split at h
    · cases h
    · cases h
      exact .property name v.typeName

theorem Value.raises_of_method {v : Value V} {name : String} {err : EvalError}
    (h : v.method host name = .error err) : Action.Raises (.findMethod name : Action V) err := by
  unfold method at h
  cases v with
  | object o =>
    simp only at h
    cases hfind : (host.methods o).find? name with
    | some m =>
      rw [hfind] at h
      cases h
    | none =>
      rw [hfind] at h
      cases h
      exact .findMethod name (V.typeName o)
  | _ =>
    cases h
    exact .findMethod name _

theorem exists_of_callResult {name : String} {index : Nat}
    {outcome : Except InvokeError (List (Value V))} {err : EvalError}
    (h : callResult name index outcome = .error err) : ∃ cause, err = .call name cause := by
  unfold callResult at h
  split at h
  · rename_i e
    exact ⟨e, (Except.error.inj h).symm⟩
  · split at h
    · cases h
    · rename_i e _
      exact ⟨e, (Except.error.inj h).symm⟩

theorem raises_of_methodEnding {found : Except EvalError (V.Object × Method V)} {name : String}
    {arguments : List (Expr V)} {index : Nat} {site : Site} {err : EvalError}
    (h : methodEnding host found name arguments index site env = .failed err) :
    Action.Raises (.callMethod name : Action V) err := by
  unfold methodEnding at h
  split at h
  · obtain ⟨args, hargs⟩ := Ending.exists_of_after_eq_failed h
    obtain ⟨cause, rfl⟩ := exists_of_callResult hargs
    exact .callMethod name cause
  · cases h

theorem Expr.raises_of_failed {e : Expr V} {site : Site} {t : EvalStep V} {err : EvalError}
    (h : t ∈ e.stepsAt host site env) (hfailed : t.ending = .failed err) : t.action.Raises err := by
  induction e using induct generalizing site with
  | literal v =>
    rw [stepsAt, List.mem_singleton] at h
    subst h
    cases hfailed
  | lookup name =>
    rw [stepsAt, List.mem_singleton] at h
    subst h
    exact Env.raises_of_value (Ending.of_eq_failed_iff.mp hfailed)
  | field parent name ih =>
    rw [stepsAt, List.mem_append, List.mem_singleton] at h
    rcases h with h | rfl
    · exact ih h
    · obtain ⟨v, hv⟩ := Ending.exists_of_after_eq_failed hfailed
      exact Value.raises_of_property hv
  | call f arguments index ih =>
    rw [stepsAt, List.mem_append, List.mem_singleton] at h
    rcases h with h | rfl
    · obtain ⟨_, e, -, -, he, ht⟩ := exists_of_mem_argumentSteps h
      exact ih e he ht
    · obtain ⟨args, hargs⟩ := Ending.exists_of_after_eq_failed hfailed
      obtain ⟨cause, rfl⟩ := exists_of_callResult hargs
      exact .callFunction f cause
  | method parent name arguments index ihparent ih =>
    rw [stepsAt, List.mem_append, List.mem_append, List.mem_append, List.mem_singleton,
      List.mem_singleton] at h
    rcases h with h | rfl | h | rfl
    · exact ihparent h
    · obtain ⟨v, hv⟩ := Ending.exists_of_after_eq_failed hfailed
      exact Value.raises_of_method hv
    · obtain ⟨_, e, -, -, he, ht⟩ := exists_of_mem_argumentSteps h
      exact ih e he ht
    · exact raises_of_methodEnding hfailed

end ExprLang
