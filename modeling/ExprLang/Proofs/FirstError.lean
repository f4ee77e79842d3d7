import ExprLang.Proofs.Steps
import ExprLang.Registry

/-!
# The first error

Evaluation fails like the first step that fails, with the error of that step, whatever the step is
nested in. What comes later has no say: parts of the tree that are only evaluated behind that step can be
anything.

Main statement: `Expr.evaluate_first_error`.
-/

namespace ExprLang

variable {V : Vocabulary} {host : Host V} {env : Env V}

/-! ## Replacing parts of a tree -/

mutual

/-- The tree with other parts at some sites. -/
def Expr.replaceAt (g : Site → Option (Expr V)) : Expr V → Site → Expr V
  | .literal v, site => (g site).getD (.literal v)
  | .lookup name, site => (g site).getD (.lookup name)
  | .field parent name, site => (g site).getD (.field (Expr.replaceAt g parent (0 :: site)) name)
  | .call f arguments index, site =>
    (g site).getD (.call f (Expr.replaceArguments g 0 arguments site) index)
  | .method parent name arguments index, site =>
    (g site).getD (.method (Expr.replaceAt g parent (arguments.length :: site)) name
      (Expr.replaceArguments g 0 arguments site) index)
termination_by structural x => x

def Expr.replaceArguments (g : Site → Option (Expr V)) (i : Nat) :
    List (Expr V) → Site → List (Expr V)
  | [], _ => []
  | e :: rest, site =>
    Expr.replaceAt g e (i :: site) :: Expr.replaceArguments g (i + 1) rest site
termination_by structural x => x

end

def Expr.replace (g : Site → Option (Expr V)) (e : Expr V) : Expr V := e.replaceAt g []

/-- None of these steps is in a part that is replaced. -/
def Spared (g : Site → Option (Expr V)) (steps : List (EvalStep V)) : Prop :=
  ∀ q, (g q).isSome = true → ∀ t ∈ steps, ¬ q <:+ t.site

/-- What is replaced at a site or within has steps among these. -/
def Placed (g : Site → Option (Expr V)) (site : Site) (steps : List (EvalStep V)) : Prop :=
  ∀ q, site <:+ q → (g q).isSome = true → ∃ t ∈ steps, t.site = q

/-- Nothing is replaced at a site or within. -/
def Untouched (g : Site → Option (Expr V)) (site : Site) : Prop := ∀ q, site <:+ q → g q = none

/-- The second result follows the first as far as the steps are spared: it is the same if all are, and
it is the first failure if those up to there are. -/
structure Follows {α : Type} (g : Site → Option (Expr V)) (steps : List (EvalStep V))
    (x x' : Except EvalError α) : Prop where
  whole : Spared g steps → x' = x
  stopped : ∀ {before after : List (EvalStep V)} {s : EvalStep V} {err : EvalError},
    FailsAt steps before s after err → Spared g (before ++ [s]) → x' = .error err

section Follows

variable {α β : Type} {g : Site → Option (Expr V)} {L M : List (EvalStep V)}
  {x x' : Except EvalError α}

theorem Spared.left (h : Spared g (L ++ M)) : Spared g L :=
  fun q hq t ht => h q hq t (List.mem_append_left M ht)

theorem Spared.right (h : Spared g (L ++ M)) : Spared g M :=
  fun q hq t ht => h q hq t (List.mem_append_right L ht)

theorem Reports.follows (h : Reports L x) : Follows g L x x where
  whole _ := rfl
  stopped hfails _ := h.eq_error hfails

theorem Follows.bind {k k' : α → Except EvalError β} (h : Follows g L x x') (hx : Reports L x)
    (hk : ∀ a, x = .ok a → Follows g M (k a) (k' a)) :
    Follows g (L ++ M) (x.bind k) (x'.bind k') where
  whole hspared := by
    rw [h.whole hspared.left]
    cases x with
    | error err => rfl
    | ok a => exact (hk a rfl).whole hspared.right
  stopped {before after s err} hfails hspared := by
    rcases hfails.of_append with ⟨after₁, hL⟩ | ⟨before₂, rfl, hdone, hM⟩
    · rw [h.stopped hL hspared]
      rfl
    · rw [List.append_assoc] at hspared
      obtain ⟨a, rfl⟩ := hx.exists_eq_ok hdone
      rw [h.whole hspared.left]
      exact (hk a rfl).stopped hM hspared.right

theorem Follows.map {f : α → β} (h : Follows g L x x') : Follows g L (x.map f) (x'.map f) where
  whole hspared := by rw [h.whole hspared]
  stopped hfails hspared := by
    rw [h.stopped hfails hspared]
    rfl

/-- A part that is replaced has steps, and they are not spared. -/
theorem follows_of_replaced {site : Site} (hg : (g site).isSome = true)
    (hown : ∃ t ∈ L, t.site = site) (hsites : ∀ t ∈ L, site <:+ t.site) : Follows g L x x' where
  whole hspared := by
    obtain ⟨t, ht, -⟩ := hown
    exact absurd (hsites t ht) (hspared site hg t ht)
  stopped {before after s err} hfails hspared :=
    absurd (hsites s hfails.mem) (hspared site hg s (List.mem_append_right before List.mem_cons_self))

theorem Placed.mono {site inner : Site} (h : Placed g site L) (hinner : site <:+ inner) :
    Placed g inner L :=
  fun q hq hg => h q (hinner.trans hq) hg

theorem Placed.left {site : Site} (h : Placed g site (L ++ M)) (hM : ∀ t ∈ M, ¬ site <:+ t.site) :
    Placed g site L := by
  intro q hq hg
  obtain ⟨t, ht, rfl⟩ := h q hq hg
  rcases List.mem_append.mp ht with ht | ht
  · exact ⟨t, ht, rfl⟩
  · exact absurd hq (hM t ht)

theorem Placed.right {site : Site} (h : Placed g site (L ++ M)) (hL : ∀ t ∈ L, ¬ site <:+ t.site) :
    Placed g site M := by
  intro q hq hg
  obtain ⟨t, ht, rfl⟩ := h q hq hg
  rcases List.mem_append.mp ht with ht | ht
  · exact absurd hq (hL t ht)
  · exact ⟨t, ht, rfl⟩

theorem Placed.untouched {site : Site} (h : Placed g site []) : Untouched g site := by
  intro q hq
  cases hg : g q with
  | none => rfl
  | some e =>
    obtain ⟨t, ht, -⟩ := h q hq (by rw [hg]; rfl)
    cases ht

theorem Untouched.self {site : Site} (h : Untouched g site) : g site = none :=
  h site (List.suffix_refl site)

theorem Untouched.inner {site : Site} (h : Untouched g site) (i : Nat) : Untouched g (i :: site) :=
  fun q hq => h q ((List.suffix_cons i site).trans hq)

end Follows

/-! ## Sites -/

theorem not_cons_suffix (i : Nat) (site : Site) : ¬ i :: site <:+ site := by
  intro h
  have hlength := h.length_le
  rw [List.length_cons] at hlength
  omega

/-- What is within the neighbours `i` and `j` is within one neighbour. -/
theorem eq_of_cons_suffix {i j : Nat} {site q : Site} (hi : i :: site <:+ q) (hj : j :: site <:+ q) :
    i = j := by
  have h : i :: site <:+ j :: site := List.suffix_of_suffix_length_le hi hj (by simp)
  exact (List.cons.inj (h.eq_of_length (by simp))).1

namespace Expr

variable {g : Site → Option (Expr V)}

theorem not_suffix_of_mem_argumentSteps {s : Signature} {i j : Nat} {es : List (Expr V)}
    {site : Site} (h : j < i ∨ i + es.length ≤ j) {t : EvalStep V}
    (ht : t ∈ argumentSteps host s i es site env) : ¬ j :: site <:+ t.site := by
  intro hj
  obtain ⟨k, e, hik, hk, -, ht⟩ := exists_of_mem_argumentSteps ht
  have hjk : j = k := eq_of_cons_suffix hj (suffix_of_mem_stepsAt ht)
  omega

/-! ## Trees that are replaced in part -/

theorem replaceArguments_nil (g : Site → Option (Expr V)) (i : Nat) (site : Site) :
    replaceArguments g i [] site = [] := by
  rw [replaceArguments]

theorem replaceArguments_cons (g : Site → Option (Expr V)) (i : Nat) (e : Expr V)
    (rest : List (Expr V)) (site : Site) :
    replaceArguments g i (e :: rest) site =
      e.replaceAt g (i :: site) :: replaceArguments g (i + 1) rest site := by
  rw [replaceArguments]

theorem length_replaceArguments (g : Site → Option (Expr V)) (i : Nat) (es : List (Expr V))
    (site : Site) : (replaceArguments g i es site).length = es.length := by
  induction es generalizing i with
  | nil => rw [replaceArguments_nil]
  | cons e rest ih => rw [replaceArguments_cons, List.length_cons, List.length_cons, ih]

theorem replaceArguments_eq_self {es : List (Expr V)} {i : Nat} {site : Site}
    (h : ∀ e ∈ es, ∀ j, e.replaceAt g (j :: site) = e) : replaceArguments g i es site = es := by
  induction es generalizing i with
  | nil => rw [replaceArguments_nil]
  | cons e rest ih =>
    rw [replaceArguments_cons, h e List.mem_cons_self,
      ih fun e he => h e (List.mem_cons_of_mem _ he)]

theorem replaceAt_eq_self (e : Expr V) {site : Site} (h : Untouched g site) :
    e.replaceAt g site = e := by
  induction e using induct generalizing site with
  | literal v => rw [replaceAt, h.self, Option.getD_none]
  | lookup name => rw [replaceAt, h.self, Option.getD_none]
  | field parent name ih => rw [replaceAt, h.self, Option.getD_none, ih (h.inner 0)]
  | call f arguments index ih =>
    have harguments : replaceArguments g 0 arguments site = arguments :=
      replaceArguments_eq_self fun e he j => ih e he (h.inner j)
    rw [replaceAt, h.self, Option.getD_none, harguments]
  | method parent name arguments index ihparent ih =>
    have harguments : replaceArguments g 0 arguments site = arguments :=
      replaceArguments_eq_self fun e he j => ih e he (h.inner j)
    rw [replaceAt, h.self, Option.getD_none, ihparent (h.inner _), harguments]

theorem follows_replaceArguments {es : List (Expr V)}
    (h : ∀ e ∈ es, ∀ site, Placed g site (e.stepsAt host site env) →
      Follows g (e.stepsAt host site env) (e.evaluateAt host site env)
        ((e.replaceAt g site).evaluateAt host site env))
    {s : Signature} {i : Nat} {site : Site}
    (hplaced : ∀ j, i ≤ j → j < i + es.length →
      Placed g (j :: site) (argumentSteps host s i es site env)) :
    Follows g (argumentSteps host s i es site env) (evaluateArguments host s i es site env)
      (evaluateArguments host s i (replaceArguments g i es site) site env) := by
  induction es generalizing i with
  | nil =>
    rw [argumentSteps, replaceArguments_nil, evaluateArguments_nil]
    exact (reports_nil []).follows
  | cons e rest ih =>
    have hfirst : Placed g (i :: site) (argumentSteps host s i (e :: rest) site env) :=
      hplaced i (Nat.le_refl i) (by rw [List.length_cons]; omega)
    have hrest : Follows g (argumentSteps host s (i + 1) rest site env)
        (evaluateArguments host s (i + 1) rest site env)
        (evaluateArguments host s (i + 1) (replaceArguments g (i + 1) rest site) site env) := by
      refine ih (fun e he => h e (List.mem_cons_of_mem _ he)) fun j hij hj => ?_
      have hj' := hplaced j (by omega) (by rw [List.length_cons]; omega)
      rw [argumentSteps_cons] at hj'
      refine hj'.right fun t ht hsuffix => ?_
      split at ht
      · cases ht
      · have hji : j = i := eq_of_cons_suffix hsuffix (suffix_of_mem_stepsAt ht)
        omega
    rw [argumentSteps_cons] at hfirst ⊢
    replace hfirst := hfirst.left fun t ht => not_suffix_of_mem_argumentSteps (.inl (by omega)) ht
    rw [replaceArguments_cons, evaluateArguments_cons, evaluateArguments_cons]
    by_cases hkind : s.kindAt i = some .expression
    · rw [if_pos hkind] at hfirst ⊢
      -- an argument without steps is as it was, so it is handed over with the same meaning
      rw [replaceAt_eq_self e hfirst.untouched, argumentAt_of_deferred hkind]
      exact (reports_nil _).follows.bind (reports_nil _) fun a _ => hrest.map
    · rw [if_neg hkind] at hfirst ⊢
      rw [argumentAt_of_evaluated hkind, argumentAt_of_evaluated hkind]
      have hhead := h e List.mem_cons_self (i :: site) hfirst
      exact hhead.map.bind (reports_stepsAt e _).map fun a _ => hrest.map

/-- A part that is replaced as a whole follows no worse than one that is replaced within. -/
theorem follows_getD {e e' : Expr V} {site : Site}
    (h : Follows g (e.stepsAt host site env) (e.evaluateAt host site env)
      (e'.evaluateAt host site env)) :
    Follows g (e.stepsAt host site env) (e.evaluateAt host site env)
      (((g site).getD e').evaluateAt host site env) := by
  cases hg : g site with
  | none => exact h
  | some r =>
    have hreplaced : (g site).isSome = true := by rw [hg]; rfl
    exact follows_of_replaced hreplaced (exists_mem_stepsAt host e site env)
      fun _ ht => suffix_of_mem_stepsAt ht

theorem follows_replaceAt (e : Expr V) {site : Site} (h : Placed g site (e.stepsAt host site env)) :
    Follows g (e.stepsAt host site env) (e.evaluateAt host site env)
      ((e.replaceAt g site).evaluateAt host site env) := by
  induction e using induct generalizing site with
  | literal v =>
    rw [replaceAt]
    exact follows_getD (reports_stepsAt _ site).follows
  | lookup name =>
    rw [replaceAt]
    exact follows_getD (reports_stepsAt _ site).follows
  | field parent name ih =>
    rw [replaceAt]
    refine follows_getD ?_
    rw [stepsAt] at h ⊢
    have hparent : Placed g (0 :: site) (parent.stepsAt host (0 :: site) env) := by
      refine (h.mono (List.suffix_cons 0 site)).left fun t ht => ?_
      rw [List.mem_singleton.mp ht]
      exact not_cons_suffix 0 site
    rw [evaluateAt_field, evaluateAt_field]
    refine (ih hparent).bind (reports_stepsAt parent _) fun v hv => ?_
    rw [hv]
    exact (reports_of site (.property name) (v.property host name)).follows
  | call f arguments index ih =>
    rw [replaceAt]
    refine follows_getD ?_
    rw [stepsAt] at h ⊢
    have harguments : ∀ j, Placed g (j :: site)
        (argumentSteps host (f.signature host) 0 arguments site env) := by
      intro j
      refine (h.mono (List.suffix_cons j site)).left fun t ht => ?_
      rw [List.mem_singleton.mp ht]
      exact not_cons_suffix j site
    rw [evaluateAt_call, evaluateAt_call]
    refine (follows_replaceArguments ih fun j _ _ => harguments j).bind
      (reports_argumentSteps (fun e _ => reports_stepsAt e) _ 0 site) fun args hargs => ?_
    rw [hargs]
    exact (reports_of site (.callFunction f) _).follows
  | method parent name arguments index ihparent ih =>
    rw [replaceAt]
    refine follows_getD ?_
    rw [stepsAt] at h ⊢
    have hparent : Placed g (arguments.length :: site)
        (parent.stepsAt host (arguments.length :: site) env) := by
      refine (h.mono (List.suffix_cons _ site)).left fun t ht => ?_
      rw [List.mem_append, List.mem_append, List.mem_singleton, List.mem_singleton] at ht
      rcases ht with rfl | ht | rfl
      · exact not_cons_suffix _ site
      · exact not_suffix_of_mem_argumentSteps (.inr (Nat.le_of_eq (Nat.zero_add _))) ht
      · exact not_cons_suffix _ site
    rw [evaluateAt_method, evaluateAt_method, length_replaceArguments]
    -- First the receiver, then the method that it has, then the arguments by its signature.
    refine (ihparent hparent).bind (reports_stepsAt parent _) fun v hv => ?_
    rw [hv] at h ⊢
    have hfind := reports_of (V := V) site (.findMethod name) (v.method host name)
    refine hfind.follows.bind hfind fun found hfound => ?_
    simp only [Except.bind, hfound] at h ⊢
    have harguments : ∀ j, 0 ≤ j → j < 0 + arguments.length → Placed g (j :: site)
        (argumentSteps host found.2.signature 0 arguments site env) := by
      intro j _ hj
      rw [← List.append_assoc, ← List.append_assoc] at h
      refine ((h.mono (List.suffix_cons j site)).left fun t ht => ?_).right fun t ht => ?_
      · rw [List.mem_singleton.mp ht]
        exact not_cons_suffix j site
      · rw [List.mem_append, List.mem_singleton] at ht
        rcases ht with ht | rfl
        · intro hsuffix
          have hne := eq_of_cons_suffix hsuffix (suffix_of_mem_stepsAt ht)
          omega
        · exact not_cons_suffix j site
    refine (follows_replaceArguments ih harguments).bind
      (reports_argumentSteps (fun e _ => reports_stepsAt e) _ 0 site) fun args hargs => ?_
    rw [methodEnding, hargs]
    exact (reports_of site (.callMethod name) _).follows

/-- Evaluation fails exactly like the first step that fails, and that step itself raises the error. The
error stays the same if parts of the tree are replaced that have their steps behind the failure. -/
theorem evaluate_first_error (host : Host V) (e : Expr V) (env : Env V) :
    (∀ err, e.evaluate host env = .error err ↔
      ∃ before s after, FailsAt (e.steps host env) before s after err) ∧
    ∀ before s after err, FailsAt (e.steps host env) before s after err →
      s.action.Raises err ∧
      ∀ g : Site → Option (Expr V),
        (∀ q, (g q).isSome = true →
          (∃ t ∈ after, t.site = q) ∧ ∀ t ∈ before ++ [s], ¬ q <:+ t.site) →
        (e.replace g).evaluate host env = .error err := by
  refine ⟨evaluate_eq_error_iff host e env, ?_⟩
  intro before s after err hfails
  refine ⟨raises_of_failed hfails.mem hfails.failed, fun g hg => ?_⟩
  have hplaced : Placed g [] (e.steps host env) := by
    intro q _ hq
    obtain ⟨t, ht, hsite⟩ := (hg q hq).1
    refine ⟨t, ?_, hsite⟩
    rw [hfails.split]
    exact List.mem_append_right before (List.mem_cons_of_mem s ht)
  have hspared : Spared g (before ++ [s]) := fun q hq => (hg q hq).2
  exact (follows_replaceAt e hplaced).stopped hfails hspared

/-- `equals(a, a.m(b))`. -/
def lostMethod : Expr Vocabulary.empty :=
  .call (Builtin.equals.toFunction 0) [.lookup "a", .method (.lookup "a") "m" [.lookup "b"] 0] 0

/-- That there is no `b` does not come up, and any other argument would do as well. -/
theorem evaluate_first_error_lostMethod :
    let env : Env Vocabulary.empty := Table.empty.insert "a" (.bool true)
    let err : EvalError := .call "m" (.methodNotFound "m" "bool")
    let before : List (EvalStep Vocabulary.empty) :=
      [⟨[0], .lookup "a", .done⟩, ⟨[1, 1], .lookup "a", .done⟩]
    let after : List (EvalStep Vocabulary.empty) :=
      [⟨[0, 1], .lookup "b", .failed (.missingValue "b")⟩, ⟨[1], .callMethod "m", .unreached⟩,
        ⟨[], .callFunction (Builtin.equals.toFunction 0), .unreached⟩]
    let g : Site → Option (Expr Vocabulary.empty) := fun q =>
      if q = [0, 1] then some (.literal .nil) else none
    FailsAt (lostMethod.steps Host.empty env) before ⟨[1], .findMethod "m", .failed err⟩ after err ∧
      lostMethod.evaluate Host.empty env = .error err ∧
      (lostMethod.replace g).evaluate Host.empty env = .error err := by
  intro env err before after g
  have hfails : FailsAt (lostMethod.steps Host.empty env) before
      ⟨[1], .findMethod "m", .failed err⟩ after err := by
    exact ⟨rfl, by simp [before], rfl⟩
  have hfirst := evaluate_first_error Host.empty lostMethod env
  refine ⟨hfails, (hfirst.1 err).mpr ⟨before, _, after, hfails⟩, ?_⟩
  refine (hfirst.2 before _ after err hfails).2 g fun q hq => ?_
  have hq' : q = [0, 1] := by
    simp only [g] at hq
    split at hq
    · assumption
    · cases hq
  subst hq'
  refine ⟨⟨_, List.mem_cons_self, rfl⟩, ?_⟩
  rintro t (_ | ⟨_, _ | ⟨_, _ | ⟨_, ⟨⟩⟩⟩⟩) <;> decide

end Expr

end ExprLang
