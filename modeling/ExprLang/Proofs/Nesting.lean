import ExprLang.Proofs.Requests

/-!
# Nested evaluations

An evaluation is recorded with the evaluations that it has asked for, and these with theirs. Evaluating
with built-in functions only asks for parts of the expression at hand, so that the evaluations that are
under way at one time are never more than the expression is high. An expression that was found as a
value, in the environment or in data, is not evaluated.

Main statement: `evaluation_nests`.
-/

namespace ExprLang

variable {V : Vocabulary} {α : Type}

/-! ## Height -/

mutual

/-- The number of expressions on the longest way down. -/
def Expr.height : Expr V → Nat
  | .literal _ => 1
  | .lookup _ => 1
  | .field parent _ => Expr.height parent + 1
  | .call _ arguments _ => Expr.greatestHeight arguments + 1
  | .method parent _ arguments _ => max (Expr.greatestHeight arguments) (Expr.height parent) + 1
termination_by structural x => x

def Expr.greatestHeight : List (Expr V) → Nat
  | [] => 0
  | e :: rest => max (Expr.height e) (Expr.greatestHeight rest)
termination_by structural x => x

end

namespace Expr

theorem height_pos (e : Expr V) : 0 < e.height := by
  cases e <;> rw [height] <;> exact Nat.succ_pos _

theorem height_le_greatestHeight {e : Expr V} {es : List (Expr V)} (h : e ∈ es) :
    e.height ≤ greatestHeight es := by
  induction es with
  | nil => cases h
  | cons first rest ih =>
    rw [greatestHeight]
    rcases List.mem_cons.mp h with rfl | hrest
    · exact Nat.le_max_left _ _
    · exact Nat.le_trans (ih hrest) (Nat.le_max_right _ _)

theorem height_lt_of_mem_parts {e part : Expr V} (h : part ∈ e.parts) : part.height < e.height := by
  cases e with
  | literal v => cases h
  | lookup name => cases h
  | field parent name =>
    cases List.mem_singleton.mp h
    rw [height]
    exact Nat.lt_succ_self _
  | call f arguments index =>
    rw [height]
    exact Nat.lt_succ_of_le (height_le_greatestHeight h)
  | method parent name arguments index =>
    rw [height]
    refine Nat.lt_succ_of_le ?_
    rcases List.mem_append.mp h with harguments | hparent
    · exact Nat.le_trans (height_le_greatestHeight harguments) (Nat.le_max_left _ _)
    · cases List.mem_singleton.mp hparent
      exact Nat.le_max_right _ _

end Expr

/-! ## Recorded evaluations -/

/-- The record of an evaluation: what it was asked for, what it gave, and the evaluations that it has
asked for itself. -/
structure Activation (V : Vocabulary) where
  request : Request V
  result : Except EvalError (Value V)
  nested : List (Activation V)

mutual

/-- The greatest number of evaluations that were under way at one time. -/
def Activation.depth : Activation V → Nat
  | ⟨_, _, nested⟩ => Activation.greatestDepth nested + 1
termination_by structural x => x

def Activation.greatestDepth : List (Activation V) → Nat
  | [] => 0
  | a :: rest => max (Activation.depth a) (Activation.greatestDepth rest)
termination_by structural x => x

end

/-- Runs a computation, with the evaluations that it asks for recorded. -/
def Asking.run (evaluate : Request V → Option (Activation V)) :
    Asking V α → Option (α × List (Activation V))
  | done x => some (x, [])
  | ask r next =>
    (evaluate r).bind fun a =>
      ((next a.result).run evaluate).map fun (x, nested) => (x, a :: nested)
  | foreign => none

/-- Evaluates, where there is room for so many evaluations at one time. -/
def Request.run (host : Host V) : Nat → Request V → Option (Activation V)
  | 0, _ => none
  | room + 1, r =>
    ((r.expression.ask host r.site r.env).run (Request.run host room)).map
      fun (result, nested) => ⟨r, result, nested⟩

/-- Every evaluation in the record was for a part of the expression of the one that has asked for it. -/
inductive Activation.WellNested (host : Host V) : Activation V → Prop where
  | intro {a : Activation V} : (∀ b ∈ a.nested, a.request.Inner host b.request) →
      (∀ b ∈ a.nested, WellNested host b) → WellNested host a

namespace Activation

theorem greatestDepth_le {activations : List (Activation V)} {n : Nat}
    (h : ∀ a ∈ activations, a.depth ≤ n) : greatestDepth activations ≤ n := by
  induction activations with
  | nil => exact Nat.zero_le n
  | cons a rest ih =>
    rw [List.forall_mem_cons] at h
    rw [greatestDepth]
    exact Nat.max_le.mpr ⟨h.1, ih h.2⟩

/-- Each evaluation is for an expression that is less high than that of the one around it. -/
theorem WellNested.depth_le {host : Host V} {a : Activation V} (h : a.WellNested host) :
    a.depth ≤ a.request.expression.height := by
  induction h with
  | @intro a hinner _ ih =>
    obtain ⟨request, result, nested⟩ := a
    have hnested : ∀ b ∈ nested, b.depth ≤ request.expression.height - 1 := by
      intro b hb
      have hlt := Expr.height_lt_of_mem_parts (hinner b hb).mem_parts
      exact Nat.le_trans (ih b hb) (Nat.le_sub_one_of_lt hlt)
    have hpos : 0 < request.expression.height := request.expression.height_pos
    have hgreatest := greatestDepth_le hnested
    show greatestDepth nested + 1 ≤ request.expression.height
    omega

end Activation

section

variable {host : Host V}

/-- The record is one of a request: it has the result of evaluation and is well nested, and every run
with room enough gives it. -/
structure Request.Records (host : Host V) (room : Nat) (r : Request V) (a : Activation V) : Prop where
  request : a.request = r
  result : a.result = r.answer host
  wellNested : a.WellNested host
  run : ∀ n, room ≤ n → r.run host n = some a

/-- A computation runs if all that it asks for does, and records just that. -/
theorem Asking.exists_run {P : Request V → Prop} {room : Nat}
    (hP : ∀ r, P r → ∃ a, r.Records host room a) {Q : α → Prop} {c : Asking V α} (hc : c.Asks P Q) :
    ∃ x nested, c.outcome? (Request.answer host) = some x ∧
      (∀ n, room ≤ n → c.run (Request.run host n) = some (x, nested)) ∧
      ∀ b ∈ nested, P b.request ∧ b.WellNested host := by
  induction c with
  | done x => exact ⟨x, [], rfl, fun _ _ => rfl, fun b hb => nomatch hb⟩
  | ask r next ih =>
    obtain ⟨hr, hnext⟩ := hc
    obtain ⟨a, ha⟩ := hP r hr
    obtain ⟨x, nested, houtcome, hrun, hnested⟩ := ih (r.answer host) (hnext _)
    refine ⟨x, a :: nested, houtcome, fun n hn => ?_, ?_⟩
    · rw [run, ha.run n hn]
      simp only [Option.bind, ha.result, hrun n hn, Option.map]
    · rw [List.forall_mem_cons, ha.request]
      exact ⟨⟨hr, ha.wellNested⟩, hnested⟩
  | foreign => exact hc.elim

theorem Request.exists_records (host : Host V) {r : Request V} (hr : r.expression.OnlyBuiltins) :
    ∃ a, r.Records host r.expression.height a := by
  obtain ⟨origin, e, site, env⟩ := r
  -- By induction on the height, for the parts of an expression may be evaluated anywhere.
  induction hheight : e.height using Nat.strong_induction_on generalizing origin e site env with
  | _ height ih =>
    subst hheight
    have hinner : ∀ r', Request.Inner host ⟨origin, e, site, env⟩ r' →
        ∃ a, r'.Records host (e.height - 1) a := by
      intro r' hr'
      have hlt : r'.expression.height < e.height := Expr.height_lt_of_mem_parts hr'.mem_parts
      obtain ⟨a, ha⟩ := ih _ hlt r'.origin r'.expression r'.site r'.env
        (hr.of_mem_parts hr'.mem_parts) rfl
      exact ⟨a, ha.request, ha.result, ha.wellNested, fun n hn => ha.run n (by omega)⟩
    obtain ⟨result, nested, houtcome, hrun, hnested⟩ :=
      Asking.exists_run hinner (Expr.asks_ask hr origin site env)
    rw [Expr.outcome?_ask hr] at houtcome
    refine ⟨⟨⟨origin, e, site, env⟩, result, nested⟩, rfl, (Option.some.inj houtcome).symm,
      .intro (fun b hb => (hnested b hb).1) fun b hb => (hnested b hb).2, fun n hn => ?_⟩
    have hpos : 0 < e.height := e.height_pos
    obtain ⟨room, rfl⟩ : ∃ room, n = room + 1 := ⟨n - 1, by omega⟩
    rw [Request.run, hrun room (by omega)]
    rfl

/-- Evaluation with built-in functions ends. There are never more evaluations under way than the
expression is high, however great the values are, and each is for a part of the expression of the one
around it. No function but `select` evaluates an expression that it is given: what it answers is the same
whatever the expressions among its arguments mean. -/
theorem evaluation_nests (host : Host V) (e : Expr V) (he : e.OnlyBuiltins) (site : Site)
    (env : Env V) :
    (∃ a : Activation V,
      (∀ room, e.height ≤ room → Request.run host room ⟨.start, e, site, env⟩ = some a) ∧
      a.request = ⟨.start, e, site, env⟩ ∧ a.result = e.evaluateAt host site env ∧
      a.depth ≤ e.height ∧ a.WellNested host) ∧
    ∀ b : Builtin, b ≠ .select → ∀ (site : Site) (arguments others : List (Argument V)),
      arguments.map Argument.toValue = others.map Argument.toValue →
        b.native.call site arguments = b.native.call site others := by
  constructor
  · obtain ⟨a, ha⟩ := Request.exists_records host (r := ⟨.start, e, site, env⟩) he
    have hdepth := ha.wellNested.depth_le
    rw [ha.request] at hdepth
    exact ⟨a, ha.run, ha.request, ha.result, hdepth, ha.wellNested⟩
  · intro b hb site arguments others hvalues
    exact Builtin.call_eq_of_values hb site hvalues

end

/-- `select(items, "v", v)` -/
def selectThemselves : Expr .empty :=
  .call (Builtin.select.toFunction 0) [.lookup "items", .literal (.string "v"), .lookup "v"] 0

/-- The items are expressions, and are not evaluated. Comparing an expression does not evaluate it
either. -/
theorem evaluation_nests_selectThemselves :
    let env : Env .empty := Table.empty.insert "items" (.list [.expression (.literal (.bool true))])
    (selectThemselves.OnlyBuiltins ∧ selectThemselves.height = 2) ∧
      (∃ a : Activation .empty,
        (∀ room, 2 ≤ room → Request.run Host.empty room ⟨.start, selectThemselves, [], env⟩ = some a) ∧
        a.request = ⟨.start, selectThemselves, [], env⟩ ∧
        a.result = selectThemselves.evaluateAt Host.empty [] env ∧ a.depth ≤ 2 ∧
        a.WellNested Host.empty) ∧
      (∀ meaning, Builtin.equals.native.call (V := .empty) []
          [.deferred ⟨.lookup "x", meaning⟩, .value .nil] =
        Builtin.equals.native.call [] [.value (.expression (.lookup "x")), .value .nil]) ∧
      selectThemselves.evaluate Host.empty env =
        .error (.call "select"
          (.failed "selector expression must return bool (true/false) not \"expression\"")) := by
  intro env
  have honly : selectThemselves.OnlyBuiltins := by
    refine .call 0 ⟨.select, rfl⟩ fun e he => ?_
    simp only [List.mem_cons, List.not_mem_nil, or_false] at he
    rcases he with rfl | rfl | rfl
    · exact .lookup "items"
    · exact .literal (.string "v")
    · exact .lookup "v"
  obtain ⟨hrecord, halike⟩ := evaluation_nests Host.empty selectThemselves honly [] env
  exact ⟨⟨honly, rfl⟩, hrecord, fun meaning => halike .equals nofun [] _ _ rfl, by rfl⟩

end ExprLang
