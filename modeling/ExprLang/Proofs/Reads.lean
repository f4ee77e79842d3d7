import ExprLang.Proofs.Evaluation
import ExprLang.Registry

/-!
# The names an expression reads

Evaluation asks its environment for the names at evaluated positions and for nothing else. An argument
that is handed over unevaluated is not such a position: what stands in it is only ever evaluated in
environments that the callee makes. The empty name is special, as it stands for the whole environment
unless it is bound.

Main statement: `evaluate_reads`.
-/

namespace ExprLang

variable {V : Vocabulary} {host : Host V} {env env' : Env V}

/-- A name stands for itself at an evaluated position. The name of a field or of a method is not read
from the environment, and the signature of a function says which of its arguments are evaluated. -/
inductive Expr.Reads (host : Host V) : Expr V → String → Prop where
  | lookup (name : String) : Reads host (.lookup name) name
  | field {parent : Expr V} {name x : String} : Reads host parent x →
      Reads host (.field parent name) x
  | argument {f : Function V} {arguments : List (Expr V)} {index i : Nat} {e : Expr V} {x : String} :
      arguments[i]? = some e → (f.signature host).kindAt i ≠ some .expression → Reads host e x →
      Reads host (.call f arguments index) x
  | receiver {parent : Expr V} {name x : String} {arguments : List (Expr V)} {index : Nat} :
      Reads host parent x → Reads host (.method parent name arguments index) x
  | methodArgument {parent e : Expr V} {name x : String} {arguments : List (Expr V)} {index : Nat} :
      e ∈ arguments → Reads host e x → Reads host (.method parent name arguments index) x

namespace Env

/-- Both environments find the same under each of these names. If the empty name is one of them, it is
bound, and so does not stand for all the others. -/
structure AgreeOn (names : String → Prop) (env env' : Env V) : Prop where
  found : ∀ name, names name → env.find? name = env'.find? name
  bound : names "" → (env.find? "").isSome = true

theorem AgreeOn.mono {names fewer : String → Prop} (h : AgreeOn names env env')
    (hfewer : ∀ name, fewer name → names name) : AgreeOn fewer env env' where
  found name hname := h.found name (hfewer name hname)
  bound hempty := h.bound (hfewer "" hempty)

theorem AgreeOn.value_eq {names : String → Prop} {name : String} (h : AgreeOn names env env')
    (hname : names name) : env.value name = env'.value name := by
  have hfound : env.find? name = env'.find? name := h.found name hname
  unfold Env.value
  rw [← hfound]
  cases hv : env.find? name with
  | some v => rfl
  | none =>
    have hne : name ≠ "" := by
      rintro rfl
      have hbound := h.bound hname
      rw [hv] at hbound
      cases hbound
    simp only [if_neg hne]

theorem agreeOn_insert {names : String → Prop} {name : String} (env : Env V) (v : Value V)
    (hname : ¬ names name) (hempty : names "" → (env.find? "").isSome = true) :
    AgreeOn names env (env.insert name v) where
  found other hother := by
    have hne : other ≠ name := by
      rintro rfl
      exact hname hother
    rw [Table.find?_insert, if_neg hne]
  bound := hempty

end Env

namespace Expr

open Env (AgreeOn)

/-- Arguments are as they were if those that are evaluated are. One that is not evaluated is handed over
with its meaning, which no environment goes into. -/
theorem evaluateArguments_of_agree {s : Signature} {es : List (Expr V)} {site : Site}
    (h : ∀ (i : Nat) (e : Expr V), es[i]? = some e → s.kindAt i ≠ some .expression →
      ∀ site, e.evaluateAt host site env = e.evaluateAt host site env') :
    evaluateArguments host s 0 es site env = evaluateArguments host s 0 es site env' := by
  refine evaluateArguments_congr fun i e he => ?_
  rw [Nat.zero_add]
  exact argumentAt_congr (fun _ => rfl) fun hkind => h i e he hkind (i :: site)

theorem evaluateAt_of_agreeOn (e : Expr V) {site : Site} (h : AgreeOn (e.Reads host) env env') :
    e.evaluateAt host site env = e.evaluateAt host site env' := by
  induction e using induct generalizing site with
  | literal v => simp only [evaluateAt]
  | lookup name =>
    simp only [evaluateAt]
    exact h.value_eq (.lookup name)
  | field parent name ih =>
    have hparent : AgreeOn (parent.Reads host) env env' := h.mono fun _ => .field
    rw [evaluateAt_field, evaluateAt_field, ih hparent]
  | call f arguments index ih =>
    have harguments : evaluateArguments host (f.signature host) 0 arguments site env =
        evaluateArguments host (f.signature host) 0 arguments site env' := by
      refine evaluateArguments_of_agree fun i e he hkind site => ?_
      exact ih e (List.mem_of_getElem? he) (h.mono fun _ => .argument he hkind)
    rw [evaluateAt_call, evaluateAt_call, harguments]
  | method parent name arguments index ihparent iharguments =>
    have hparent : AgreeOn (parent.Reads host) env env' := h.mono fun _ => .receiver
    refine evaluateAt_method_congr (ihparent hparent) fun o m _ => ?_
    have harguments : evaluateArguments host m.signature 0 arguments site env =
        evaluateArguments host m.signature 0 arguments site env' := by
      refine evaluateArguments_of_agree fun i e he _ site => ?_
      have hmem : e ∈ arguments := List.mem_of_getElem? he
      exact iharguments e hmem (h.mono fun _ => .methodArgument hmem)
    rw [callMethodAt, callMethodAt, harguments]

/-- Evaluation depends only on the names it reads. So nothing in an unevaluated argument sees the
environment of the caller, and binding a name that is not read changes nothing. -/
theorem evaluate_reads (host : Host V) :
    (∀ (e : Expr V) (env env' : Env V), AgreeOn (e.Reads host) env env' →
      e.evaluate host env = e.evaluate host env') ∧
    (∀ (f : Function V) (arguments : List (Expr V)) (index : Nat) (env env' : Env V),
      (∀ (i : Nat) (e : Expr V), arguments[i]? = some e →
        (f.signature host).kindAt i ≠ some .expression → AgreeOn (e.Reads host) env env') →
      (Expr.call f arguments index).evaluate host env =
        (Expr.call f arguments index).evaluate host env') ∧
    (∀ (e : Expr V) (env : Env V) (name : String) (v : Value V), ¬ e.Reads host name →
      (e.Reads host "" → (env.find? "").isSome = true) →
      e.evaluate host (env.insert name v) = e.evaluate host env) := by
  refine ⟨fun e env env' h => evaluateAt_of_agreeOn e h, ?_, ?_⟩
  · intro f arguments index env env' h
    have harguments : evaluateArguments host (f.signature host) 0 arguments [] env =
        evaluateArguments host (f.signature host) 0 arguments [] env' := by
      refine evaluateArguments_of_agree fun i e he hkind site => ?_
      exact evaluateAt_of_agreeOn e (h i e he hkind)
    unfold evaluate
    rw [evaluateAt_call, evaluateAt_call, harguments]
  · intro e env name v hname hempty
    exact (evaluateAt_of_agreeOn e (Env.agreeOn_insert env v hname hempty)).symm

/-- `select(xs, "x", y)`: the predicate is a name that it does not bind. -/
def selectByOther : Expr Vocabulary.empty :=
  .call (Builtin.select.toFunction 0) [.lookup "xs", .literal (.string "x"), .lookup "y"] 0

theorem eq_of_reads_selectByOther {x : String} (h : selectByOther.Reads Host.empty x) :
    x = "xs" := by
  cases h with
  | @argument _ _ _ i e _ he hkind hx =>
    match i, he, hkind with
    | 0, he, _ =>
      cases he
      cases hx
      rfl
    | 1, he, _ =>
      cases he
      cases hx
    | 2, _, hkind => exact absurd rfl hkind

/-- A caller that binds the name cannot help the predicate. -/
theorem evaluate_reads_selectByOther :
    let env : Env Vocabulary.empty := Table.empty.insert "xs" (.list [.bool true])
    let env' := env.insert "y" (.bool true)
    Env.AgreeOn (selectByOther.Reads Host.empty) env env' ∧
      selectByOther.evaluate Host.empty env = selectByOther.evaluate Host.empty env' ∧
      selectByOther.evaluate Host.empty env' =
        .error (.call "select" (.failed "error selecting: no value named \"y\"")) := by
  intro env env'
  have hy : ¬ selectByOther.Reads Host.empty "y" := fun h =>
    absurd (eq_of_reads_selectByOther h) (by decide)
  have hempty : ¬ selectByOther.Reads Host.empty "" := fun h =>
    absurd (eq_of_reads_selectByOther h) (by decide)
  have hagree : AgreeOn (selectByOther.Reads Host.empty) env env' :=
    Env.agreeOn_insert env (.bool true) hy fun h => absurd h hempty
  exact ⟨hagree, (evaluate_reads Host.empty).1 selectByOther env env' hagree, by rfl⟩

end Expr

end ExprLang
