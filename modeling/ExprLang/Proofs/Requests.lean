import ExprLang.Proofs.Interchange
import ExprLang.Proofs.MethodCalls

/-!
# What evaluation asks for

Evaluation follows the tree, but not as it is programmed: a call marshals its arguments into values, and
`select` evaluates an expression that it has found among them. Here an evaluation is a computation that
asks for other evaluations and goes on with what they give. Each request says where its expression comes
from: whether it is a part of the expression at hand, or a value that was found in the environment or in
data.

With built-in functions only, all requests are for parts. What the functions of a host ask for is not
known.

Main statements: `Expr.asks_ask`, `Expr.outcome?_ask`.
-/

namespace ExprLang

variable {V : Vocabulary} {α β : Type}

/-! ## Parts -/

namespace Expr

/-- The parts of an expression, at the positions under which they have their sites. -/
def parts : Expr V → List (Expr V)
  | literal _ => []
  | lookup _ => []
  | field parent _ => [parent]
  | call _ arguments _ => arguments
  | method parent _ arguments _ => arguments ++ [parent]

/-- Every call in the expression is one of a built-in function. Its literals may hold any expressions. -/
inductive OnlyBuiltins : Expr V → Prop where
  | literal (v : Value V) : OnlyBuiltins (.literal v)
  | lookup (name : String) : OnlyBuiltins (.lookup name)
  | field {parent : Expr V} (name : String) : OnlyBuiltins parent → OnlyBuiltins (.field parent name)
  | call {f : Function V} {arguments : List (Expr V)} (index : Nat) : f.IsBuiltin →
      (∀ e ∈ arguments, OnlyBuiltins e) → OnlyBuiltins (.call f arguments index)

theorem OnlyBuiltins.of_mem_parts {e part : Expr V} (h : e.OnlyBuiltins) (hpart : part ∈ e.parts) :
    part.OnlyBuiltins := by
  cases h with
  | literal v => cases hpart
  | lookup name => cases hpart
  | field name hparent =>
    cases List.mem_singleton.mp hpart
    exact hparent
  | call index _ harguments => exact harguments part hpart

end Expr

/-! ## Computations that ask for evaluations -/

/-- Where an expression that is evaluated comes from. -/
inductive Origin where
  /-- A host has it. -/
  | start
  /-- It is a part of the expression under evaluation, evaluated where it stands. -/
  | part (i : Nat)
  /-- It is an argument of the call under evaluation, handed over as it is. -/
  | argument (i : Nat)
  /-- It was a value that evaluation has come across. -/
  | found

structure Request (V : Vocabulary) where
  origin : Origin
  expression : Expr V
  site : Site
  env : Env V

/-- A computation that asks for evaluations on its way. -/
inductive Asking (V : Vocabulary) (α : Type) where
  | done (x : α)
  | ask (r : Request V) (next : Except EvalError (Value V) → Asking V α)
  /-- What is done next is up to the host. -/
  | foreign

namespace Asking

def bind : Asking V α → (α → Asking V β) → Asking V β
  | done x, f => f x
  | ask r next, f => ask r fun answer => (next answer).bind f
  | foreign, _ => foreign

def map (f : α → β) (c : Asking V α) : Asking V β := c.bind fun x => done (f x)

/-- All requests are of this kind, whatever the answers are, and so is the outcome. -/
def Asks (P : Request V → Prop) (Q : α → Prop) : Asking V α → Prop
  | done x => Q x
  | ask r next => P r ∧ ∀ answer, (next answer).Asks P Q
  | foreign => False

/-- The outcome with these answers. -/
def outcome? (answer : Request V → Except EvalError (Value V)) : Asking V α → Option α
  | done x => some x
  | ask r next => (next (answer r)).outcome? answer
  | foreign => none

section

variable {P : Request V → Prop} {Q : α → Prop} {R : β → Prop} {c : Asking V α}
  {f : α → Asking V β} {answer : Request V → Except EvalError (Value V)}

theorem Asks.bind (hc : c.Asks P Q) (hf : ∀ x, Q x → (f x).Asks P R) : (c.bind f).Asks P R := by
  induction c with
  | done x => exact hf x hc
  | ask r next ih => exact ⟨hc.1, fun answer => ih answer (hc.2 answer)⟩
  | foreign => exact hc.elim

theorem Asks.map {g : α → β} (hc : c.Asks P Q) (hg : ∀ x, Q x → R (g x)) :
    (c.map g).Asks P R :=
  hc.bind hg

theorem outcome?_bind :
    (c.bind f).outcome? answer = (c.outcome? answer).bind fun x => (f x).outcome? answer := by
  induction c with
  | done x => rfl
  | ask r next ih => exact ih (answer r)
  | foreign => rfl

theorem outcome?_map {g : α → β} : (c.map g).outcome? answer = (c.outcome? answer).map g := by
  rw [Asking.map, outcome?_bind]
  cases c.outcome? answer <;> rfl

end

end Asking

/-! ## What evaluation asks for -/

/-- A value that a function is called with, and where it comes from if it is an expression. -/
structure Operand (V : Vocabulary) where
  value : Value V
  origin : Origin

/-- The operands of a call, from position `i` on. -/
def Expr.askArguments (s : Signature) (i : Nat) (site : Site) (env : Env V) :
    List (Expr V) → Asking V (Except EvalError (List (Operand V)))
  | [] => .done (.ok [])
  | e :: rest =>
    if s.kindAt i = some .expression then
      (askArguments s (i + 1) site env rest).map (·.map (⟨.expression e, .argument i⟩ :: ·))
    else
      .ask ⟨.part i, e, i :: site, env⟩ fun
        | .error err => .done (.error err)
        | .ok v => (askArguments s (i + 1) site env rest).map (·.map (⟨v, .found⟩ :: ·))

namespace Collections

def askKeep (test : α → Asking V (Except String Bool)) : List α → Asking V (Except String (List α))
  | [] => .done (.ok [])
  | x :: rest =>
    (test x).bind fun
      | .error reason => .done (.error reason)
      | .ok b => (askKeep test rest).map (·.map fun kept => if b then x :: kept else kept)

/-- The verdict of a predicate that is evaluated on request. -/
def askVerdict (r : Request V) : Asking V (Except String Bool) :=
  .ask r fun answer => .done (verdict ⟨r.expression, fun _ => answer⟩ r.env)

def askSelect (collection : Value V) (name : String) (predicate : Env V → Request V)
    (values : List (Value V)) : Asking V (Except String (Value V)) :=
  let test (v : Value V) := askVerdict (predicate ((references values).insert name v))
  match collection with
  | .list items => (askKeep test items).map (·.map .list)
  | .map entries => (askKeep (fun e => test e.value) entries).map (·.map .map)
  | v => .done (.error ("cannot select from " ++ Text.quote v.typeName))

end Collections

/-- Calls what a function runs. Of the built-in functions only `select` evaluates anything: what the
others answer does not hang on what expressions mean (`Builtin.call_eq_of_values`). -/
def Code.ask (host : Host V) (site : Site) (operands : List (Operand V)) :
    Code V → Asking V (Except InvokeError (List (Value V)))
  | .builtin .select =>
    match takeInputs [.any, .string, .expression] (some .any)
        (Argument.ofValues host site 0 (operands.map Operand.value)) with
    | .error e => .done (.error e)
    | .ok (collection, name, predicate, references) =>
      let origin := (operands[2]?.map Operand.origin).getD .found
      (Collections.askSelect collection name
        (fun env => ⟨origin, predicate.expression, 2 :: site, env⟩) references).map
          fun selected => (Outcome.ofExcept selected).toExcept
  | .builtin b =>
    .done (b.native.call site (Argument.ofValues host site 0 (operands.map Operand.value)))
  | .native _ => .foreign

/-- One evaluation, up to the evaluations in it. -/
def Expr.ask (host : Host V) (site : Site) (env : Env V) :
    Expr V → Asking V (Except EvalError (Value V))
  | .literal v => .done (.ok v)
  | .lookup name => .done (env.value name)
  | .field parent name =>
    .ask ⟨.part 0, parent, 0 :: site, env⟩ fun
      | .error err => .done (.error err)
      | .ok v => .done (v.property host name)
  | .call f arguments index =>
    (Expr.askArguments (f.signature host) 0 site env arguments).bind fun
      | .error err => .done (.error err)
      | .ok operands => (f.code.ask host site operands).map (callResult f.name index)
  | .method .. => .foreign

/-- A request for a part of the expression of another one: in the same environment, or for an argument
that a function was handed as it is. -/
inductive Request.Inner (host : Host V) (r : Request V) : Request V → Prop where
  | part (i : Nat) (e : Expr V) : r.expression.parts[i]? = some e →
      Inner host r ⟨.part i, e, i :: r.site, r.env⟩
  | argument (f : Function V) (arguments : List (Expr V)) (index i : Nat) (e : Expr V) (env : Env V) :
      r.expression = .call f arguments index → (f.signature host).kindAt i = some .expression →
      arguments[i]? = some e → Inner host r ⟨.argument i, e, i :: r.site, env⟩

theorem Request.Inner.mem_parts {host : Host V} {r r' : Request V} (h : r.Inner host r') :
    r'.expression ∈ r.expression.parts := by
  cases h with
  | part i e he => exact List.mem_of_getElem? he
  | argument f arguments index i e env hr _ he =>
    rw [hr]
    exact List.mem_of_getElem? he

theorem Signature.IsEager.alike {s : Signature} (h : s.IsEager) {i : Nat}
    {arguments others : List (Argument V)}
    (hvalues : arguments.map Argument.toValue = others.map Argument.toValue) :
    s.Alike i arguments others := by
  induction arguments generalizing i others with
  | nil =>
    cases List.map_eq_nil_iff.mp hvalues.symm
    exact .nil i
  | cons a arguments ih =>
    cases others with
    | nil => cases hvalues
    | cons b others =>
      obtain ⟨hfirst, hrest⟩ := List.cons.inj hvalues
      exact .cons ⟨hfirst, fun hkind => absurd hkind (h i)⟩ (ih hrest)

theorem Builtin.call_eq_of_values {b : Builtin} (h : b ≠ .select) (site : Site)
    {arguments others : List (Argument V)}
    (hvalues : arguments.map Argument.toValue = others.map Argument.toValue) :
    b.native.call site arguments = b.native.call site others :=
  Native.call_congr ((isEager_of_ne_select h).alike hvalues) site

/-! ## Requests are for parts -/

/-- The arguments that are not evaluated are among the operands as they are. -/
def HandsOver (s : Signature) (i : Nat) (es : List (Expr V)) (operands : List (Operand V)) : Prop :=
  ∀ j operand, operands[j]? = some operand → s.kindAt (i + j) = some .expression →
    ∃ e, es[j]? = some e ∧ operand = ⟨.expression e, .argument (i + j)⟩

theorem HandsOver.cons {s : Signature} {i : Nat} {e : Expr V} {es : List (Expr V)}
    {operand : Operand V} {operands : List (Operand V)}
    (hfirst : s.kindAt i = some .expression → operand = ⟨.expression e, .argument i⟩)
    (h : HandsOver s (i + 1) es operands) : HandsOver s i (e :: es) (operand :: operands) := by
  intro j found hfound hkind
  cases j with
  | zero =>
    cases hfound
    exact ⟨e, rfl, hfirst hkind⟩
  | succ j =>
    have hshift : i + (j + 1) = i + 1 + j := by omega
    rw [hshift] at hkind ⊢
    exact h j found hfound hkind

theorem Expr.asks_askArguments {P : Request V → Prop} {s : Signature} {i : Nat} {site : Site}
    {env : Env V} {es : List (Expr V)}
    (hP : ∀ j e, es[j]? = some e → P ⟨.part (i + j), e, (i + j) :: site, env⟩) :
    (askArguments s i site env es).Asks P fun found =>
      ∀ operands, found = .ok operands → HandsOver s i es operands := by
  induction es generalizing i with
  | nil =>
    intro operands hoperands
    cases hoperands
    intro j operand hj
    cases hj
  | cons e es ih =>
    have hothers := ih (i := i + 1) fun j part hpart => by
      rw [Nat.succ_add_eq_add_succ]
      exact hP (j + 1) part hpart
    -- What the other operands are extends to what all are, with either form of the first one.
    have hcons : ∀ operand : Operand V,
        (s.kindAt i = some .expression → operand = ⟨.expression e, .argument i⟩) →
        ((askArguments s (i + 1) site env es).map (·.map (operand :: ·))).Asks P fun found =>
          ∀ operands, found = .ok operands → HandsOver s i (e :: es) operands := by
      intro operand hoperand
      refine hothers.map fun found hfound operands hoperands => ?_
      cases found with
      | error err => cases hoperands
      | ok others =>
        cases hoperands
        exact (hfound others rfl).cons hoperand
    rw [askArguments]
    split
    · exact hcons _ fun _ => rfl
    · rename_i hkind
      refine ⟨hP 0 e rfl, fun answer => ?_⟩
      cases answer with
      | error err => exact fun operands hoperands => nomatch hoperands
      | ok v => exact hcons ⟨v, .found⟩ fun hexpression => absurd hexpression hkind

namespace Collections

theorem asks_askVerdict {P : Request V → Prop} {r : Request V} (h : P r) :
    (askVerdict r).Asks P fun _ => True :=
  ⟨h, fun _ => trivial⟩

theorem asks_askKeep {P : Request V → Prop} {test : α → Asking V (Except String Bool)}
    {elements : List α} (h : ∀ x, (test x).Asks P fun _ => True) :
    (askKeep test elements).Asks P fun _ => True := by
  induction elements with
  | nil => trivial
  | cons x rest ih =>
    refine (h x).bind fun verdict _ => ?_
    cases verdict with
    | error reason => trivial
    | ok b => exact ih.map fun _ _ => trivial

theorem asks_askSelect {P : Request V → Prop} {collection : Value V} {name : String}
    {predicate : Env V → Request V} {values : List (Value V)} (h : ∀ env, P (predicate env)) :
    (askSelect collection name predicate values).Asks P fun _ => True := by
  cases collection with
  | list items => exact (asks_askKeep fun v => asks_askVerdict (h _)).map fun _ _ => trivial
  | map entries => exact (asks_askKeep fun e => asks_askVerdict (h _)).map fun _ _ => trivial
  | _ => trivial

end Collections

theorem Param.convert_expression {position : Nat} {a : Argument V} {d : Deferred V}
    (h : Param.expression.convert position a = .ok d) : a = .deferred d := by
  cases a with
  | value v => cases v <;> cases h
  | deferred d' =>
    cases h
    rfl

theorem Inputs.exists_of_take_cons {p : Param} {params : List Param} {rest : Option Param}
    {arguments : List (Argument V)} {taken total : Nat} {arity : Arity} {x : p.Carrier V}
    {xs : Inputs V params rest}
    (h : take (p :: params) rest ⟨arguments, taken, total, arity⟩ = .ok (x, xs)) :
    ∃ a others, arguments = a :: others ∧ p.convert (taken + 1) a = .ok x ∧
      take params rest ⟨others, taken + 1, total, arity⟩ = .ok xs := by
  cases arguments with
  | nil => cases h
  | cons a others =>
    rw [take_cons] at h
    cases hx : p.convert (taken + 1) a with
    | error e =>
      rw [hx] at h
      cases h
    | ok x' =>
      rw [hx] at h
      cases hxs : take params rest ⟨others, taken + 1, total, arity⟩ with
      | error e =>
        simp only [Except.bind, hxs] at h
        cases h
      | ok xs' =>
        simp only [Except.bind, hxs] at h
        cases h
        exact ⟨a, others, rfl, hx, hxs⟩

theorem takeInputs_select {arguments : List (Argument V)} {collection : Value V} {name : String}
    {predicate : Deferred V} {references : List (Value V)}
    (h : takeInputs [.any, .string, .expression] (some .any) arguments =
      .ok (collection, name, predicate, references)) :
    arguments[2]? = some (.deferred predicate) := by
  obtain ⟨_, arguments, rfl, -, h⟩ := Inputs.exists_of_take_cons h
  obtain ⟨_, arguments, rfl, -, h⟩ := Inputs.exists_of_take_cons h
  obtain ⟨third, arguments, rfl, hthird, -⟩ := Inputs.exists_of_take_cons h
  rw [Param.convert_expression hthird]
  rfl

theorem Argument.getElem?_ofValues (host : Host V) (site : Site) (i : Nat) (values : List (Value V))
    (j : Nat) :
    (ofValues host site i values)[j]? = values[j]?.map (·.toArgument host ((i + j) :: site)) := by
  induction values generalizing i j with
  | nil => rfl
  | cons v values ih =>
    cases j with
    | zero => rfl
    | succ j =>
      have hshift : i + (j + 1) = i + 1 + j := by omega
      rw [ofValues, List.getElem?_cons_succ, List.getElem?_cons_succ, ih, hshift]

theorem Value.eq_of_toArgument {host : Host V} {site : Site} {v : Value V} {d : Deferred V}
    (h : v.toArgument host site = .deferred d) :
    v = .expression d.expression ∧ d.evaluate = d.expression.evaluateAt host site := by
  cases v with
  | expression e =>
    cases h
    exact ⟨rfl, rfl⟩
  | _ => cases h

/-- The predicate of a selection is the third of the values, with its meaning at the site of the third
argument. -/
theorem takeInputs_select_ofValues {host : Host V} {site : Site} {values : List (Value V)}
    {collection : Value V} {name : String} {predicate : Deferred V} {references : List (Value V)}
    (h : takeInputs [.any, .string, .expression] (some .any)
      (Argument.ofValues host site 0 values) = .ok (collection, name, predicate, references)) :
    values[2]? = some (.expression predicate.expression) ∧
      predicate.evaluate = predicate.expression.evaluateAt host (2 :: site) := by
  have hthird := takeInputs_select h
  rw [Argument.getElem?_ofValues] at hthird
  obtain ⟨v, hv, hargument⟩ := Option.map_eq_some_iff.mp hthird
  obtain ⟨rfl, hmeaning⟩ := Value.eq_of_toArgument hargument
  exact ⟨hv, hmeaning⟩

theorem Code.asks_ask {host : Host V} {f : Function V} (hf : f.IsBuiltin)
    {arguments : List (Expr V)} (index : Nat) (origin : Origin) (site : Site) (env : Env V)
    {operands : List (Operand V)} (hoperands : HandsOver (f.signature host) 0 arguments operands) :
    (f.code.ask host site operands).Asks
      (Request.Inner host ⟨origin, .call f arguments index, site, env⟩) fun _ => True := by
  obtain ⟨b, hb⟩ := hf
  rw [hb]
  cases b with
  | select =>
    rw [Code.ask]
    split
    · trivial
    · rename_i collection name predicate references htake
      obtain ⟨hthird, -⟩ := takeInputs_select_ofValues htake
      rw [List.getElem?_map] at hthird
      obtain ⟨operand, hoperand, hvalue⟩ := Option.map_eq_some_iff.mp hthird
      have hkind : (f.signature host).kindAt (0 + 2) = some .expression := by
        rw [Function.signature, Function.native, hb]
        rfl
      obtain ⟨e, he, rfl⟩ := hoperands 2 operand hoperand hkind
      cases hvalue
      refine (Collections.asks_askSelect fun env => ?_).map fun _ _ => trivial
      rw [hoperand]
      exact .argument f arguments index 2 _ env rfl hkind he
  | _ => trivial

/-- Only parts of the expression at hand are evaluated, whatever the evaluations give. -/
theorem Expr.asks_ask {host : Host V} {e : Expr V} (he : e.OnlyBuiltins) (origin : Origin)
    (site : Site) (env : Env V) :
    (e.ask host site env).Asks (Request.Inner host ⟨origin, e, site, env⟩) fun _ => True := by
  cases he with
  | literal v => trivial
  | lookup name => trivial
  | @field parent name _ =>
    refine ⟨.part 0 parent rfl, fun answer => ?_⟩
    cases answer <;> trivial
  | @call f arguments index hf _ =>
    have hparts : ∀ j part, arguments[j]? = some part →
        Request.Inner host ⟨origin, .call f arguments index, site, env⟩
          ⟨.part (0 + j), part, (0 + j) :: site, env⟩ := by
      intro j part hpart
      rw [Nat.zero_add]
      exact .part j part hpart
    refine (asks_askArguments hparts).bind fun found hfound => ?_
    cases found with
    | error err => trivial
    | ok operands =>
      exact (Code.asks_ask hf index origin site env (hfound operands rfl)).map fun _ _ => trivial

/-! ## The outcome is what evaluation gives -/

def Request.answer (host : Host V) (r : Request V) : Except EvalError (Value V) :=
  r.expression.evaluateAt host r.site r.env

section

variable {host : Host V}

theorem Expr.outcome?_askArguments (host : Host V) (s : Signature) (i : Nat) (site : Site) (env : Env V)
    (es : List (Expr V)) :
    ∃ found, (askArguments s i site env es).outcome? (Request.answer host) = some found ∧
      found.map (List.map Operand.value) = argumentValues host s i site env es := by
  induction es generalizing i with
  | nil => exact ⟨.ok [], rfl, rfl⟩
  | cons e es ih =>
    obtain ⟨others, hothers, hvalues⟩ := ih (i + 1)
    -- The first operand is put in front of the others and its value in front of theirs.
    have hcons : ∀ operand : Operand V,
        (others.map (operand :: ·)).map (List.map Operand.value) =
          (argumentValues host s (i + 1) site env es).map (operand.value :: ·) := by
      intro operand
      rw [← hvalues]
      cases others <;> rfl
    rw [askArguments, argumentValues, argumentValueAt]
    by_cases hkind : s.kindAt i = some .expression
    · rw [if_pos hkind, if_pos hkind]
      refine ⟨_, ?_, hcons ⟨.expression e, .argument i⟩⟩
      rw [Asking.outcome?_map, hothers]
      rfl
    · rw [if_neg hkind, if_neg hkind]
      cases hv : e.evaluateAt host (i :: site) env with
      | error err =>
        refine ⟨.error err, ?_, rfl⟩
        simp only [Asking.outcome?, Request.answer, hv]
      | ok v =>
        refine ⟨_, ?_, hcons ⟨v, .found⟩⟩
        simp only [Asking.outcome?, Request.answer, hv]
        rw [Asking.outcome?_map, hothers]
        rfl

namespace Collections

variable {answer : Request V → Except EvalError (Value V)}

theorem outcome?_askKeep {test : α → Asking V (Except String Bool)} {holds : α → Except String Bool}
    (h : ∀ x, (test x).outcome? answer = some (holds x)) (elements : List α) :
    (askKeep test elements).outcome? answer = some (keep holds elements) := by
  induction elements with
  | nil => rfl
  | cons x rest ih =>
    rw [askKeep, keep, Asking.outcome?_bind, h]
    cases holds x with
    | error reason => rfl
    | ok b =>
      show ((askKeep test rest).map _).outcome? answer = _
      rw [Asking.outcome?_map, ih]
      rfl

theorem outcome?_askVerdict {predicate : Deferred V} {r : Request V}
    (h : answer r = predicate.evaluate r.env) :
    (askVerdict r).outcome? answer = some (verdict predicate r.env) := by
  simp only [askVerdict, Asking.outcome?, verdict, h]

theorem outcome?_askSelect {predicate : Deferred V} {request : Env V → Request V}
    (henv : ∀ env, (request env).env = env)
    (h : ∀ env, answer (request env) = predicate.evaluate env) (collection : Value V) (name : String)
    (values : List (Value V)) :
    (askSelect collection name request values).outcome? answer =
      some (select collection name predicate values) := by
  have hverdict : ∀ env, (askVerdict (request env)).outcome? answer = some (verdict predicate env) := by
    intro env
    have hrequest : answer (request env) = predicate.evaluate (request env).env := by
      rw [h, henv]
    rw [outcome?_askVerdict hrequest, henv]
  cases collection with
  | list items =>
    rw [askSelect, Asking.outcome?_map, outcome?_askKeep fun v => hverdict _]
    rfl
  | map entries =>
    rw [askSelect, Asking.outcome?_map, outcome?_askKeep fun e => hverdict _]
    rfl
  | _ => rfl

end Collections

theorem Code.outcome?_ask (b : Builtin) (site : Site) (operands : List (Operand V)) :
    ((Code.builtin b).ask host site operands).outcome? (Request.answer host) =
      some (b.native.call site (Argument.ofValues host site 0 (operands.map Operand.value))) := by
  cases b with
  | select =>
    simp only [Code.ask, Native.call, Builtin.native]
    cases htake : takeInputs [.any, .string, .expression] (some .any)
      (Argument.ofValues host site 0 (operands.map Operand.value)) with
    | error e => rfl
    | ok inputs =>
      obtain ⟨collection, name, predicate, references⟩ := inputs
      obtain ⟨-, hmeaning⟩ := takeInputs_select_ofValues htake
      have hanswer : ∀ (origin : Origin) (env : Env V),
          Request.answer host ⟨origin, predicate.expression, 2 :: site, env⟩ =
            predicate.evaluate env := by
        intro origin env
        rw [hmeaning]
        rfl
      simp only
      rw [Asking.outcome?_map,
        Collections.outcome?_askSelect (fun env => rfl) (fun env => hanswer _ env)]
      rfl
  | _ => rfl

/-- With the answers of evaluation, the outcome is what evaluation gives. -/
theorem Expr.outcome?_ask {e : Expr V} (he : e.OnlyBuiltins) (site : Site) (env : Env V) :
    (e.ask host site env).outcome? (Request.answer host) = some (e.evaluateAt host site env) := by
  cases he with
  | literal v =>
    rw [evaluateAt]
    rfl
  | lookup name =>
    rw [evaluateAt]
    rfl
  | @field parent name _ =>
    rw [evaluateAt_field]
    simp only [ask, Asking.outcome?, Request.answer]
    cases parent.evaluateAt host (0 :: site) env <;> rfl
  | @call f arguments index hf _ =>
    obtain ⟨b, hb⟩ := hf
    have hnative : f.native host = b.native := by
      rw [Function.native, hb]
      rfl
    obtain ⟨found, hfound, hvalues⟩ := outcome?_askArguments host (f.signature host) 0 site env
      arguments
    rw [ask, Asking.outcome?_bind, hfound, evaluateAt_call]
    rcases evaluateArguments_cases host (f.signature host) 0 arguments site env with
      ⟨err, harguments, herror⟩ | ⟨taken, values, harguments, hok, halike⟩
    · rw [harguments]
      rw [herror] at hvalues
      cases found with
      | error err' =>
        cases hvalues
        rfl
      | ok operands => cases hvalues
    · rw [harguments]
      rw [hok] at hvalues
      cases found with
      | error err => cases hvalues
      | ok operands =>
        cases hvalues
        have hcall : (f.native host).call site taken = b.native.call site
            (Argument.ofValues host site 0 (operands.map Operand.value)) := by
          rw [Native.call_congr halike, hnative]
        show (Asking.map _ _).outcome? _ = some (callResult f.name index _)
        rw [Asking.outcome?_map, hb, Code.outcome?_ask, hcall]
        rfl

end

end ExprLang
