import ExprLang.Proofs.Evaluation
import ExprLang.Proofs.Extensional
import ExprLang.Demo.Objects
import ExprLang.Registry
import Mathlib.Data.List.Forall2

/-!
# Interchangeable expressions

Expressions that evaluate alike can stand for each other in any context of built-in functions, also in
an argument that is not evaluated where it stands. Such an argument reaches its function as text and
meaning, and it is the meaning alone that a built-in function can make use of; so the two calls, which
are given different arguments, still answer alike.

An expression is evaluated at a site, and where it makes new objects its value may depend on the site.
It is *steady* if what it evaluates to is a function of the environment alone, and what is made of steady
functions and methods is steady.

Main statement: `evaluate_fill`.
-/

namespace ExprLang

variable {V : Vocabulary} {host : Host V}

/-- The methods of the objects are functions of the receiver and of the arguments, and none of them
takes an expression. -/
structure Host.HasPlainMethods (host : Host V) : Prop where
  eager : ∀ o name m, (host.methods o).find? name = some m → m.signature.IsEager
  steady : ∀ o name m, (host.methods o).find? name = some m → m.IsSteady

namespace Expr

/-! ## Equivalence -/

/-- The expressions evaluate alike, wherever they stand. -/
def Equivalent (host : Host V) (a b : Expr V) : Prop :=
  ∀ site env, a.evaluateAt host site env = b.evaluateAt host site env

theorem Equivalent.refl (a : Expr V) : Equivalent host a a := fun _ _ => rfl

theorem Equivalent.argumentAt_meaning {a b : Expr V} (h : Equivalent host a b) (s : Signature)
    (i : Nat) (site : Site) (env : Env V) :
    (a.argumentAt host s i site env).map (s.meaningAt i) =
      (b.argumentAt host s i site env).map (s.meaningAt i) := by
  by_cases hkind : s.kindAt i = some .expression
  · have hmeaning : a.evaluateAt host (i :: site) = b.evaluateAt host (i :: site) :=
      funext fun env => h (i :: site) env
    simp only [argumentAt_of_deferred hkind, Except.map, Signature.meaningAt, if_pos hkind,
      Argument.meaning, hmeaning]
  · rw [argumentAt_of_evaluated hkind, argumentAt_of_evaluated hkind, h]

theorem evaluateArguments_meanings {es es' : List (Expr V)}
    (h : List.Forall₂ (Equivalent host) es es') (s : Signature) (i : Nat) (site : Site)
    (env : Env V) :
    (evaluateArguments host s i es site env).map (s.meanings i) =
      (evaluateArguments host s i es' site env).map (s.meanings i) := by
  -- What is left of a list of arguments is what is left of the first and what is left of the others.
  have hcons : ∀ (i : Nat) (first : Except EvalError (Argument V))
      (others : Except EvalError (List (Argument V))),
      (first.bind fun a => others.map (a :: ·)).map (s.meanings i) =
        (first.map (s.meaningAt i)).bind fun a => (others.map (s.meanings (i + 1))).map (a :: ·) := by
    intro i first others
    cases first <;> cases others <;> rfl
  induction h generalizing i with
  | nil => rfl
  | cons hfirst _ ih =>
    rw [evaluateArguments_cons, evaluateArguments_cons, hcons, hcons, hfirst.argumentAt_meaning,
      ih]

/-- Arguments of one meaning have one outcome, where only the meaning counts. -/
theorem bind_eq_of_meanings {s : Signature} {found found' : Except EvalError (List (Argument V))}
    {next : List (Argument V) → Except EvalError (Value V)}
    (h : found.map (s.meanings 0) = found'.map (s.meanings 0))
    (hnext : ∀ arguments arguments', s.meanings 0 arguments = s.meanings 0 arguments' →
      next arguments = next arguments') : found.bind next = found'.bind next := by
  cases found with
  | error e =>
    cases found' with
    | error e' =>
      cases h
      rfl
    | ok arguments' => cases h
  | ok arguments =>
    cases found' with
    | error e' => cases h
    | ok arguments' => exact hnext arguments arguments' (Except.ok.inj h)

theorem Equivalent.field {parent parent' : Expr V} (h : Equivalent host parent parent')
    (name : String) : Equivalent host (.field parent name) (.field parent' name) := by
  intro site env
  rw [evaluateAt_field, evaluateAt_field, h]

theorem Equivalent.call {f : Function V} (hf : (f.native host).IsExtensional)
    {es es' : List (Expr V)} (h : List.Forall₂ (Equivalent host) es es') (index : Nat) :
    Equivalent host (.call f es index) (.call f es' index) := by
  intro site env
  rw [evaluateAt_call, evaluateAt_call]
  refine bind_eq_of_meanings (evaluateArguments_meanings h (f.signature host) 0 site env) ?_
  intro arguments arguments' hmeanings
  rw [hf site arguments arguments' hmeanings]

theorem Equivalent.method (hhost : host.HasPlainMethods) {parent parent' : Expr V}
    (hparent : Equivalent host parent parent') {es es' : List (Expr V)}
    (h : List.Forall₂ (Equivalent host) es es') (name : String) (index : Nat) :
    Equivalent host (.method parent name es index) (.method parent' name es' index) := by
  intro site env
  refine evaluateAt_method_congr ?_ fun o m hm => ?_
  · rw [hparent, h.length_eq]
  · have hextensional : m.IsExtensional :=
      Method.isExtensional_of_isEager (hhost.eager o name m hm)
    refine bind_eq_of_meanings (evaluateArguments_meanings h m.signature 0 site env) ?_
    intro arguments arguments' hmeanings
    rw [hextensional o site arguments arguments' hmeanings]

/-! ## Steady expressions -/

/-- What the expression evaluates to is a function of the environment. -/
def Steady (host : Host V) (e : Expr V) : Prop :=
  ∀ site site' env, e.evaluateAt host site env = e.evaluateAt host site' env

/-- Every function that is called anywhere in the expression is one of these. -/
inductive CallsOnly (p : Function V → Prop) : Expr V → Prop where
  | literal (v : Value V) : CallsOnly p (.literal v)
  | lookup (name : String) : CallsOnly p (.lookup name)
  | field {parent : Expr V} (name : String) : CallsOnly p parent → CallsOnly p (.field parent name)
  | call {f : Function V} {arguments : List (Expr V)} (index : Nat) : p f →
      (∀ e ∈ arguments, CallsOnly p e) → CallsOnly p (.call f arguments index)
  | method {parent : Expr V} (name : String) {arguments : List (Expr V)} (index : Nat) :
      CallsOnly p parent → (∀ e ∈ arguments, CallsOnly p e) →
      CallsOnly p (.method parent name arguments index)

theorem CallsOnly.imp {p q : Function V → Prop} (hpq : ∀ f, p f → q f) {e : Expr V}
    (h : e.CallsOnly p) : e.CallsOnly q := by
  induction h with
  | literal v => exact .literal v
  | lookup name => exact .lookup name
  | field name _ ih => exact .field name ih
  | call index hf _ ih => exact .call index (hpq _ hf) ih
  | method name index _ _ ihparent iharguments => exact .method name index ihparent iharguments

theorem evaluateArguments_of_steady {es : List (Expr V)} (h : ∀ e ∈ es, e.Steady host)
    (s : Signature) (site site' : Site) (env : Env V) :
    evaluateArguments host s 0 es site env = evaluateArguments host s 0 es site' env := by
  refine evaluateArguments_congr fun i e he => ?_
  have hsteady : e.Steady host := h e (List.mem_of_getElem? he)
  have hmeaning : e.evaluateAt host (i :: site) = e.evaluateAt host (i :: site') :=
    funext fun env => hsteady (i :: site) (i :: site') env
  rw [Nat.zero_add]
  exact argumentAt_congr (fun _ => hmeaning) fun _ => congrFun hmeaning env

/-- What is made of steady functions and methods is steady. -/
theorem steady_of_callsOnly (hhost : host.HasPlainMethods) {e : Expr V}
    (h : e.CallsOnly fun f => (f.native host).IsSteady) : e.Steady host := by
  induction h with
  | literal v =>
    intro site site' env
    simp only [evaluateAt]
  | lookup name =>
    intro site site' env
    simp only [evaluateAt]
  | field name _ ih =>
    intro site site' env
    rw [evaluateAt_field, evaluateAt_field, ih (0 :: site) (0 :: site') env]
  | @call f arguments index hf _ ih =>
    intro site site' env
    rw [evaluateAt_call, evaluateAt_call, evaluateArguments_of_steady ih _ site site' env]
    simp only [hf.call_eq site site']
  | @method parent name arguments index _ _ ihparent iharguments =>
    intro site site' env
    refine evaluateAt_method_congr (ihparent _ _ env) fun o m hm => ?_
    have hsteady : m.IsSteady := hhost.steady o name m hm
    rw [callMethodAt, callMethodAt, evaluateArguments_of_steady iharguments _ site site' env]
    simp only [hsteady.call_eq o site site']

theorem equivalent_of_steady {a b : Expr V} (ha : a.Steady host) (hb : b.Steady host)
    (h : ∀ env, a.evaluate host env = b.evaluate host env) : Equivalent host a b := by
  intro site env
  calc
    a.evaluateAt host site env = a.evaluateAt host [] env := ha site [] env
    _ = b.evaluateAt host [] env := h env
    _ = b.evaluateAt host site env := hb [] site env

end Expr

/-! ## Contexts -/

/-- An expression with a hole. -/
inductive Context (V : Vocabulary) where
  | hole
  | field (c : Context V) (name : String)
  | argument (f : Function V) (before : List (Expr V)) (c : Context V) (after : List (Expr V))
      (index : Nat)
  | receiver (c : Context V) (name : String) (arguments : List (Expr V)) (index : Nat)
  | methodArgument (parent : Expr V) (name : String) (before : List (Expr V)) (c : Context V)
      (after : List (Expr V)) (index : Nat)

namespace Context

def fill : Context V → Expr V → Expr V
  | hole, e => e
  | field c name, e => .field (c.fill e) name
  | argument f before c after index, e => .call f (before ++ c.fill e :: after) index
  | receiver c name arguments index, e => .method (c.fill e) name arguments index
  | methodArgument parent name before c after index, e =>
    .method parent name (before ++ c.fill e :: after) index

/-- Every function on the way to the hole is one of these. -/
def CallsOnly (p : Function V → Prop) : Context V → Prop
  | hole => True
  | field c _ => c.CallsOnly p
  | argument f _ c _ _ => p f ∧ c.CallsOnly p
  | receiver c _ _ _ => c.CallsOnly p
  | methodArgument _ _ _ c _ _ => c.CallsOnly p

theorem CallsOnly.imp {p q : Function V → Prop} (hpq : ∀ f, p f → q f) {c : Context V}
    (h : c.CallsOnly p) : c.CallsOnly q := by
  induction c with
  | hole => trivial
  | argument f before c after index ih => exact ⟨hpq f h.1, ih h.2⟩
  | field c name ih => exact ih h
  | receiver c name arguments index ih => exact ih h
  | methodArgument parent name before c after index ih => exact ih h

end Context

open ExprLang.Expr (Equivalent Steady)

theorem forall₂_equivalent_around {a b : Expr V} (h : Equivalent host a b)
    (before after : List (Expr V)) :
    List.Forall₂ (Equivalent host) (before ++ a :: after) (before ++ b :: after) := by
  have hrefl : ∀ es : List (Expr V), List.Forall₂ (Equivalent host) es es := fun es =>
    List.forall₂_same.mpr fun e _ => .refl e
  exact List.rel_append (hrefl before) (.cons h (hrefl after))

/-- Equivalent expressions stay so in every context of extensional functions. -/
theorem Context.equivalent_fill (hhost : host.HasPlainMethods) {c : Context V}
    (hc : c.CallsOnly fun f => (f.native host).IsExtensional) {a b : Expr V}
    (h : Equivalent host a b) : Equivalent host (c.fill a) (c.fill b) := by
  induction c with
  | hole => exact h
  | field c name ih => exact (ih hc).field name
  | argument f before c after index ih =>
    exact .call hc.1 (forall₂_equivalent_around (ih hc.2) before after) index
  | receiver c name arguments index ih =>
    have harguments : List.Forall₂ (Equivalent host) arguments arguments :=
      List.forall₂_same.mpr fun e _ => .refl e
    exact .method hhost (ih hc) harguments name index
  | methodArgument parent name before c after index ih =>
    exact .method hhost (.refl parent) (forall₂_equivalent_around (ih hc) before after) name index

/-! ## Built-in functions -/

def Function.IsBuiltin (f : Function V) : Prop := ∃ b, f.code = .builtin b

theorem Function.IsBuiltin.isExtensional {f : Function V} (h : f.IsBuiltin) :
    (f.native host).IsExtensional := by
  obtain ⟨b, hb⟩ := h
  rw [native, hb]
  exact b.isExtensional

theorem Function.IsBuiltin.isSteady {f : Function V} (h : f.IsBuiltin) :
    (f.native host).IsSteady := by
  obtain ⟨b, hb⟩ := h
  rw [native, hb]
  exact b.isSteady

theorem Expr.evaluateAt_group {group : Function V} (hgroup : group.code = .builtin .nil)
    (e : Expr V) (site : Site) (env : Env V) :
    (Expr.call group [e] 0).evaluateAt host site env = e.evaluateAt host (0 :: site) env := by
  rw [evaluateAt_ofOne hgroup rfl]
  cases e.evaluateAt host (0 :: site) env with
  | error err => rfl
  | ok v => rfl

/-- Evaluation is compositional: expressions that evaluate alike do so in every context whose functions
are built in, and a group can be put around anything. What an expression evaluates to is a function of
the environment wherever it only calls functions of their arguments. -/
theorem evaluate_fill (host : Host V) (hhost : host.HasPlainMethods) (c : Context V)
    (hc : c.CallsOnly Function.IsBuiltin) :
    (∀ a b : Expr V, a.Steady host → b.Steady host →
      (∀ env, a.evaluate host env = b.evaluate host env) →
        ∀ env, (c.fill a).evaluate host env = (c.fill b).evaluate host env) ∧
    (∀ a b : Expr V, Equivalent host a b → Equivalent host (c.fill a) (c.fill b)) ∧
    (∀ (group : Function V) (e : Expr V), group.code = .builtin .nil →
      e.CallsOnly Function.IsBuiltin → ∀ env,
        (c.fill (.call group [e] 0)).evaluate host env = (c.fill e).evaluate host env) ∧
    (∀ e : Expr V, (e.CallsOnly fun f => (f.native host).IsSteady) → e.Steady host) := by
  have hfill : ∀ a b : Expr V, Equivalent host a b → Equivalent host (c.fill a) (c.fill b) :=
    fun a b h => Context.equivalent_fill hhost (hc.imp fun f hf => hf.isExtensional) h
  refine ⟨?_, hfill, ?_, fun e => Expr.steady_of_callsOnly hhost⟩
  · intro a b ha hb h env
    exact hfill a b (Expr.equivalent_of_steady ha hb h) [] env
  · intro group e hgroup he env
    have hsteady : e.Steady host :=
      Expr.steady_of_callsOnly hhost (he.imp fun f hf => hf.isSteady)
    refine hfill _ _ (fun site env => ?_) [] env
    rw [Expr.evaluateAt_group hgroup, hsteady (0 :: site) site env]

/-- Of all methods only the one that gets the books of a library. -/
def booksOnly : Host Demo.vocabulary where
  native := Demo.host.native
  field := Demo.host.field
  methods _ := Table.empty.insert "GetBooks"
    (Demo.ofLibrary [] fun () => .result (.list Demo.bookObjects))

theorem hasPlainMethods_booksOnly : booksOnly.HasPlainMethods := by
  have hfind : ∀ o name m, (booksOnly.methods o).find? name = some m →
      Demo.ofLibrary [] (fun () => .result (.list Demo.bookObjects)) = m := by
    intro o name m h
    simp only [booksOnly, Table.find?_insert] at h
    split at h
    · exact Option.some.inj h
    · cases h
  constructor
  · intro o name m h
    rw [← hfind o name m h, Signature.isEager_iff]
    exact ⟨List.not_mem_nil, nofun⟩
  · intro o name m h
    rw [← hfind o name m h]
    intro receiver run hrun
    cases receiver with
    | library =>
      cases hrun
      exact fun _ _ => rfl
    | _ => cases hrun

/-- `select(slice(lib), "l", count(select(l.GetBooks(), "b", ·)) == 1)` with a hole for the inner
predicate. -/
def innerPredicate : Context Demo.vocabulary :=
  .argument (Builtin.select.toFunction 0)
    [.call (Builtin.slice.toFunction 0) [.lookup "lib"] 0, .literal (.string "l")]
    (.argument (Builtin.equals.toFunction 0) []
      (.argument (Builtin.count.toFunction 0) []
        (.argument (Builtin.select.toFunction 0)
          [.method (.lookup "l") "GetBooks" [] 0, .literal (.string "b")] .hole [] 0) [] 0)
      [.literal (Demo.number 1)] 0) [] 0

/-- `b.Title == "1984"` -/
def titleIs1984 : Expr Demo.vocabulary :=
  .call (Builtin.equals.toFunction 0)
    [.field (.lookup "b") "Title", .literal (.string "1984")] 0

theorem evaluate_fill_innerPredicate :
    let group : Expr Demo.vocabulary := .call (Builtin.nil.toFunction 0) [titleIs1984] 0
    let env : Env Demo.vocabulary := Table.empty.insert "lib" (.object Demo.Object.library)
    (booksOnly.HasPlainMethods ∧ innerPredicate.CallsOnly Function.IsBuiltin ∧
      titleIs1984.Steady booksOnly ∧ group.Steady booksOnly ∧
        ∀ env, titleIs1984.evaluate booksOnly env = group.evaluate booksOnly env) ∧
      (innerPredicate.fill titleIs1984).evaluate booksOnly env =
        (innerPredicate.fill group).evaluate booksOnly env ∧
      (innerPredicate.fill group).evaluate booksOnly env =
        .ok (.list [.object Demo.Object.library]) := by
  intro group env
  have hbuiltin : ∀ b : Builtin, (b.toFunction 0 : Function Demo.vocabulary).IsBuiltin :=
    fun b => ⟨b, rfl⟩
  have hcontext : innerPredicate.CallsOnly Function.IsBuiltin :=
    ⟨hbuiltin _, hbuiltin _, hbuiltin _, hbuiltin _, trivial⟩
  have htitle : titleIs1984.Steady booksOnly := fun _ _ _ => rfl
  have hgroup : group.Steady booksOnly := by
    intro site site' env
    rw [Expr.evaluateAt_group rfl, Expr.evaluateAt_group rfl, htitle (0 :: site)]
  have hequal : ∀ env, titleIs1984.evaluate booksOnly env = group.evaluate booksOnly env :=
    fun env => (Expr.evaluateAt_group rfl titleIs1984 [] env).symm
  exact ⟨⟨hasPlainMethods_booksOnly, hcontext, htitle, hgroup, hequal⟩,
    (evaluate_fill booksOnly hasPlainMethods_booksOnly innerPredicate hcontext).1 titleIs1984 group
      htitle hgroup hequal env, by rfl⟩

end ExprLang
