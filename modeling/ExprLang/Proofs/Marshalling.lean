import ExprLang.Evaluate
import Mathlib.Data.List.Forall2
import Mathlib.Data.Nat.Find

/-!
# How the arguments of a call are taken

A callable records its parameters twice: as a signature, which a caller can ask, and as the steps that
a cursor takes over the arguments. Both describe one list of parameters, and what a call answers can be
said without the cursor. The first argument that its parameter rejects is reported, wherever it stands
and however many arguments there are; otherwise a wrong count; otherwise the body runs, once, on what
the arguments become.

That the body runs at most once, and when it does not run at all, cannot be seen in the answer of a
body without effects. So the law is said of a call whose body may have effects (`callWith`), of which
the calls of natives and methods are the ones without.

Main statement: `calls_marshal`, from `Inputs.taking_take` and `marshals_callWith`.
-/

namespace ExprLang

variable {V : Vocabulary} {params : List Param} {rest : Option Param}

/-! ## One argument -/

namespace Param

variable {p : Param} {a : Argument V}

/-- The argument becomes `x`: nil becomes the zero of the parameter, where there is one, and everything
else is taken as it is. -/
inductive Takes (p : Param) (a : Argument V) : p.Carrier V → Prop where
  | zero {x : p.Carrier V} : a.toValue.isNil = true → p.zero? = some x → Takes p a x
  | own {x : p.Carrier V} :
      (a.toValue.isNil = true → (p.zero? : Option (p.Carrier V)) = none) → p.accept? a = some x →
      Takes p a x

/-- The argument is neither nil for a parameter with a zero nor of the kind of the parameter. -/
def Rejects (p : Param) (a : Argument V) : Prop :=
  (a.toValue.isNil = true → (p.zero? : Option (p.Carrier V)) = none) ∧ p.accept? a = none

theorem convert_eq (p : Param) (position : Nat) (a : Argument V) :
    (∃ x, p.Takes a x ∧ p.convert position a = .ok x) ∨
      (p.Rejects a ∧
        p.convert position a = .error (.argumentType position p.kind a.toValue.typeName)) := by
  rw [convert_eq_match]
  cases hzero : (if a.toValue.isNil then p.zero? else none : Option (p.Carrier V)) with
  | some x =>
    obtain ⟨hnil, hx⟩ := Option.ite_none_right_eq_some.mp hzero
    exact .inl ⟨x, .zero hnil hx, rfl⟩
  | none =>
    have hnone : a.toValue.isNil = true → (p.zero? : Option (p.Carrier V)) = none := by
      intro hnil
      rwa [if_pos hnil] at hzero
    cases haccept : p.accept? a with
    | some x => exact .inl ⟨x, .own hnone haccept, rfl⟩
    | none => exact .inr ⟨⟨hnone, haccept⟩, rfl⟩

theorem Takes.not_rejects {x : p.Carrier V} (h : p.Takes a x) : ¬ p.Rejects a := by
  rintro ⟨hzero, haccept⟩
  cases h with
  | zero hnil hx =>
    rw [hzero hnil] at hx
    cases hx
  | own _ hx =>
    rw [haccept] at hx
    cases hx

end Param

/-! ## All arguments -/

/-- The parameter that takes the argument at a position, counted from zero. -/
def paramAt (params : List Param) (rest : Option Param) (i : Nat) : Option Param :=
  params[i]? <|> rest

theorem kindAt_signatureOf (params : List Param) (rest : Option Param) (i : Nat) :
    (signatureOf params rest).kindAt i = (paramAt params rest i).map Param.kind := by
  cases h : params[i]? <;> simp [signatureOf, Signature.kindAt, paramAt, h]

/-- The argument at a position is one that its parameter rejects. -/
def IsBad (params : List Param) (rest : Option Param) (arguments : List (Argument V)) (i : Nat) :
    Prop :=
  ∃ p a, paramAt params rest i = some p ∧ arguments[i]? = some a ∧ p.Rejects a

/-- The typed arguments are what the arguments become, in order. -/
def Inputs.Become : (params : List Param) → (rest : Option Param) → List (Argument V) →
    Inputs V params rest → Prop
  | [], none, arguments, _ => arguments = []
  | [], some p, arguments, xs => List.Forall₂ p.Takes arguments xs
  | p :: params, rest, arguments, (x, xs) =>
    ∃ a more, arguments = a :: more ∧ p.Takes a x ∧ Inputs.Become params rest more xs

theorem not_isBad_nil (i : Nat) : ¬ IsBad params rest ([] : List (Argument V)) i := by
  rintro ⟨p, a, -, ha, -⟩
  cases ha

/-- Behind the parameter `p` of one list of parameters, the other list is left. -/
structure Behind (p : Param) (params : List Param) (rest : Option Param) (left : List Param)
    (more : Option Param) : Prop where
  first : paramAt params rest 0 = some p
  others : ∀ i, paramAt params rest (i + 1) = paramAt left more i
  accepts : ∀ n, (signatureOf params rest).arity.accepts (n + 1) =
    (signatureOf left more).arity.accepts n

theorem behind_cons (p : Param) (params : List Param) (rest : Option Param) :
    Behind p (p :: params) rest params rest where
  first := rfl
  others _ := rfl
  accepts n := by cases rest <;> simp [signatureOf, Signature.arity, Arity.accepts]

theorem behind_rest (p : Param) : Behind p [] (some p) [] (some p) where
  first := rfl
  others _ := rfl
  accepts n := by simp [signatureOf, Signature.arity, Arity.accepts]

namespace Behind

variable {p : Param} {left : List Param} {more : Option Param} {a : Argument V}
  {arguments : List (Argument V)}

theorem isBad_zero_iff (h : Behind p params rest left more) :
    IsBad params rest (a :: arguments) 0 ↔ p.Rejects a := by
  constructor
  · rintro ⟨q, b, hq, hb, hrejects⟩
    rw [h.first] at hq
    cases hq
    cases hb
    exact hrejects
  · intro hrejects
    exact ⟨p, a, h.first, rfl, hrejects⟩

theorem isBad_succ_iff (h : Behind p params rest left more) (i : Nat) :
    IsBad params rest (a :: arguments) (i + 1) ↔ IsBad left more arguments i := by
  unfold IsBad
  rw [h.others]
  rfl

end Behind

/-! ## The steps of a cursor -/

theorem Arguments.convertAll_cons (p : Param) (position : Nat) (a : Argument V)
    (others : List (Nat × Argument V)) :
    convertAll p ((position, a) :: others) =
      (p.convert position a).bind fun x => (convertAll p others).map (x :: ·) := by
  rw [convertAll]
  cases p.convert position a with
  | error e => rfl
  | ok x => cases convertAll p others <;> rfl

theorem Inputs.take_cons (p : Param) (params : List Param) (rest : Option Param) (a : Argument V)
    (arguments : List (Argument V)) (taken total : Nat) (arity : Arity) :
    take (p :: params) rest ⟨a :: arguments, taken, total, arity⟩ =
      (p.convert (taken + 1) a).bind fun x =>
        (take params rest ⟨arguments, taken + 1, total, arity⟩).map fun xs => (x, xs) := by
  rw [take, Arguments.take, Arguments.next]
  cases hconvert : p.convert (taken + 1) a with
  | error e => simp only [hconvert, Except.bind]
  | ok x =>
    simp only [hconvert, Except.bind]
    cases take params rest ⟨arguments, taken + 1, total, arity⟩ <;> rfl

namespace Inputs

/-- What a cursor finds: the first argument that is rejected, or else a wrong count, or else what the
arguments become. -/
inductive Taking (params : List Param) (rest : Option Param) (c : Arguments V) :
    Except InvokeError (Inputs V params rest) → Prop where
  | rejected {i : Nat} {p : Param} {a : Argument V} :
      paramAt params rest i = some p → c.pending[i]? = some a → p.Rejects a →
      (∀ j < i, ¬ IsBad params rest c.pending j) →
      Taking params rest c
        (.error (.argumentType (c.taken + i + 1) p.kind a.toValue.typeName))
  | miscounted :
      (∀ i, ¬ IsBad params rest c.pending i) →
      (signatureOf params rest).arity.accepts c.pending.length = false →
      Taking params rest c (.error c.arityError)
  | taken {inputs : Inputs V params rest} :
      (∀ i, ¬ IsBad params rest c.pending i) →
      (signatureOf params rest).arity.accepts c.pending.length = true →
      Inputs.Become params rest c.pending inputs → Taking params rest c (.ok inputs)

variable {p : Param} {left : List Param} {more : Option Param} {a : Argument V}
  {arguments : List (Argument V)} {taken total : Nat} {arity : Arity}

theorem Taking.of_rejects (h : Behind p params rest left more) (hrejects : p.Rejects a) :
    Taking params rest ⟨a :: arguments, taken, total, arity⟩
      (.error (.argumentType (taken + 1) p.kind a.toValue.typeName)) :=
  .rejected (i := 0) (c := ⟨a :: arguments, taken, total, arity⟩) h.first rfl hrejects
    fun _ hj => absurd hj (Nat.not_lt_zero _)

theorem Taking.cons (h : Behind p params rest left more) {x : p.Carrier V} (hx : p.Takes a x)
    (put : Inputs V left more → Inputs V params rest)
    (hput : ∀ xs, Become left more arguments xs → Become params rest (a :: arguments) (put xs))
    {found : Except InvokeError (Inputs V left more)}
    (hfound : Taking left more ⟨arguments, taken + 1, total, arity⟩ found) :
    Taking params rest ⟨a :: arguments, taken, total, arity⟩ (found.map put) := by
  have hzero : ¬ IsBad params rest (a :: arguments) 0 := by
    rw [h.isBad_zero_iff]
    exact hx.not_rejects
  have hall : (∀ i, ¬ IsBad left more arguments i) → ∀ i, ¬ IsBad params rest (a :: arguments) i := by
    intro hleft i
    cases i with
    | zero => exact hzero
    | succ i =>
      rw [h.isBad_succ_iff]
      exact hleft i
  cases hfound with
  | @rejected i q b hq hb hrejects hbefore =>
    have hposition : taken + 1 + i + 1 = taken + (i + 1) + 1 := by omega
    simp only [Except.map, hposition]
    refine .rejected (i := i + 1) (c := ⟨a :: arguments, taken, total, arity⟩)
      ((h.others i).trans hq) hb hrejects ?_
    intro j hj
    cases j with
    | zero => exact hzero
    | succ j =>
      rw [h.isBad_succ_iff]
      exact hbefore j (Nat.lt_of_succ_lt_succ hj)
  | miscounted hleft hcount =>
    exact .miscounted (c := ⟨a :: arguments, taken, total, arity⟩) (hall hleft)
      ((h.accepts _).trans hcount)
  | taken hleft hcount hbecome =>
    exact .taken (c := ⟨a :: arguments, taken, total, arity⟩) (hall hleft)
      ((h.accepts _).trans hcount) (hput _ hbecome)

theorem Taking.step (h : Behind p params rest left more)
    (put : p.Carrier V → Inputs V left more → Inputs V params rest)
    (hput : ∀ x xs, p.Takes a x → Become left more arguments xs →
      Become params rest (a :: arguments) (put x xs))
    {found : Except InvokeError (Inputs V left more)}
    (hfound : Taking left more ⟨arguments, taken + 1, total, arity⟩ found) :
    Taking params rest ⟨a :: arguments, taken, total, arity⟩
      ((p.convert (taken + 1) a).bind fun x => found.map (put x)) := by
  rcases p.convert_eq (taken + 1) a with ⟨x, hx, hconvert⟩ | ⟨hrejects, hconvert⟩
  · rw [hconvert]
    exact hfound.cons h hx (put x) fun xs => hput x xs hx
  · rw [hconvert]
    exact .of_rejects h hrejects

theorem taking_convertAll (p : Param) (arguments : List (Argument V)) (taken total : Nat)
    (arity : Arity) :
    Taking [] (some p) ⟨arguments, taken, total, arity⟩
      (Arguments.convertAll p (Arguments.number taken arguments)) := by
  induction arguments generalizing taken with
  | nil => exact .taken not_isBad_nil rfl .nil
  | cons a arguments ih =>
    rw [Arguments.number, Arguments.convertAll_cons]
    exact .step (behind_rest p) (· :: ·) (fun x xs hx hxs => .cons hx hxs) (ih (taken + 1))

/-- The steps of the cursor find what the signature promises. -/
theorem taking_take (params : List Param) (rest : Option Param) (c : Arguments V) :
    Taking params rest c (Inputs.take params rest c) := by
  induction params generalizing c with
  | nil =>
    obtain ⟨arguments, taken, total, arity⟩ := c
    cases rest with
    | some p => exact taking_convertAll p arguments taken total arity
    | none =>
      have hbad : ∀ i, ¬ IsBad [] none arguments i := by
        rintro i ⟨p, a, hp, -⟩
        cases hp
      cases arguments with
      | nil => exact .taken hbad rfl rfl
      | cons a arguments => exact .miscounted hbad rfl
  | cons p params ih =>
    obtain ⟨arguments, taken, total, arity⟩ := c
    cases arguments with
    | nil =>
      refine .miscounted not_isBad_nil ?_
      cases rest <;> rfl
    | cons a arguments =>
      rw [take_cons]
      exact .step (behind_cons p params rest) (fun x xs => (x, xs))
        (fun x xs hx hxs => ⟨a, arguments, rfl, hx, hxs⟩) (ih ⟨arguments, taken + 1, total, arity⟩)

end Inputs

/-! ## Calls -/

/-- A call of a body that may have effects. -/
def callWith {m : Type → Type} [Monad m] (params : List Param) (rest : Option Param)
    (body : Inputs V params rest → m (Outcome V)) (arguments : List (Argument V)) :
    m (Except InvokeError (List (Value V))) :=
  match takeInputs params rest arguments with
  | .error e => pure (.error e)
  | .ok inputs => Outcome.toExcept <$> body inputs

theorem Native.call_eq_callWith (n : Native V) (site : Site) (arguments : List (Argument V)) :
    n.call site arguments = callWith (m := Id) n.params n.rest (n.run site) arguments := by
  unfold call callWith
  cases takeInputs n.params n.rest arguments <;> rfl

theorem Method.call_eq_callWith {m : Method V} {receiver : V.Object}
    {run : Site → Inputs V m.params m.rest → Outcome V} (h : m.bind receiver = some run)
    (site : Site) (arguments : List (Argument V)) :
    m.call receiver site arguments = callWith (m := Id) m.params m.rest (run site) arguments := by
  unfold call callWith
  rw [h]
  cases takeInputs m.params m.rest arguments <;> rfl

/-- The first argument that its parameter rejects stands at a position. -/
def IsFirstBad (params : List Param) (rest : Option Param) (arguments : List (Argument V)) (i : Nat) :
    Prop :=
  IsBad params rest arguments i ∧ ∀ j < i, ¬ IsBad params rest arguments j

theorem exists_isFirstBad {arguments : List (Argument V)} {i : Nat}
    (h : IsBad params rest arguments i) : ∃ j, IsFirstBad params rest arguments j := by
  classical
  have hbad : ∃ j, IsBad params rest arguments j := ⟨i, h⟩
  exact ⟨Nat.find hbad, Nat.find_spec hbad, fun j hj => Nat.find_min hbad hj⟩

/-- The law of calls: what is answered, and that nothing but the last case touches the body. -/
structure Marshals {m : Type → Type} [Monad m] (params : List Param) (rest : Option Param)
    (arguments : List (Argument V)) (body : Inputs V params rest → m (Outcome V))
    (answer : m (Except InvokeError (List (Value V)))) : Prop where
  argumentType : ∀ i, IsFirstBad params rest arguments i →
    ∃ kind a, (signatureOf params rest).kindAt i = some kind ∧ arguments[i]? = some a ∧
      answer = pure (.error (.argumentType (i + 1) kind a.toValue.typeName))
  arity : (∀ i, ¬ IsBad params rest arguments i) →
    (signatureOf params rest).arity.accepts arguments.length = false →
    answer = pure (.error (.arity (signatureOf params rest).arity arguments.length))
  run : (∀ i, ¬ IsBad params rest arguments i) →
    (signatureOf params rest).arity.accepts arguments.length = true →
    ∃ inputs, Inputs.Become params rest arguments inputs ∧
      answer = (fun
        | .results values => .ok values
        | .failed reason => .error (.failed reason)
        | .panicked reason => .error (.panicked reason)) <$> body inputs

theorem Outcome.toExcept_eq_cases : (toExcept : Outcome V → Except InvokeError (List (Value V))) =
    fun
      | .results values => .ok values
      | .failed reason => .error (.failed reason)
      | .panicked reason => .error (.panicked reason) := by
  funext outcome
  cases outcome <;> rfl

theorem marshals_callWith {m : Type → Type} [Monad m] (params : List Param) (rest : Option Param)
    (arguments : List (Argument V)) (body : Inputs V params rest → m (Outcome V)) :
    Marshals params rest arguments body (callWith params rest body arguments) := by
  have htaking := Inputs.taking_take params rest
    (Arguments.ofList arguments (signatureOf params rest).arity)
  unfold callWith takeInputs
  generalize Inputs.take params rest _ = found at htaking
  cases htaking with
  | @rejected i p a hp ha hrejects hbefore =>
    have hbad : IsBad params rest arguments i := ⟨p, a, hp, ha, hrejects⟩
    refine ⟨fun j ⟨hj, hfirst⟩ => ?_, fun hall => absurd hbad (hall i), fun hall => absurd hbad (hall i)⟩
    obtain rfl : j = i := by
      rcases Nat.lt_trichotomy j i with hlt | heq | hlt
      · exact absurd hj (hbefore j hlt)
      · exact heq
      · exact absurd hbad (hfirst i hlt)
    refine ⟨p.kind, a, ?_, ha, ?_⟩
    · rw [kindAt_signatureOf, hp]
      rfl
    · simp [Arguments.ofList]
  | miscounted hall hcount =>
    refine ⟨fun j hj => absurd hj.1 (hall j), fun _ _ => rfl, fun _ haccepts => ?_⟩
    exact absurd (haccepts.symm.trans hcount) Bool.noConfusion
  | @taken inputs hall hcount hbecome =>
    refine ⟨fun j hj => absurd hj.1 (hall j), fun _ hrefuses => ?_, fun _ _ => ⟨inputs, hbecome, ?_⟩⟩
    · exact absurd (hrefuses.symm.trans hcount) Bool.noConfusion
    · rw [Outcome.toExcept_eq_cases]

theorem Outcome.toExcept_ne_arity (outcome : Outcome V) (expected : Arity) (actual : Nat) :
    outcome.toExcept ≠ .error (.arity expected actual) := by
  cases outcome <;> simp [toExcept]

/-- The law for a body without effects. What such a body reports is never taken for a wrong count. -/
structure Answers (params : List Param) (rest : Option Param) (arguments : List (Argument V))
    (body : Inputs V params rest → Outcome V) (answer : Except InvokeError (List (Value V))) : Prop
    extends Marshals (m := Id) params rest arguments body answer where
  arity_iff : ∀ expected actual, answer = .error (.arity expected actual) ↔
    (∀ i, ¬ IsBad params rest arguments i) ∧
      (signatureOf params rest).arity.accepts arguments.length = false ∧
      expected = (signatureOf params rest).arity ∧ actual = arguments.length

theorem answers_callWith (params : List Param) (rest : Option Param)
    (arguments : List (Argument V)) (body : Inputs V params rest → Outcome V) :
    Answers params rest arguments body (callWith (m := Id) params rest body arguments) := by
  have hlaw := marshals_callWith (m := Id) params rest arguments body
  refine { hlaw with arity_iff := fun expected actual => ⟨fun hanswer => ?_, ?_⟩ }
  · have hall : ∀ i, ¬ IsBad params rest arguments i := by
      intro i hbad
      obtain ⟨j, hfirst⟩ := exists_isFirstBad hbad
      obtain ⟨kind, a, -, -, htype⟩ := hlaw.argumentType j hfirst
      cases htype.symm.trans hanswer
    cases haccepts : (signatureOf params rest).arity.accepts arguments.length with
    | false =>
      cases (hlaw.arity hall haccepts).symm.trans hanswer
      exact ⟨hall, rfl, rfl, rfl⟩
    | true =>
      obtain ⟨inputs, -, hrun⟩ := hlaw.run hall haccepts
      rw [← Outcome.toExcept_eq_cases] at hrun
      exact absurd (hrun.symm.trans hanswer) (Outcome.toExcept_ne_arity _ _ _)
  · rintro ⟨hall, hcount, rfl, rfl⟩
    exact hlaw.arity hall hcount

/-! ## Values as arguments -/

theorem Value.toValue_toArgument (host : Host V) (site : Site) (v : Value V) :
    (v.toArgument host site).toValue = v := by
  cases v <;> rfl

theorem Argument.map_toValue_ofValues (host : Host V) (site : Site) (i : Nat)
    (values : List (Value V)) :
    (Argument.ofValues host site i values).map Argument.toValue = values := by
  induction values generalizing i with
  | nil => rfl
  | cons v values ih =>
    rw [ofValues, List.map_cons, Value.toValue_toArgument, ih]

/-- The law of calls, for natives, for methods and for functions that are invoked with values. A
receiver that a method does not recognise is reported in front of all arguments. -/
theorem calls_marshal (host : Host V) :
    (∀ (n : Native V) site arguments,
      Answers n.params n.rest arguments (n.run site) (n.call site arguments)) ∧
    (∀ (m : Method V) receiver site arguments,
      match m.bind receiver with
      | none => m.call receiver site arguments =
          .error (.argumentType 0 .object (V.typeName receiver))
      | some run =>
        Answers m.params m.rest arguments (run site) (m.call receiver site arguments)) ∧
    (∀ (f : Function V) site values,
      (Argument.ofValues host site 0 values).map Argument.toValue = values ∧
      Answers (f.native host).params (f.native host).rest (Argument.ofValues host site 0 values)
        ((f.native host).run site) (f.invokeAt host site values)) ∧
    (∀ (n : Native V) site arguments,
      n.call site arguments = callWith (m := Id) n.params n.rest (n.run site) arguments) ∧
    (∀ {m : Type → Type} [Monad m] params rest arguments
      (body : Inputs V params rest → m (Outcome V)),
      Marshals params rest arguments body (callWith params rest body arguments)) := by
  have hnative : ∀ (n : Native V) site arguments,
      Answers n.params n.rest arguments (n.run site) (n.call site arguments) := by
    intro n site arguments
    rw [n.call_eq_callWith]
    exact answers_callWith n.params n.rest arguments (n.run site)
  refine ⟨hnative, ?_, ?_, fun n => n.call_eq_callWith, fun params rest arguments body =>
    marshals_callWith params rest arguments body⟩
  · intro m receiver site arguments
    cases hbind : m.bind receiver with
    | none => simp only [Method.call, hbind]
    | some run =>
      show Answers m.params m.rest arguments (run site) (m.call receiver site arguments)
      rw [m.call_eq_callWith hbind]
      exact answers_callWith m.params m.rest arguments (run site)
  · intro f site values
    exact ⟨Argument.map_toValue_ofValues host site 0 values, hnative _ site _⟩

/-- The kind of an argument is looked at before the number of the arguments. -/
example : (Builtin.substring.native (V := Vocabulary.empty)).call [] [.value (.bool true)] =
    .error (.argumentType 1 .string "bool") := by rfl

end ExprLang
