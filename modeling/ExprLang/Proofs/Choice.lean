import ExprLang.Proofs.BuiltinCalls
import Mathlib.Logic.ExistsUnique

/-!
# Choosing among cases

The built-in function `switch` is given one flat list: a subject, then cases and results in turn, then
perhaps a default. Every list that is not empty is such a list in exactly one way (`Choice`), and it has
a default if its length is even. So a result or a default is never taken for a case, whatever it is equal
to.

Main statement: `invoke_switch`.
-/

namespace ExprLang

variable {V : Vocabulary}

@[ext]
structure Choice (V : Vocabulary) where
  subject : Value V
  /-- Each case with its result. -/
  cases : List (Value V × Value V)
  default : Option (Value V)

namespace Choice

/-- Cases and results in turn, then the default. -/
def alternatives (cases : List (Value V × Value V)) (default : Option (Value V)) : List (Value V) :=
  (cases.flatMap fun c => [c.1, c.2]) ++ default.toList

def arguments (c : Choice V) : List (Value V) := c.subject :: alternatives c.cases c.default

/-- The result of the first case that equals the subject, else the default, else nil. -/
def result (c : Choice V) : Value V :=
  ((c.cases.find? fun case => case.1 == c.subject).map Prod.snd).getD (c.default.getD .nil)

theorem alternatives_cons (case result : Value V) (cases : List (Value V × Value V))
    (default : Option (Value V)) :
    alternatives ((case, result) :: cases) default = case :: result :: alternatives cases default :=
  rfl

theorem choose_alternatives (subject : Value V) (cases : List (Value V × Value V))
    (default : Option (Value V)) :
    choose subject (alternatives cases default) = (Choice.mk subject cases default).result := by
  induction cases with
  | nil => cases default <;> rfl
  | cons c cases ih =>
    obtain ⟨case, result⟩ := c
    rw [alternatives_cons, choose, ih, Choice.result, Choice.result, List.find?_cons]
    cases case == subject <;> rfl

/-! ## The parts of a list -/

theorem exists_alternatives : ∀ values : List (Value V),
    ∃ cases default, alternatives cases default = values
  | [] => ⟨[], none, rfl⟩
  | [default] => ⟨[], some default, rfl⟩
  | case :: result :: rest => by
    obtain ⟨cases, default, hrest⟩ := exists_alternatives rest
    refine ⟨(case, result) :: cases, default, ?_⟩
    rw [alternatives_cons, hrest]

theorem alternatives_inj {cases cases' : List (Value V × Value V)} {default default' : Option (Value V)}
    (h : alternatives cases default = alternatives cases' default') :
    cases = cases' ∧ default = default' := by
  induction cases generalizing cases' with
  | nil =>
    cases cases' with
    | nil =>
      have hdefault : default.toList = default'.toList := h
      refine ⟨rfl, Option.ext fun v => ?_⟩
      rw [← Option.mem_toList, hdefault, Option.mem_toList]
    | cons c' cases' =>
      -- One value at most is no case with its result.
      cases default <;> simp [alternatives] at h
  | cons c cases ih =>
    cases cases' with
    | nil => cases default' <;> simp [alternatives] at h
    | cons c' cases' =>
      obtain ⟨case, result⟩ := c
      obtain ⟨case', result'⟩ := c'
      rw [alternatives_cons, alternatives_cons] at h
      injection h with hcase h
      injection h with hresult h
      obtain ⟨hcases, hdefault⟩ := ih h
      exact ⟨by rw [hcase, hresult, hcases], hdefault⟩

theorem length_alternatives (cases : List (Value V × Value V)) (default : Option (Value V)) :
    (alternatives cases default).length = 2 * cases.length + default.toList.length := by
  induction cases with
  | nil => simp [alternatives]
  | cons c cases ih =>
    rw [alternatives_cons, List.length_cons, List.length_cons, ih, List.length_cons]
    omega

theorem even_length_arguments_iff (c : Choice V) :
    c.arguments.length % 2 = 0 ↔ c.default.isSome = true := by
  rw [arguments, List.length_cons, length_alternatives]
  cases c.default with
  | none => simp
  | some default =>
    simp
    omega

theorem existsUnique_arguments_eq {values : List (Value V)} (h : values ≠ []) :
    ∃! c : Choice V, c.arguments = values := by
  cases values with
  | nil => exact absurd rfl h
  | cons subject rest =>
    obtain ⟨cases, default, hrest⟩ := exists_alternatives rest
    refine ⟨⟨subject, cases, default⟩, congrArg (subject :: ·) hrest, ?_⟩
    rintro ⟨subject', cases', default'⟩ h'
    injection h' with hsubject hrest'
    obtain ⟨hcases, hdefault⟩ := alternatives_inj (hrest'.trans hrest.symm)
    exact Choice.ext hsubject hcases hdefault

end Choice

/-! ## Calls -/

theorem Builtin.invoke_switch_eq (host : Host V) (stamp : Nat) (values : List (Value V)) :
    (Builtin.switch.toFunction stamp).invoke host values =
      (Outcome.ofExcept (Value.switch values)).toExcept := by
  show Builtin.switch.native.call [] (Argument.ofValues host [] 0 values) = _
  simp only [Native.call, native, takeInputs_rest, Arguments.convertAll_any,
    Argument.map_toValue_ofValues]

/-- A choice gives its result; only an empty list of arguments is refused; and every other list is the
arguments of exactly one choice, the last value being its default if there is an even number of them. -/
theorem invoke_switch (host : Host V) (stamp : Nat) :
    (∀ c : Choice V, Builtin.switch.Gives host stamp c.arguments c.result) ∧
    (∀ values e, (Builtin.switch.toFunction stamp).invoke host values = .error e ↔
      values = [] ∧ e = .failed "switch requires a value to test") ∧
    (∀ values : List (Value V), values ≠ [] → ∃! c : Choice V, c.arguments = values) ∧
    ∀ c : Choice V, c.arguments.length % 2 = 0 ↔ c.default.isSome = true := by
  refine ⟨fun c => ?_, fun values e => ?_, fun _ => Choice.existsUnique_arguments_eq,
    Choice.even_length_arguments_iff⟩
  · rw [Builtin.Gives, Builtin.invoke_switch_eq, Choice.arguments, Value.switch,
      Choice.choose_alternatives]
    rfl
  · rw [Builtin.invoke_switch_eq]
    cases values with
    | nil =>
      show Except.error _ = Except.error e ↔ _
      rw [Except.error.injEq, eq_comm, and_iff_right rfl]
    | cons subject rest =>
      refine iff_of_false ?_ fun h => List.cons_ne_nil _ _ h.1
      intro he
      cases he

/-- A number that is none is no case of itself. A result that is equal to the subject is not taken for a
case, and neither is a default. -/
theorem invoke_switch_apart :
    let unmatched : List (Value .empty) :=
      [.float64 .nan, .float64 .nan, .bool true, .bool false, .float64 .nan, .string "default"]
    let matched : List (Value .empty) :=
      [.string "b", .string "a", .string "b", .string "b", .string "c"]
    ((∃! c : Choice .empty, c.arguments = unmatched) ∧
      ∀ c : Choice .empty, c.arguments = unmatched → c.default.isSome = true) ∧
    Builtin.switch.Gives Host.empty 0 unmatched (.string "default") ∧
    Builtin.switch.Gives Host.empty 0 matched (.string "c") ∧
    (Builtin.switch.toFunction 0).invoke (V := .empty) .empty [] =
      .error (.failed "switch requires a value to test") := by
  intro unmatched matched
  obtain ⟨hgives, hfails, hunique, hdefault⟩ := invoke_switch Host.empty 0
  refine ⟨⟨hunique unmatched (by simp [unmatched]), ?_⟩, ?_, ?_, (hfails [] _).mpr ⟨rfl, rfl⟩⟩
  · intro c hc
    apply (hdefault c).mp
    simp [hc, unmatched]
  · exact hgives ⟨.float64 .nan, [(.float64 .nan, .bool true), (.bool false, .float64 .nan)],
      some (.string "default")⟩
  · exact hgives ⟨.string "b", [(.string "a", .string "b"), (.string "b", .string "c")], none⟩

end ExprLang
