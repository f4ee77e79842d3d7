import ExprLang.Proofs.Marshalling

/-!
# The steps of a cursor over arguments

A native may walk its arguments by itself, with any sequence of steps, some of which fail. However it
does, no argument is lost, repeated or passed over: what the steps consume, one after the other, and then
what is left are the arguments in order, numbered from one. What a step consumes also decides its answer:
an argument of a wrong kind is consumed like any other, and a step that takes all that is left reports the
first of a wrong kind and still takes all. Only where nothing is left does a step consume nothing.

Main statement: `cursor_accounts`, from `exists_step` for one step.
-/

namespace ExprLang

variable {V : Vocabulary}

/-- The arguments with their positions, counted from one. -/
def numbered (arguments : List (Argument V)) : List (Nat × Argument V) :=
  (arguments.zipIdx 1).map Prod.swap

namespace Arguments

/-! ## Steps -/

inductive Step where
  | next
  | remaining
  | take (p : Param)
  | takeRest (p : Param)

/-- What a step that succeeds gives. -/
@[reducible]
def Step.Result (V : Vocabulary) : Step → Type
  | next => Nat × Argument V
  | remaining => List (Nat × Argument V)
  | take p => p.Carrier V
  | takeRest p => List (p.Carrier V)

def step (c : Arguments V) : (s : Step) → Except InvokeError (s.Result V) × Arguments V
  | .next => c.next
  | .remaining => (.ok c.remaining.1, c.remaining.2)
  | .take p => c.take p
  | .takeRest p => c.takeRest p

/-- The answer of a step that finds no argument. -/
def Step.emptyAnswer (shortage : InvokeError) : (s : Step) → Except InvokeError (s.Result V)
  | .next => .error shortage
  | .remaining => .ok []
  | .take _ => .error shortage
  | .takeRest _ => .ok []

def after (c : Arguments V) : List Step → Arguments V
  | [] => c
  | s :: rest => (c.step s).2.after rest

/-- The arguments that are left, with their positions. -/
def left (c : Arguments V) : List (Nat × Argument V) := number c.taken c.pending

/-- The arguments that are left in front of a step and not behind it. -/
def consumed (c : Arguments V) (s : Step) : List (Nat × Argument V) :=
  c.left.take (c.left.length - (c.step s).2.left.length)

def consumedBy (c : Arguments V) : List Step → List (Nat × Argument V)
  | [] => []
  | s :: rest => c.consumed s ++ (c.step s).2.consumedBy rest

/-- From the arguments that are left a step consumes some and answers. A step that needs an argument where
none is left answers with the `shortage`, but all of no arguments can be taken. -/
inductive Responds (shortage : InvokeError) :
    List (Nat × Argument V) → (s : Step) → List (Nat × Argument V) →
      Except InvokeError (s.Result V) → Prop where
  | next {first : Nat × Argument V} {more : List (Nat × Argument V)} :
      Responds shortage (first :: more) .next [first] (.ok first)
  | nextShort : Responds shortage [] .next [] (.error shortage)
  | remaining {left : List (Nat × Argument V)} : Responds shortage left .remaining left (.ok left)
  | take {p : Param} {position : Nat} {a : Argument V} {more : List (Nat × Argument V)}
      {x : p.Carrier V} :
      p.Takes a x → Responds shortage ((position, a) :: more) (.take p) [(position, a)] (.ok x)
  | takeRejected {p : Param} {position : Nat} {a : Argument V} {more : List (Nat × Argument V)} :
      p.Rejects a →
      Responds shortage ((position, a) :: more) (.take p) [(position, a)]
        (.error (.argumentType position p.kind a.toValue.typeName))
  | takeShort {p : Param} : Responds shortage [] (.take p) [] (.error shortage)
  | takeRest {p : Param} {left : List (Nat × Argument V)} {xs : List (p.Carrier V)} :
      List.Forall₂ p.Takes (left.map Prod.snd) xs →
      Responds shortage left (.takeRest p) left (.ok xs)
  | restRejected {p : Param} {left : List (Nat × Argument V)} {i position : Nat} {a : Argument V} :
      left[i]? = some (position, a) → p.Rejects a →
      (∀ j < i, ∀ b, left[j]? = some b → ¬ p.Rejects b.2) →
      Responds shortage left (.takeRest p) left
        (.error (.argumentType position p.kind a.toValue.typeName))

/-! ## Numbers -/

theorem number_eq (taken : Nat) (arguments : List (Argument V)) :
    number taken arguments = (arguments.zipIdx (taken + 1)).map Prod.swap := by
  induction arguments generalizing taken with
  | nil => rfl
  | cons a rest ih =>
    rw [number, ih, List.zipIdx_cons, List.map_cons]
    rfl

theorem left_ofList (arguments : List (Argument V)) (arity : Arity) :
    (ofList arguments arity).left = numbered arguments := number_eq 0 arguments

theorem getElem?_left (c : Arguments V) (i : Nat) :
    c.left[i]? = c.pending[i]?.map (c.taken + i + 1, ·) := by
  rw [left, number_eq, List.getElem?_map, List.getElem?_zipIdx]
  cases c.pending[i]? with
  | none => rfl
  | some a =>
    have hposition : c.taken + 1 + i = c.taken + i + 1 := by omega
    simp [hposition]

theorem map_snd_left (c : Arguments V) : c.left.map Prod.snd = c.pending := by
  rw [left, number_eq, List.map_map]
  exact List.zipIdx_map_fst _ _

theorem left_eq_nil_iff (c : Arguments V) : c.left = [] ↔ c.pending = [] := by
  rw [← c.map_snd_left, List.map_eq_nil_iff]

/-! ## One step -/

theorem responds_takeRest (c : Arguments V) (p : Param) :
    Responds c.arityError c.left (.takeRest p) c.left (convertAll p c.left) := by
  -- A variadic parameter alone is a list of parameters, and what a call finds with it is known.
  suffices h : ∀ answer, Inputs.Taking [] (some p) c answer →
      Responds c.arityError c.left (.takeRest p) c.left answer from
    h _ (Inputs.taking_convertAll p c.pending c.taken c.total c.arity)
  intro answer htaking
  cases htaking with
  | @rejected i q a hq ha hrejects hbefore =>
    obtain rfl : p = q := by simpa [paramAt] using hq
    refine .restRejected (i := i) (by rw [getElem?_left, ha]; rfl) hrejects ?_
    intro j hj b hb hrejected
    rw [getElem?_left] at hb
    obtain ⟨d, hd, rfl⟩ := Option.map_eq_some_iff.mp hb
    exact hbefore j hj ⟨p, d, rfl, hd, hrejected⟩
  | miscounted _ hcount => cases hcount
  | taken _ _ hbecome =>
    refine .takeRest ?_
    rw [map_snd_left]
    exact hbecome

/-- Every step splits what is left into what it consumes and what is left behind it. -/
theorem exists_step (c : Arguments V) (s : Step) :
    ∃ pairs, c.left = pairs ++ (c.step s).2.left ∧
      Responds c.arityError c.left s pairs (c.step s).1 := by
  cases s with
  | next =>
    obtain ⟨pending, taken, total, arity⟩ := c
    cases pending with
    | nil => exact ⟨[], rfl, .nextShort⟩
    | cons a rest => exact ⟨[(taken + 1, a)], rfl, .next⟩
  | remaining => exact ⟨c.left, (List.append_nil _).symm, .remaining⟩
  | take p =>
    obtain ⟨pending, taken, total, arity⟩ := c
    cases pending with
    | nil => exact ⟨[], rfl, .takeShort⟩
    | cons a rest =>
      refine ⟨[(taken + 1, a)], rfl, ?_⟩
      show Responds _ ((taken + 1, a) :: number (taken + 1) rest) (.take p) _
        (p.convert (taken + 1) a)
      rcases p.convert_eq (taken + 1) a with ⟨x, hx, hconvert⟩ | ⟨hrejects, hconvert⟩
      · rw [hconvert]
        exact .take hx
      · rw [hconvert]
        exact .takeRejected hrejects
  | takeRest p => exact ⟨c.left, (List.append_nil _).symm, c.responds_takeRest p⟩

theorem consumed_eq {c : Arguments V} {s : Step} {pairs : List (Nat × Argument V)}
    (h : c.left = pairs ++ (c.step s).2.left) : c.consumed s = pairs := by
  rw [consumed, h, List.length_append, Nat.add_sub_cancel, List.take_left]

theorem responds_step (c : Arguments V) (s : Step) :
    Responds c.arityError c.left s (c.consumed s) (c.step s).1 := by
  obtain ⟨pairs, hleft, hresponds⟩ := c.exists_step s
  rwa [consumed_eq hleft]

theorem consumed_append_left (c : Arguments V) (s : Step) :
    c.consumed s ++ (c.step s).2.left = c.left := by
  obtain ⟨pairs, hleft, -⟩ := c.exists_step s
  rw [consumed_eq hleft, ← hleft]

theorem arityError_step (c : Arguments V) (s : Step) :
    (c.step s).2.arityError = c.arityError := by
  obtain ⟨pending, taken, total, arity⟩ := c
  cases s <;> cases pending <;> rfl

theorem step_of_left_eq_nil {c : Arguments V} (h : c.left = []) (s : Step) :
    c.step s = (s.emptyAnswer c.arityError, c) := by
  obtain ⟨pending, taken, total, arity⟩ := c
  obtain rfl : pending = [] := (left_eq_nil_iff _).mp h
  cases s <;> rfl

/-! ## All steps -/

theorem consumedBy_append_left (c : Arguments V) (steps : List Step) :
    c.consumedBy steps ++ (c.after steps).left = c.left := by
  induction steps generalizing c with
  | nil => rfl
  | cons s rest ih => rw [consumedBy, after, List.append_assoc, ih, consumed_append_left]

theorem arityError_after (c : Arguments V) (steps : List Step) :
    (c.after steps).arityError = c.arityError := by
  induction steps generalizing c with
  | nil => rfl
  | cons s rest ih => rw [after, ih, arityError_step]

theorem finish_of_left_eq_nil {c : Arguments V} (h : c.left = []) : c.finish = .ok () := by
  rw [finish, (left_eq_nil_iff c).mp h]

theorem finish_of_left_ne_nil {c : Arguments V} (h : c.left ≠ []) :
    c.finish = .error c.arityError := by
  obtain ⟨pending, taken, total, arity⟩ := c
  cases pending with
  | nil => exact absurd rfl h
  | cons a rest => rfl

/-- After any steps: nothing is lost, every further step responds to what is left, a step that finds
nothing changes nothing, and the cursor can be finished exactly if all arguments were consumed. -/
theorem cursor_accounts (arguments : List (Argument V)) (arity : Arity) (steps : List Step) :
    let start := ofList arguments arity
    let c := start.after steps
    let shortage := InvokeError.arity arity arguments.length
    start.consumedBy steps ++ c.left = numbered arguments ∧
    (∀ s, Responds shortage c.left s (c.consumed s) (c.step s).1) ∧
    (c.left = [] → ∀ s, c.step s = (s.emptyAnswer shortage, c)) ∧
    (c.finish = .ok () ↔ start.consumedBy steps = numbered arguments) ∧
    (start.consumedBy steps ≠ numbered arguments → c.finish = .error shortage) := by
  intro start c shortage
  have hshortage : c.arityError = shortage := start.arityError_after steps
  have hall : start.consumedBy steps ++ c.left = numbered arguments := by
    rw [start.consumedBy_append_left, left_ofList]
  have hnone : c.left = [] ↔ start.consumedBy steps = numbered arguments := by
    rw [← hall, List.self_eq_append_right]
  refine ⟨hall, fun s => ?_, fun h s => ?_, ?_, fun h => ?_⟩
  · rw [← hshortage]
    exact c.responds_step s
  · rw [← hshortage]
    exact step_of_left_eq_nil h s
  · rw [← hnone]
    constructor
    · intro hfinish
      by_contra hleft
      cases (finish_of_left_ne_nil hleft).symm.trans hfinish
    · exact finish_of_left_eq_nil
  · rw [← hshortage]
    exact finish_of_left_ne_nil fun hleft => h (hnone.mp hleft)

/-- Three arguments of which two are rejected are consumed all the same, and one of three is not all. -/
theorem cursor_accounts_rejected :
    let start := ofList (V := Vocabulary.empty)
      [.value (.bool true), .value (.string "a"), .value .nil] (.exactly 3)
    let c := start.after [.take .string, .takeRest .bool]
    (c.left = [] ∧ ∀ s, c.step s = (s.emptyAnswer (.arity (.exactly 3) 3), c)) ∧
    c.finish = .ok () ∧
    (start.consumedBy [.next] ≠
        numbered [.value (.bool true), .value (.string "a"), .value .nil] ∧
      (start.after [.next]).finish = .error (.arity (.exactly 3) 3)) := by
  intro start c
  obtain ⟨-, -, hnone, hfinish, -⟩ := cursor_accounts (V := Vocabulary.empty)
    [.value (.bool true), .value (.string "a"), .value .nil] (.exactly 3)
    [.take .string, .takeRest .bool]
  obtain ⟨-, -, -, -, hshort⟩ := cursor_accounts (V := Vocabulary.empty)
    [.value (.bool true), .value (.string "a"), .value .nil] (.exactly 3) [.next]
  have hone : start.consumedBy [.next] ≠
      numbered [.value (.bool true), .value (.string "a"), .value .nil] := by
    intro h
    exact absurd (congrArg List.length h) (by decide)
  exact ⟨⟨rfl, hnone rfl⟩, hfinish.mpr rfl, hone, hshort hone⟩

end Arguments

end ExprLang
