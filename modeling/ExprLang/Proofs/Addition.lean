import ExprLang.Proofs.BuiltinCalls

/-!
# Adding or joining

The function behind the operator `+` adds two numbers and joins any other two values. Where it succeeds,
it gives what `add` or `concat` gives, so that a chain of `+` over strings and nils is one `concat` of
them all. A value that is neither keeps both functions from joining, but they report it differently:
`concat` refuses the argument, with its position and the two kinds, while the function behind `+` fails,
with a text that says the same.

Main statements: `addsOrJoins_iff`, `not_addsOrJoins`.
-/

namespace ExprLang

variable {V : Vocabulary} {host : Host V} {stamp : Nat}

/-! ## Texts -/

/-- A string, or nil, which stands for the empty one. -/
def Value.ofText : Option String → Value V
  | some s => .string s
  | none => .nil

def Value.IsText (v : Value V) : Prop := ∃ t, v = ofText t

namespace Strings

/-- What a value is where a string is asked for: its text, or the reason why it has none. -/
theorem asText_cases (v : Value V) :
    (∃ t, v = .ofText t ∧ ∀ position, asText position v = .ok (t.getD "")) ∨
      (¬ v.IsText ∧
        ∀ position, asText position v = .error (.argumentType position .string v.typeName)) := by
  cases v with
  | nil => exact .inl ⟨none, rfl, fun _ => rfl⟩
  | string s => exact .inl ⟨some s, rfl, fun _ => rfl⟩
  | _ =>
    refine .inr ⟨?_, fun _ => rfl⟩
    rintro ⟨_ | s, ht⟩ <;> cases ht

theorem asText_ofText (position : Nat) (t : Option String) :
    asText position (Value.ofText t : Value V) = .ok (t.getD "") := by
  cases t <;> rfl

/-- The texts of values, the first of which has the position after `taken`. -/
def asTexts (taken : Nat) : List (Value V) → Except InvokeError (List String)
  | [] => .ok []
  | v :: rest => (asText (taken + 1) v).bind fun s => (asTexts (taken + 1) rest).map (s :: ·)

theorem asTexts_ofText (taken : Nat) (texts : List (Option String)) :
    asTexts taken (texts.map (Value.ofText : Option String → Value V)) =
      .ok (texts.map (·.getD "")) := by
  induction texts generalizing taken with
  | nil => rfl
  | cons t texts ih =>
    rw [List.map_cons, asTexts, asText_ofText, ih]
    rfl

end Strings

/-- The rule for strings among arguments is the one that joining applies by itself. -/
theorem Param.convert_string (position : Nat) (host : Host V) (site : Site) (v : Value V) :
    Param.string.convert position (v.toArgument host site) = Strings.asText position v := by
  cases v <;> rfl

theorem Arguments.convertAll_string (taken : Nat) (host : Host V) (site : Site) (i : Nat)
    (values : List (Value V)) :
    Arguments.convertAll .string (Arguments.number taken (Argument.ofValues host site i values)) =
      Strings.asTexts taken values := by
  induction values generalizing taken i with
  | nil => rfl
  | cons v values ih =>
    simp only [Argument.ofValues, number, convertAll, Param.convert_string, ih, Strings.asTexts]
    cases Strings.asText (taken + 1) v with
    | error e => rfl
    | ok s => cases Strings.asTexts (taken + 1) values <;> rfl

/-! ## Calls -/

namespace Builtin

theorem invoke_concat_eq (values : List (Value V)) :
    (concat.toFunction stamp).invoke host values =
      (Strings.asTexts 0 values).map fun texts => [.string (String.join texts)] := by
  show concat.native.call [] (Argument.ofValues host [] 0 values) = _
  simp only [Native.call, native, takeInputs_rest, Arguments.convertAll_string]
  cases Strings.asTexts 0 values <;> rfl

theorem gives_concat_ofText (host : Host V) (stamp : Nat) (texts : List (Option String)) :
    concat.Gives host stamp (texts.map .ofText) (.string (String.join (texts.map (·.getD "")))) := by
  rw [Gives, invoke_concat_eq, Strings.asTexts_ofText]
  rfl

theorem invoke_addOrConcat_eq (a b : Value V) :
    (addOrConcat.toFunction stamp).invoke host [a, b] =
      (Outcome.ofExcept (Strings.addOrConcat a b)).toExcept :=
  invoke_ofTwo rfl a b

theorem invoke_addOrConcat_of_numbers {a b : Value V} (ha : a.isNumber = true)
    (hb : b.isNumber = true) :
    (addOrConcat.toFunction stamp).invoke host [a, b] =
      ((arithmetic .add).toFunction stamp).invoke host [a, b] := by
  have hadd : Strings.addOrConcat a b = Arithmetic.add.apply a b := by
    rw [Strings.addOrConcat, ha, hb]
    rfl
  rw [invoke_addOrConcat_eq, hadd]
  exact (invoke_ofTwo rfl a b).symm

theorem invoke_addOrConcat_of_others {a b : Value V}
    (h : ¬ (a.isNumber = true ∧ b.isNumber = true)) :
    (addOrConcat.toFunction stamp).invoke host [a, b] =
      ((concat.toFunction stamp).invoke host [a, b]).mapError fun e => .failed e.message := by
  have hnumbers : (a.isNumber && b.isNumber) = false := by
    rw [← Bool.not_eq_true, Bool.and_eq_true]
    exact h
  rw [invoke_addOrConcat_eq, invoke_concat_eq, Strings.addOrConcat, hnumbers]
  simp only [Strings.asTexts]
  cases Strings.asText 1 a with
  | error e => rfl
  | ok s =>
    cases Strings.asText 2 b with
    | error e => rfl
    | ok t => simp [Outcome.ofExcept, Outcome.result, Outcome.toExcept, Except.bind, Except.map,
        Except.mapError]

theorem invoke_concat_cases (host : Host V) (stamp : Nat) (a b : Value V) :
    (a.IsText ∧ b.IsText ∧ ∃ result, (concat.toFunction stamp).invoke host [a, b] = .ok [result]) ∨
      (¬ (a.IsText ∧ b.IsText) ∧ ∃ position kind actual,
        (concat.toFunction stamp).invoke host [a, b] =
          .error (.argumentType position kind actual)) := by
  rw [invoke_concat_eq]
  simp only [Strings.asTexts]
  rcases Strings.asText_cases a with ⟨s, hs, ha⟩ | ⟨hnot, ha⟩
  · rcases Strings.asText_cases b with ⟨t, ht, hb⟩ | ⟨hnot, hb⟩
    · rw [ha, hb]
      exact .inl ⟨⟨s, hs⟩, ⟨t, ht⟩, _, rfl⟩
    · rw [ha, hb]
      exact .inr ⟨fun h => hnot h.2, _, _, _, rfl⟩
  · rw [ha]
    exact .inr ⟨fun h => hnot h.1, _, _, _, rfl⟩

end Builtin

/-! ## Chains -/

namespace Expr

/-- The expression evaluates to the value, wherever it stands. -/
def Denotes (host : Host V) (env : Env V) (e : Expr V) (v : Value V) : Prop :=
  ∀ site, e.evaluateAt host site env = .ok v

/-- Operands with `+` between them, from left to right. -/
def sum (plus : Function V) (first : Expr V) (rest : List (Expr V)) : Expr V :=
  rest.foldl (fun sum e => .call plus [sum, e] 0) first

variable {env : Env V}

theorem denotes_plus {e e' : Expr V} {t t' : Option String} (h : e.Denotes host env (.ofText t))
    (h' : e'.Denotes host env (.ofText t')) :
    (Expr.call (Builtin.addOrConcat.toFunction stamp) [e, e'] 0).Denotes host env
      (.string (t.getD "" ++ t'.getD "")) := by
  intro site
  rw [evaluateAt_ofTwo (b := .addOrConcat) rfl rfl, h, h']
  simp only [Except.bind]
  cases t <;> cases t' <;> rfl

/-- A sum that has come to a string stays one: no number is ever added to it. -/
theorem denotes_sum {first : Expr V} {rest : List (Expr V)} {s : String}
    {texts : List (Option String)} (hfirst : first.Denotes host env (.string s))
    (hrest : List.Forall₂ (fun e t => Denotes host env e (.ofText t)) rest texts) :
    (sum (Builtin.addOrConcat.toFunction stamp) first rest).Denotes host env
      (.string (s ++ String.join (texts.map (·.getD "")))) := by
  induction hrest generalizing first s with
  | nil =>
    rw [List.map_nil, String.join_nil, String.append_empty]
    exact hfirst
  | @cons e t rest texts he _ ih =>
    rw [List.map_cons, String.join_cons, ← String.append_assoc]
    exact ih (denotes_plus (t := some s) hfirst he)

/-- Two operands are needed: a nil alone is no string. -/
theorem denotes_sum_texts {first second : Expr V} {rest : List (Expr V)} {t t' : Option String}
    {texts : List (Option String)} (hfirst : first.Denotes host env (.ofText t))
    (hsecond : second.Denotes host env (.ofText t'))
    (hrest : List.Forall₂ (fun e t => Denotes host env e (.ofText t)) rest texts) :
    (sum (Builtin.addOrConcat.toFunction stamp) first (second :: rest)).Denotes host env
      (.string (String.join ((t :: t' :: texts).map (·.getD "")))) := by
  rw [List.map_cons, List.map_cons, String.join_cons, String.join_cons, ← String.append_assoc]
  show (sum _ (.call _ [first, second] 0) rest).Denotes host env _
  exact denotes_sum (denotes_plus hfirst hsecond) hrest

end Expr

/-! ## Agreement -/

/-- The function behind `+` does to two values what the function does that it stands for. -/
def AddsOrJoins (host : Host V) (stamp : Nat) (a b : Value V) : Prop :=
  (Builtin.addOrConcat.toFunction stamp).invoke host [a, b] =
    if a.isNumber = true ∧ b.isNumber = true then
      ((Builtin.arithmetic .add).toFunction stamp).invoke host [a, b]
    else (Builtin.concat.toFunction stamp).invoke host [a, b]

theorem addsOrJoins_iff_of_others {a b : Value V} (h : ¬ (a.isNumber = true ∧ b.isNumber = true)) :
    AddsOrJoins host stamp a b ↔ a.IsText ∧ b.IsText := by
  rw [AddsOrJoins, if_neg h, Builtin.invoke_addOrConcat_of_others h]
  rcases Builtin.invoke_concat_cases host stamp a b with
    ⟨ha, hb, result, hconcat⟩ | ⟨hnot, position, kind, actual, hconcat⟩
  · rw [hconcat]
    exact iff_of_true rfl ⟨ha, hb⟩
  · rw [hconcat]
    exact iff_of_false nofun hnot

/-- The function behind `+` agrees with `add` on numbers, in results and in errors, and with `concat` on
strings and nils. On other values it fails with the text of the error of `concat`. A chain of `+` over
strings and nils gives their `concat`. -/
theorem addsOrJoins_iff (host : Host V) (stamp : Nat) :
    (∀ a b : Value V, AddsOrJoins host stamp a b ↔
      (a.isNumber = true ∧ b.isNumber = true) ∨ (a.IsText ∧ b.IsText)) ∧
    (∀ a b : Value V, ¬ (a.isNumber = true ∧ b.isNumber = true) →
      (Builtin.addOrConcat.toFunction stamp).invoke host [a, b] =
        ((Builtin.concat.toFunction stamp).invoke host [a, b]).mapError fun e => .failed e.message) ∧
    ∀ (env : Env V) (first second : Expr V) (rest : List (Expr V)) (texts : List (Option String)),
      List.Forall₂ (fun e t => e.Denotes host env (.ofText t)) (first :: second :: rest) texts →
        ∃ s, (Expr.sum (Builtin.addOrConcat.toFunction stamp) first (second :: rest)).evaluate host
            env = .ok (.string s) ∧
          Builtin.concat.Gives host stamp (texts.map .ofText) (.string s) := by
  refine ⟨fun a b => ?_, fun a b => Builtin.invoke_addOrConcat_of_others,
    fun env first second rest texts h => ?_⟩
  · by_cases hnumbers : a.isNumber = true ∧ b.isNumber = true
    · refine iff_of_true ?_ (.inl hnumbers)
      rw [AddsOrJoins, if_pos hnumbers]
      exact Builtin.invoke_addOrConcat_of_numbers hnumbers.1 hnumbers.2
    · rw [addsOrJoins_iff_of_others hnumbers]
      exact (or_iff_right hnumbers).symm
  · cases h with
    | cons hfirst h =>
      cases h with
      | cons hsecond hrest =>
        exact ⟨_, Expr.denotes_sum_texts hfirst hsecond hrest [], Builtin.gives_concat_ofText host stamp _⟩

/-- A nil in a chain adds nothing to it. -/
theorem addsOrJoins_iff_nil :
    ∃ s, (Expr.sum (Builtin.addOrConcat.toFunction 0) (.literal (.string "a"))
        [.literal .nil, .literal (.string "b")]).evaluate (V := .empty) .empty .empty =
          .ok (.string s) ∧
      Builtin.concat.Gives (V := .empty) .empty 0 [.string "a", .nil, .string "b"] (.string s) :=
  (addsOrJoins_iff .empty 0).2.2 .empty _ _ _ [some "a", none, some "b"]
    (.cons (fun _ => rfl) (.cons (fun _ => rfl) (.cons (fun _ => rfl) .nil)))

/-- Of an argument that is no string, one function tells where it stands and what it is; the other one
only writes that down. -/
theorem not_addsOrJoins :
    let one : Value .empty := .int64 (.wrap _ 1)
    (Builtin.addOrConcat.toFunction 0).invoke .empty [.string "a", one] =
        .error (.failed "argument 2: expected string, got int64") ∧
      (Builtin.concat.toFunction 0).invoke .empty [.string "a", one] =
        .error (.argumentType 2 .string "int64") ∧
      ¬ AddsOrJoins .empty 0 (.string "a") one := by
  intro one
  have hnumbers : ¬ ((Value.string "a" : Value .empty).isNumber = true ∧ one.isNumber = true) := by
    rintro ⟨h, -⟩
    cases h
  refine ⟨rfl, rfl, ?_⟩
  rw [addsOrJoins_iff_of_others hnumbers]
  rintro ⟨-, _ | s, ht⟩ <;> exact nomatch ht

end ExprLang
