import ExprLang.Proofs.Marshalling

/-!
# Typed arguments and values

A native takes typed arguments and answers with values. Neither direction alters anything: a value of
another kind is handed back as it is, a value of the right kind is that of what was taken in, and what is
given out as a value is taken in again as it was.

There is one exception. Nil is nothing to an optional parameter before it is anything else, so something
that is nil as a value comes back as nothing.

Main statement: `conversions_inverse`.
-/

namespace ExprLang

variable {V : Vocabulary} {host : Host V} {site : Site}

namespace Param

variable {p : Param}

/-- An expression that was taken in means what it evaluates to at the site. -/
def Means (host : Host V) (site : Site) : (p : Param) → p.Carrier V → Prop
  | .expression, d => d.evaluate = d.expression.evaluateAt host site
  | .optional p, some x => p.Means host site x
  | _, _ => True

/-- Something, of an optional parameter, that is nil as a value. -/
def IsLost : (p : Param) → p.Carrier V → Prop
  | .optional p, some x => (p.toValue x).isNil = true
  | _, _ => False

theorem means_of_receive_eq_ok {v : Value V} {x : p.Carrier V}
    (h : p.receive (v.toArgument host site) = .ok x) : p.Means host site x := by
  induction p with
  | optional p ih =>
    cases hreceive : p.receive (v.toArgument host site) with
    | error a =>
      rw [receive, hreceive] at h
      cases h
    | ok y =>
      rw [receive, hreceive] at h
      cases h
      exact ih hreceive
  | expression =>
    cases v with
    | expression e =>
      cases h
      rfl
    | _ => cases h
  | _ => trivial

/-- What is no nil as a value is taken in again, whatever the parameter is wrapped in. -/
theorem receive_toValue {x : p.Carrier V} (hmeans : p.Means host site x)
    (hvalue : (p.toValue x).isNil = false) :
    p.receive ((p.toValue x).toArgument host site) = .ok x := by
  induction p with
  | optional p ih =>
    cases x with
    | none => cases hvalue
    | some y =>
      have hinner : p.receive ((p.toValue y).toArgument host site) = .ok y := ih hmeans hvalue
      show (p.receive ((p.toValue y).toArgument host site)).map some = _
      rw [hinner]
      rfl
  | any =>
    show Except.ok ((Value.toArgument host site x).toValue) = _
    rw [Value.toValue_toArgument]
  | int k => exact dif_pos rfl
  | expression =>
    obtain ⟨e, evaluate⟩ := x
    have hmeaning : evaluate = e.evaluateAt host site := hmeans
    rw [hmeaning]
    rfl
  | _ => rfl

theorem convert_of_isNil_eq_false {a : Argument V} (h : a.toValue.isNil = false) {x : p.Carrier V}
    (hx : p.receive a = .ok x) (position : Nat) : p.convert position a = .ok x := by
  unfold convert
  simp only [h, hx]
  rfl

theorem convert_nil {x : p.Carrier V} (hlost : ¬ p.IsLost x) (hvalue : p.toValue x = .nil)
    (position : Nat) : p.convert position (.value .nil) = .ok x := by
  cases p with
  | any =>
    cases hvalue
    rfl
  | optional p =>
    cases x with
    | none => rfl
    | some y =>
      -- Something that is nil as a value is what is lost.
      have hinner : p.toValue y = .nil := hvalue
      exact absurd (congrArg Value.isNil hinner) hlost
  | _ => cases hvalue

end Param

theorem Value.eq_nil_of_isNil {v : Value V} (h : v.isNil = true) : v = .nil := by
  cases v with
  | nil => rfl
  | _ => cases h

/-- What is handed back and what is taken in keep the value; what is given out as a value is taken in
again, but for something that is nil as a value, which is taken for nothing. -/
theorem conversions_inverse (host : Host V) (site : Site) :
    (∀ (p : Param) (v : Value V) (a : Argument V),
      p.receive (v.toArgument host site) = .error a →
        a = v.toArgument host site ∧ a.toValue = v) ∧
    (∀ (p : Param) (v : Value V) (x : p.Carrier V),
      p.receive (v.toArgument host site) = .ok x → p.toValue x = v ∧ p.Means host site x) ∧
    (∀ (p : Param) (x : p.Carrier V) (position : Nat), p.Means host site x → ¬ p.IsLost x →
      p.convert position ((p.toValue x).toArgument host site) = .ok x) ∧
    ∀ (p : Param) (x : p.Carrier V) (position : Nat), (p.toValue x).isNil = true →
      p.optional.convert position ((p.optional.toValue (some x)).toArgument host site) =
        .ok none := by
  refine ⟨fun p v a h => ?_, fun p v x h => ?_, fun p x position hmeans hlost => ?_,
    fun p x position hvalue => ?_⟩
  · obtain rfl := Param.eq_of_receive_eq_error h
    exact ⟨rfl, v.toValue_toArgument host site⟩
  · refine ⟨?_, Param.means_of_receive_eq_ok h⟩
    rw [Param.toValue_of_receive_eq_ok h, Value.toValue_toArgument]
  · cases hvalue : (p.toValue x).isNil with
    | true =>
      have hnil := Value.eq_nil_of_isNil hvalue
      rw [hnil]
      exact Param.convert_nil hlost hnil position
    | false =>
      refine Param.convert_of_isNil_eq_false ?_ (Param.receive_toValue hmeans hvalue) position
      rw [Value.toValue_toArgument, hvalue]
  · have hnil : p.optional.toValue (some x) = .nil := Value.eq_nil_of_isNil hvalue
    rw [hnil]
    rfl

/-- A text is no truth value and an expression stays one, through two options; nil stays nothing. -/
theorem conversions_inverse_nested :
    (Param.bool.optional.receive (Value.toArgument Host.empty [] (.string "yes")) =
        .error (.value (.string "yes")) ∧
      (Argument.value (.string "yes")).toValue = (.string "yes" : Value Vocabulary.empty)) ∧
    (Param.string.optional.receive (Value.toArgument Host.empty [] (.string "yes")) =
        .ok (some "yes") ∧
      Param.string.optional.toValue (some "yes") = (.string "yes" : Value Vocabulary.empty)) ∧
    Param.expression.optional.optional.convert 3
        ((Param.expression.optional.optional.toValue
          (some (some ⟨.lookup "x", Expr.evaluateAt Host.empty (.lookup "x") []⟩))).toArgument
            Host.empty []) =
      .ok (some (some ⟨.lookup "x", Expr.evaluateAt Host.empty (.lookup "x") []⟩)) ∧
    Param.any.optional.optional.convert 1
        ((Param.any.optional.optional.toValue (some (some .nil))).toArgument Host.empty []) =
      .ok none := by
  obtain ⟨hback, htaken, hagain, hlost⟩ := conversions_inverse Host.empty []
  have herror : Param.bool.optional.receive (Value.toArgument Host.empty [] (.string "yes")) =
      .error (.value (.string "yes")) := rfl
  have hok : Param.string.optional.receive (Value.toArgument Host.empty [] (.string "yes")) =
      .ok (some "yes") := rfl
  refine ⟨⟨herror, (hback _ _ _ herror).2⟩, ⟨hok, (htaken _ _ _ hok).1⟩, ?_, ?_⟩
  · exact hagain Param.expression.optional.optional _ 3 rfl fun h => by cases h
  · exact hlost Param.any.optional (some .nil) 1 rfl

end ExprLang
