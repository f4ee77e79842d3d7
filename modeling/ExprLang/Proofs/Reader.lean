import ExprLang.Proofs.Grammar

/-!
# The steps of the reader

The reader goes from state to state, one token at a time. `Step` lists once what a token can do to a
state that it fits, and `Steps` puts such steps one after the other.

Main statements: `step_eq_ok_iff`, `run_eq_ok_iff`.
-/

namespace ExprLang

open Grammar

variable {V : Vocabulary}

namespace Reader

/-! ## What a token does -/

/-- An operand must follow. -/
def Position.Begins : Position V → Prop
  | .start | .firstArgument _ => True
  | _ => False

/-- What a token does to a state that it fits. -/
inductive Step (r : Registry V) : State V → Token → State V → Prop where
  | unary {position : Position V} {pending : Pending V} {stack : List (Open V)} {t : Token}
      {name : String} {f : Function V} :
      position.Begins → t.kind = .unaryOperator ∨ t.kind = .binaryOperator →
      Operator.unaryFunction? t.text = some name → r.find? name = some f →
      Step r ⟨position, pending, stack⟩ t
        ⟨.start, { pending with prefixes := f :: pending.prefixes }, stack⟩
  | openGroup {position : Position V} {pending : Pending V} {stack : List (Open V)} {t : Token}
      {f : Function V} :
      position.Begins → t.kind = .leftParenthesis →
      r.find? Operator.groupFunction = some f →
      Step r ⟨position, pending, stack⟩ t
        ⟨.start, .empty, ⟨"(", t.start, .group f, pending⟩ :: stack⟩
  | identifier {position : Position V} {pending : Pending V} {stack : List (Open V)} {t : Token} :
      position.Begins → t.kind = .identifier →
      Step r ⟨position, pending, stack⟩ t ⟨.name none t.text t.start, pending, stack⟩
  | literal {position : Position V} {pending : Pending V} {stack : List (Open V)} {t : Token}
      {e : Expr V} :
      position.Begins → IsLiteral t.word e →
      Step r ⟨position, pending, stack⟩ t ⟨.operand e, pending, stack⟩
  | noArguments {callee : Callee V} {pending : Pending V} {o : Open V} {stack : List (Open V)}
      {t : Token} :
      t.kind = .rightParenthesis →
      Step r ⟨.firstArgument callee, pending, o :: stack⟩ t ⟨.called callee [], o.outer, stack⟩
  | member {parent : Expr V} {pending : Pending V} {stack : List (Open V)} {t : Token} :
      t.kind = .identifier →
      Step r ⟨.point parent, pending, stack⟩ t ⟨.name (some parent) t.text t.start, pending, stack⟩
  | openFunction {name : String} {offset : Nat} {pending : Pending V} {stack : List (Open V)}
      {t : Token} {f : Function V} :
      t.kind = .leftParenthesis → r.find? name = some f →
      Step r ⟨.name none name offset, pending, stack⟩ t
        ⟨.firstArgument (.function f), .empty,
          ⟨name, offset, .call (.function f) [], pending⟩ :: stack⟩
  | openMethod {parent : Expr V} {name : String} {offset : Nat} {pending : Pending V}
      {stack : List (Open V)} {t : Token} :
      t.kind = .leftParenthesis →
      Step r ⟨.name (some parent) name offset, pending, stack⟩ t
        ⟨.firstArgument (.method parent name), .empty,
          ⟨name, offset, .call (.method parent name) [], pending⟩ :: stack⟩
  | openResultIndex {callee : Callee V} {arguments : List (Expr V)} {pending : Pending V}
      {stack : List (Open V)} {t : Token} :
      t.kind = .leftResultIndex →
      Step r ⟨.called callee arguments, pending, stack⟩ t
        ⟨.resultIndex callee arguments, pending, stack⟩
  | resultIndex {callee : Callee V} {arguments : List (Expr V)} {pending : Pending V}
      {stack : List (Open V)} {t : Token} :
      t.kind = .integer → numeral t.text < 2 ^ 64 →
      Step r ⟨.resultIndex callee arguments, pending, stack⟩ t
        ⟨.closeResultIndex callee arguments (numeral t.text), pending, stack⟩
  | closeResultIndex {callee : Callee V} {arguments : List (Expr V)} {index : Nat}
      {pending : Pending V} {stack : List (Open V)} {t : Token} :
      t.kind = .rightResultIndex →
      Step r ⟨.closeResultIndex callee arguments index, pending, stack⟩ t
        ⟨.operand (callee.apply arguments index), pending, stack⟩
  | point {position : Position V} {e : Expr V} {pending : Pending V} {stack : List (Open V)}
      {t : Token} :
      position.operand? = some e → t.kind = .separator →
      Step r ⟨position, pending, stack⟩ t ⟨.point e, pending, stack⟩
  | openIndex {position : Position V} {e : Expr V} {pending : Pending V} {stack : List (Open V)}
      {t : Token} {f : Function V} :
      position.operand? = some e → t.kind = .leftIndex →
      r.find? Operator.indexFunction = some f →
      Step r ⟨position, pending, stack⟩ t
        ⟨.start, .empty, ⟨"[", t.start, .index f e, pending⟩ :: stack⟩
  | binary {position : Position V} {e : Expr V} {pending : Pending V} {stack : List (Open V)}
      {t : Token} {name : String} {f : Function V} :
      position.operand? = some e → t.kind = .binaryOperator →
      Operator.binaryFunction? t.text = some name → r.find? name = some f →
      Step r ⟨position, pending, stack⟩ t ⟨.start, ⟨some (f, pending.apply e), []⟩, stack⟩
  | closeGroup {position : Position V} {e : Expr V} {pending outer : Pending V} {name : String}
      {offset : Nat} {f : Function V} {stack : List (Open V)} {t : Token} :
      position.operand? = some e → t.kind = .rightParenthesis →
      Step r ⟨position, pending, ⟨name, offset, .group f, outer⟩ :: stack⟩ t
        ⟨.operand (.call f [pending.apply e] 0), outer, stack⟩
  | closeIndex {position : Position V} {e target : Expr V} {pending outer : Pending V}
      {name : String} {offset : Nat} {f : Function V} {stack : List (Open V)} {t : Token} :
      position.operand? = some e → t.kind = .rightIndex →
      Step r ⟨position, pending, ⟨name, offset, .index f target, outer⟩ :: stack⟩ t
        ⟨.operand (.call f [target, pending.apply e] 0), outer, stack⟩
  | lastArgument {position : Position V} {e : Expr V} {pending outer : Pending V} {name : String}
      {offset : Nat} {callee : Callee V} {arguments : List (Expr V)} {stack : List (Open V)}
      {t : Token} :
      position.operand? = some e → t.kind = .rightParenthesis →
      Step r ⟨position, pending, ⟨name, offset, .call callee arguments, outer⟩ :: stack⟩ t
        ⟨.called callee (arguments ++ [pending.apply e]), outer, stack⟩
  | nextArgument {position : Position V} {e : Expr V} {pending outer : Pending V} {name : String}
      {offset : Nat} {callee : Callee V} {arguments : List (Expr V)} {stack : List (Open V)}
      {t : Token} :
      position.operand? = some e → t.kind = .delimiter →
      Step r ⟨position, pending, ⟨name, offset, .call callee arguments, outer⟩ :: stack⟩ t
        ⟨.start, .empty,
          ⟨name, offset, .call callee (arguments ++ [pending.apply e]), outer⟩ :: stack⟩

variable {r : Registry V} {s s' s'' : State V} {t : Token} {e : Expr V}

theorem bind_eq_ok_iff {α β : Type} {x : Except ParseError α} {k : α → Except ParseError β}
    {b : β} : (x >>= k) = .ok b ↔ ∃ a, x = .ok a ∧ k a = .ok b := by
  cases x with
  | error err =>
    constructor
    · intro h
      cases h
    · rintro ⟨a, ha, -⟩
      cases ha
  | ok a =>
    constructor
    · intro h
      exact ⟨a, rfl, h⟩
    · rintro ⟨a', ha, h⟩
      cases ha
      exact h

theorem map_eq_ok_iff {α β : Type} {x : Except ParseError α} {g : α → β} {b : β} :
    g <$> x = .ok b ↔ ∃ a, x = .ok a ∧ g a = b := by
  cases x with
  | error err =>
    constructor
    · intro h
      cases h
    · rintro ⟨a, ha, -⟩
      cases ha
  | ok a =>
    constructor
    · intro h
      exact ⟨a, rfl, Except.ok.inj h⟩
    · rintro ⟨a', ha, h⟩
      cases ha
      exact congrArg Except.ok h

theorem resolve_eq_ok_iff {name : String} {offset : Nat} {f : Function V} :
    resolve r name offset = .ok f ↔ r.find? name = some f := by
  unfold resolve
  split
  · rename_i g hg
    rw [hg, Except.ok.injEq, Option.some.injEq]
  · rename_i hnone
    rw [hnone]
    constructor
    · intro h
      cases h
    · intro h
      cases h

/-- The number is taken as a whole: opening it would compare it with the bounds of its kind. -/
theorem State.literal?_integer {number : Option (Integer .int64)} (h : t.kind = .integer)
    (hnumber : Integer.ofInt? .int64 t.number = number) :
    State.literal? (V := V) t =
      number.elim (.error t.invalid) fun n => .ok (some (.literal (.int64 n))) := by
  unfold State.literal?
  rw [hnumber, h]
  cases number <;> rfl

theorem State.literal?_eq_ok_some_iff : State.literal? t = .ok (some e) ↔ IsLiteral t.word e := by
  obtain ⟨kind, start, text⟩ := t
  constructor
  · intro h
    cases kind with
    | integer =>
      rw [literal?_integer rfl rfl] at h
      cases hnumber : Integer.ofInt? .int64 (Token.number ⟨.integer, start, text⟩) with
      | none =>
        rw [hnumber] at h
        cases h
      | some n =>
        rw [hnumber] at h
        cases h
        exact .integer (Integer.ofInt?_eq_some_iff.mp hnumber)
    | float | bool | string | allValues =>
      cases h
      constructor
    | _ => cases h
  · intro h
    cases kind with
    | integer =>
      cases h with
      | @integer _ n hn =>
        exact literal?_integer rfl (Integer.ofInt?_eq_some_iff.mpr hn)
    | float | bool | string | allValues =>
      cases h
      rfl
    | _ => cases h

/-! ## The steps of each part of the reader -/

theorem Step.of_beginOperand (hbegins : s.position.Begins) (h : s.beginOperand r t = .ok s') :
    Step r s t s' := by
  obtain ⟨position, pending, stack⟩ := s
  unfold State.beginOperand at h
  split at h
  · rename_i hkind
    split at h
    · rename_i name hname
      obtain ⟨f, hf, hs⟩ := bind_eq_ok_iff.mp h
      cases hs
      exact .unary hbegins (.inl hkind) hname (resolve_eq_ok_iff.mp hf)
    · cases h
  · rename_i hkind
    split at h
    · rename_i name hname
      obtain ⟨f, hf, hs⟩ := bind_eq_ok_iff.mp h
      cases hs
      exact .unary hbegins (.inr hkind) hname (resolve_eq_ok_iff.mp hf)
    · cases h
  · rename_i hkind
    obtain ⟨f, hf, hs⟩ := bind_eq_ok_iff.mp h
    cases hs
    exact .openGroup hbegins hkind (resolve_eq_ok_iff.mp hf)
  · rename_i hkind
    cases h
    exact .identifier hbegins hkind
  · obtain ⟨literal, hliteral, hs⟩ := bind_eq_ok_iff.mp h
    cases literal with
    | none => cases hs
    | some e =>
      cases hs
      exact .literal hbegins (State.literal?_eq_ok_some_iff.mp hliteral)

theorem Step.of_close (hoperand : s.position.operand? = some e) (h : s.close e t = .ok s') :
    Step r s t s' := by
  obtain ⟨position, pending, stack⟩ := s
  unfold State.close at h
  cases stack with
  | nil => cases h
  | cons o stack =>
    obtain ⟨name, offset, bracket, outer⟩ := o
    simp only at h
    split at h
    · rename_i hkind
      cases h
      exact .closeGroup hoperand hkind
    · rename_i hkind
      cases h
      exact .closeIndex hoperand hkind
    · rename_i hkind
      cases h
      exact .lastArgument hoperand hkind
    · rename_i hkind
      cases h
      exact .nextArgument hoperand hkind
    · cases h

theorem Step.of_continueOperand (hoperand : s.position.operand? = some e)
    (h : s.continueOperand r e t = .ok s') : Step r s t s' := by
  unfold State.continueOperand at h
  split at h
  · rename_i hkind
    cases h
    exact .point hoperand hkind
  · rename_i hkind
    obtain ⟨f, hf, hs⟩ := bind_eq_ok_iff.mp h
    cases hs
    exact .openIndex hoperand hkind (resolve_eq_ok_iff.mp hf)
  · rename_i hkind
    split at h
    · rename_i name hname
      obtain ⟨f, hf, hs⟩ := bind_eq_ok_iff.mp h
      cases hs
      exact .binary hoperand hkind hname (resolve_eq_ok_iff.mp hf)
    · cases h
  · exact .of_close hoperand h

theorem Step.of_step (h : s.step r t = .ok s') : Step r s t s' := by
  obtain ⟨position, pending, stack⟩ := s
  cases position with
  | start => exact .of_beginOperand trivial h
  | firstArgument callee =>
    simp only [State.step] at h
    split at h
    · rename_i o stack hkind
      cases h
      exact .noArguments hkind
    · -- Any other token is the first one of an argument.
      exact .of_beginOperand trivial h
  | point parent =>
    simp only [State.step] at h
    split at h
    · rename_i hkind
      cases h
      exact .member hkind
    · cases h
  | name parent name offset =>
    simp only [State.step] at h
    split at h
    · rename_i hkind
      cases parent with
      | none =>
        obtain ⟨callee, hcallee, hs⟩ := bind_eq_ok_iff.mp h
        cases hs
        obtain ⟨f, hf, rfl⟩ := map_eq_ok_iff.mp hcallee
        exact .openFunction hkind (resolve_eq_ok_iff.mp hf)
      | some parent =>
        cases h
        exact .openMethod hkind
    · exact .of_continueOperand (by cases parent <;> rfl) h
  | called callee arguments =>
    simp only [State.step] at h
    split at h
    · rename_i hkind
      cases h
      exact .openResultIndex hkind
    · exact .of_continueOperand rfl h
  | resultIndex callee arguments =>
    simp only [State.step] at h
    split at h
    · rename_i hkind
      split at h
      · rename_i index hindex
        cases h
        unfold Token.resultIndex? at hindex
        split at hindex
        · rename_i hlt
          cases hindex
          exact .resultIndex hkind hlt
        · cases hindex
      · cases h
    · cases h
  | closeResultIndex callee arguments index =>
    simp only [State.step] at h
    split at h
    · rename_i hkind
      cases h
      exact .closeResultIndex hkind
    · cases h
  | operand e => exact .of_continueOperand rfl h

/-- Where an operand may start, every token but a parenthesis that closes is read as its start. -/
theorem State.step_of_begins {kind : TokenKind} (hbegins : s.position.Begins)
    (hkind : t.kind = kind) (hclose : kind ≠ .rightParenthesis) : s.step r t = s.beginOperand r t := by
  subst hkind
  obtain ⟨position, pending, stack⟩ := s
  cases position with
  | start => rfl
  | firstArgument callee =>
    simp only [State.step]
    split
    · rename_i hkind
      exact absurd hkind hclose
    · rfl
  | _ => exact hbegins.elim

/-- Behind an operand, every token goes on with it that has no meaning for names or calls alone. -/
theorem State.step_of_operand {kind : TokenKind} (hoperand : s.position.operand? = some e)
    (hkind : t.kind = kind) (hcall : kind ≠ .leftParenthesis) (hindex : kind ≠ .leftResultIndex) :
    s.step r t = s.continueOperand r e t := by
  subst hkind
  obtain ⟨position, pending, stack⟩ := s
  cases position with
  | name parent name offset =>
    cases hoperand
    simp only [State.step, if_neg hcall]
  | called callee arguments =>
    cases hoperand
    simp only [State.step, if_neg hindex]
  | operand e' =>
    cases hoperand
    rfl
  | _ => cases hoperand

theorem State.beginOperand_of_isLiteral (hliteral : IsLiteral t.word e) :
    s.beginOperand r t = .ok { s with position := .operand e } := by
  have h := State.literal?_eq_ok_some_iff.mpr hliteral
  obtain ⟨kind, start, text⟩ := t
  unfold State.beginOperand
  cases kind with
  | integer | float | bool | string | allValues =>
    simp only [h]
    rfl
  | _ => cases hliteral

theorem kind_ne_of_isLiteral (hliteral : IsLiteral t.word e) : t.kind ≠ .rightParenthesis := by
  obtain ⟨kind, start, text⟩ := t
  rintro rfl
  cases hliteral

theorem Step.step (h : Step r s t s') : s.step r t = .ok s' := by
  cases h with
  | unary hbegins hkind hname hf =>
    rcases hkind with hkind | hkind
    all_goals
      rw [State.step_of_begins hbegins hkind (by decide)]
      simp only [State.beginOperand, hkind, hname, resolve_eq_ok_iff.mpr hf]
      rfl
  | openGroup hbegins hkind hf =>
    rw [State.step_of_begins hbegins hkind (by decide)]
    simp only [State.beginOperand, hkind, resolve_eq_ok_iff.mpr hf]
    rfl
  | identifier hbegins hkind =>
    rw [State.step_of_begins hbegins hkind (by decide)]
    simp only [State.beginOperand, hkind]
  | literal hbegins hliteral =>
    rw [State.step_of_begins hbegins rfl (kind_ne_of_isLiteral hliteral)]
    exact State.beginOperand_of_isLiteral hliteral
  | noArguments hkind => simp only [State.step, hkind]
  | openResultIndex hkind | closeResultIndex hkind | member hkind =>
    simp only [State.step, if_pos hkind]
  | openMethod hkind =>
    simp only [State.step, if_pos hkind]
    rfl
  | openFunction hkind hf =>
    simp only [State.step, if_pos hkind, State.beginCall, resolve_eq_ok_iff.mpr hf]
    rfl
  | resultIndex hkind hlt =>
    have hindex : t.resultIndex? = some (numeral t.text) := if_pos hlt
    simp only [State.step, if_pos hkind, hindex]
  | point hoperand hkind =>
    rw [State.step_of_operand hoperand hkind (by decide) (by decide)]
    simp only [State.continueOperand, hkind]
  | openIndex hoperand hkind hf =>
    rw [State.step_of_operand hoperand hkind (by decide) (by decide)]
    simp only [State.continueOperand, hkind, resolve_eq_ok_iff.mpr hf]
    rfl
  | binary hoperand hkind hname hf =>
    rw [State.step_of_operand hoperand hkind (by decide) (by decide)]
    simp only [State.continueOperand, hkind, hname, resolve_eq_ok_iff.mpr hf]
    rfl
  | closeGroup hoperand hkind | closeIndex hoperand hkind | lastArgument hoperand hkind
  | nextArgument hoperand hkind =>
    rw [State.step_of_operand hoperand hkind (by decide) (by decide)]
    simp only [State.continueOperand, State.close, hkind]

theorem step_eq_ok_iff : s.step r t = .ok s' ↔ Step r s t s' := ⟨Step.of_step, Step.step⟩

/-! ## Runs -/

inductive Steps (r : Registry V) : State V → List Token → State V → Prop where
  | nil {s : State V} : Steps r s [] s
  | cons {s s' s'' : State V} {t : Token} {ts : List Token} :
      Step r s t s' → Steps r s' ts s'' → Steps r s (t :: ts) s''

theorem run_eq_ok_iff {ts : List Token} : s.run r ts = .ok s' ↔ Steps r s ts s' := by
  induction ts generalizing s with
  | nil =>
    constructor
    · intro h
      cases h
      exact .nil
    · intro h
      cases h
      rfl
  | cons t ts ih =>
    rw [State.run]
    constructor
    · intro h
      split at h
      · rename_i s₁ hstep
        exact .cons (step_eq_ok_iff.mp hstep) (ih.mp h)
      · cases h
    · intro h
      cases h with
      | cons hstep hsteps =>
        rw [step_eq_ok_iff.mpr hstep]
        exact ih.mpr hsteps

theorem Steps.append {ts us : List Token} (h : Steps r s ts s') (h' : Steps r s' us s'') :
    Steps r s (ts ++ us) s'' := by
  induction h with
  | nil => exact h'
  | cons hstep _ ih => exact .cons hstep (ih h')

theorem Steps.of_append {ts us : List Token} (h : Steps r s (ts ++ us) s') :
    ∃ between, Steps r s ts between ∧ Steps r between us s' := by
  induction ts generalizing s with
  | nil => exact ⟨s, .nil, h⟩
  | cons t ts ih =>
    cases h with
    | cons hstep hsteps =>
      obtain ⟨between, hbefore, hafter⟩ := ih hsteps
      exact ⟨between, .cons hstep hbefore, hafter⟩

theorem Steps.of_concat {ts : List Token} (h : Steps r s (ts ++ [t]) s') :
    ∃ between, Steps r s ts between ∧ Step r between t s' := by
  obtain ⟨between, hbefore, hlast⟩ := h.of_append
  cases hlast with
  | cons hstep hnil =>
    cases hnil
    exact ⟨between, hbefore, hstep⟩

end Reader

end ExprLang
