import ExprLang.Proofs.Reader

/-!
# What the reader refuses

`Fault` lists once the errors with which a token is refused. Nearly all are about the token itself; only
the parenthesis of a call is refused in the name of the identifier before it.

Main statements: `Fault.of_step`, `run_eq_error_iff`, `ofScan_eq_error_iff`.
-/

namespace ExprLang

open Grammar

variable {V : Vocabulary}

/-- The token stands for a call of the function `name`. -/
inductive Token.Denotes (t : Token) : String → Prop where
  | unary {name : String} :
      t.kind = .unaryOperator ∨ t.kind = .binaryOperator →
      Operator.unaryFunction? t.text = some name → Denotes t name
  | binary {name : String} :
      t.kind = .binaryOperator → Operator.binaryFunction? t.text = some name → Denotes t name
  | group : t.kind = .leftParenthesis → Denotes t Operator.groupFunction
  | index : t.kind = .leftIndex → Denotes t Operator.indexFunction

namespace Reader

/-- The errors with which a state refuses a token. -/
inductive Fault (r : Registry V) (s : State V) (t : Token) : ParseError → Prop where
  | unexpected : Fault r s t t.unexpected
  | unrecognized :
      t.kind = .binaryOperator → Operator.binaryFunction? t.text = none →
      Fault r s t (.unrecognizedOperator t.text t.start)
  | literal :
      s.position.Begins → t.kind = .integer → Integer.ofInt? .int64 t.number = none →
      Fault r s t t.invalid
  | resultIndex {callee : Callee V} {arguments : List (Expr V)} :
      s.position = .resultIndex callee arguments → t.kind = .integer → 2 ^ 64 ≤ t.number →
      Fault r s t t.invalid
  | unknown {name : String} :
      t.Denotes name → r.find? name = none → Fault r s t (.unknownFunction name t.start)
  | unknownCallee {name : String} {offset : Nat} :
      s.position = .name none name offset → t.kind = .leftParenthesis → r.find? name = none →
      Fault r s t (.unknownFunction name offset)

variable {r : Registry V} {s s' : State V} {t : Token} {e : Expr V} {err : ParseError}

theorem bind_eq_error_iff {α β : Type} {x : Except ParseError α} {k : α → Except ParseError β} :
    (x >>= k) = .error err ↔ x = .error err ∨ ∃ a, x = .ok a ∧ k a = .error err := by
  cases x with
  | error err' =>
    constructor
    · intro h
      cases h
      exact .inl rfl
    · rintro (h | ⟨a, ha, -⟩)
      · cases h
        rfl
      · cases ha
  | ok a =>
    constructor
    · intro h
      exact .inr ⟨a, rfl, h⟩
    · rintro (h | ⟨a', ha, h⟩)
      · cases h
      · cases ha
        exact h

theorem map_eq_error_iff {α β : Type} {x : Except ParseError α} {g : α → β} :
    x.map g = .error err ↔ x = .error err := by
  cases x with
  | error err' =>
    show Except.error err' = .error err ↔ Except.error err' = .error err
    rw [Except.error.injEq, Except.error.injEq]
  | ok a => exact iff_of_false nofun nofun

theorem resolve_eq_error {name : String} {offset : Nat}
    (h : resolve r name offset = .error err) :
    r.find? name = none ∧ err = .unknownFunction name offset := by
  unfold resolve at h
  split at h
  · cases h
  · rename_i hnone
    cases h
    exact ⟨hnone, rfl⟩

/-- If a token stands for a function, no more than that function can be missing. -/
theorem Fault.of_resolve {name : String} {next : Function V → State V} (hname : t.Denotes name)
    (h : (resolve r name t.start >>= fun f => pure (next f)) = .error err) : Fault r s t err := by
  rcases bind_eq_error_iff.mp h with h | ⟨f, -, h⟩
  · obtain ⟨hnone, rfl⟩ := resolve_eq_error h
    exact .unknown hname hnone
  · cases h

theorem Fault.of_literal? (hbegins : s.position.Begins)
    (h : State.literal? (V := V) t = .error err) : Fault r s t err := by
  obtain ⟨kind, start, text⟩ := t
  cases kind with
  | integer =>
    rw [State.literal?_integer rfl rfl] at h
    cases hnumber : Integer.ofInt? .int64 (Token.number ⟨.integer, start, text⟩) with
    | some n =>
      rw [hnumber] at h
      cases h
    | none =>
      rw [hnumber] at h
      cases h
      exact .literal hbegins rfl hnumber
  | _ => cases h

theorem Fault.of_beginOperand (hbegins : s.position.Begins) (h : s.beginOperand r t = .error err) :
    Fault r s t err := by
  unfold State.beginOperand at h
  split at h
  · rename_i hkind
    split at h
    · rename_i name hname
      exact .of_resolve (.unary (.inl hkind) hname) h
    · cases h
      exact .unexpected
  · rename_i hkind
    split at h
    · rename_i name hname
      exact .of_resolve (.unary (.inr hkind) hname) h
    · cases h
      exact .unexpected
  · rename_i hkind
    exact .of_resolve (.group hkind) h
  · cases h
  · rcases bind_eq_error_iff.mp h with h | ⟨literal, -, h⟩
    · exact .of_literal? hbegins h
    · cases literal with
      | none =>
        cases h
        exact .unexpected
      | some e => cases h

theorem Fault.of_close (h : s.close e t = .error err) : Fault r s t err := by
  unfold State.close at h
  split at h
  · cases h
    exact .unexpected
  · split at h
    · cases h
    · cases h
    · cases h
    · cases h
    · cases h
      exact .unexpected

theorem Fault.of_continueOperand (h : s.continueOperand r e t = .error err) : Fault r s t err := by
  unfold State.continueOperand at h
  split at h
  · cases h
  · rename_i hkind
    exact .of_resolve (.index hkind) h
  · rename_i hkind
    split at h
    · rename_i name hname
      exact .of_resolve (.binary hkind hname) h
    · rename_i hnone
      cases h
      exact .unrecognized hkind hnone
  · exact .of_close h

theorem Fault.of_step (h : s.step r t = .error err) : Fault r s t err := by
  obtain ⟨position, pending, stack⟩ := s
  cases position with
  | start => exact .of_beginOperand trivial h
  | firstArgument callee =>
    simp only [State.step] at h
    split at h
    · cases h
    · exact .of_beginOperand trivial h
  | point parent =>
    simp only [State.step] at h
    split at h
    · cases h
    · cases h
      exact .unexpected
  | name parent name offset =>
    simp only [State.step] at h
    split at h
    · rename_i hkind
      cases parent with
      | none =>
        rcases bind_eq_error_iff.mp h with h | ⟨callee, -, h⟩
        · cases hfind : resolve r name offset with
          | ok f =>
            rw [hfind] at h
            cases h
          | error err' =>
            rw [hfind] at h
            cases h
            obtain ⟨hnone, rfl⟩ := resolve_eq_error hfind
            exact .unknownCallee rfl hkind hnone
        · cases h
      | some parent => cases h
    · exact .of_continueOperand h
  | called callee arguments =>
    simp only [State.step] at h
    split at h
    · cases h
    · exact .of_continueOperand h
  | resultIndex callee arguments =>
    simp only [State.step] at h
    split at h
    · rename_i hkind
      split at h
      · cases h
      · rename_i hindex
        cases h
        unfold Token.resultIndex? at hindex
        split at hindex
        · cases hindex
        · rename_i hlarge
          exact .resultIndex rfl hkind (Nat.le_of_not_lt hlarge)
    · cases h
      exact .unexpected
  | closeResultIndex callee arguments index =>
    simp only [State.step] at h
    split at h
    · cases h
    · cases h
      exact .unexpected
  | operand e => exact .of_continueOperand h

/-! ## Runs -/

theorem Steps.run_append {ts : List Token} (h : Steps r s ts s') (us : List Token) :
    s.run r (ts ++ us) = s'.run r us := by
  induction h with
  | nil => rfl
  | cons hstep _ ih =>
    rw [List.cons_append, State.run, step_eq_ok_iff.mpr hstep]
    exact ih

/-- A run fails at the first token that is refused. -/
theorem run_eq_error_iff {ts : List Token} : s.run r ts = .error err ↔
    ∃ before t after s', ts = before ++ t :: after ∧ Steps r s before s' ∧
      s'.step r t = .error err := by
  constructor
  · intro h
    induction ts generalizing s with
    | nil => cases h
    | cons t ts ih =>
      rw [State.run] at h
      split at h
      · rename_i s₁ hstep
        obtain ⟨before, u, after, s', rfl, hsteps, herr⟩ := ih h
        exact ⟨t :: before, u, after, s', rfl, .cons (step_eq_ok_iff.mp hstep) hsteps, herr⟩
      · rename_i herr
        cases h
        exact ⟨[], t, ts, s, rfl, .nil, herr⟩
  · rintro ⟨before, t, after, s', rfl, hsteps, herr⟩
    rw [hsteps.run_append, State.run, herr]

/-! ## Readings that are refused -/

/-- How a reader comes to an error: it refuses a token, the tokens stop before the source does, there
are none, or they may not end where they do. -/
inductive Refuses (r : Registry V) (s : Scan) : ParseError → Prop where
  | token {before after : List Token} {t : Token} {state : State V} {err : ParseError} :
      s.marks = before ++ t :: after → Steps r .initial before state →
      state.step r t = .error err → Refuses r s err
  | unreadable {state : State V} {offset : Nat} {e : LexError} :
      Steps r .initial s.marks state → s.stop = .failure offset e → Refuses r s (.lex e)
  | empty {offset : Nat} :
      s.marks = [] → s.stop = .endOfSource offset → Refuses r s .emptyExpression
  | ended {state : State V} {offset : Nat} {err : ParseError} :
      s.marks ≠ [] → Steps r .initial s.marks state → s.stop = .endOfSource offset →
      state.finish offset = .error err → Refuses r s err

theorem ofScan_eq_error_iff {s : Scan} : Expr.ofScan r s = .error err ↔ Refuses r s err := by
  unfold Expr.ofScan Expr.ofTokens
  rw [bind_eq_error_iff]
  constructor
  · rintro (hrun | ⟨state, hrun, hstop⟩)
    · obtain ⟨before, t, after, state, hsplit, hsteps, hstep⟩ := run_eq_error_iff.mp hrun
      exact .token hsplit hsteps hstep
    · have hsteps := run_eq_ok_iff.mp hrun
      split at hstop
      · rename_i hs
        cases hstop
        exact .unreadable hsteps hs
      · rename_i hs
        split at hstop
        · rename_i hempty
          cases hstop
          exact .empty (List.isEmpty_iff.mp hempty) hs
        · rename_i hne
          exact .ended (fun hnil => hne (List.isEmpty_iff.mpr hnil)) hsteps hs hstop
  · intro h
    cases h with
    | token hsplit hsteps hstep =>
      exact .inl (run_eq_error_iff.mpr ⟨_, _, _, _, hsplit, hsteps, hstep⟩)
    | unreadable hsteps hs =>
      refine .inr ⟨_, run_eq_ok_iff.mpr hsteps, ?_⟩
      rw [hs]
    | empty hnil hs =>
      refine .inr ⟨.initial, by rw [hnil, State.run], ?_⟩
      rw [hnil, hs]
      rfl
    | ended hne hsteps hs hfinish =>
      refine .inr ⟨_, run_eq_ok_iff.mpr hsteps, ?_⟩
      rw [hs]
      simp only
      rwa [if_neg fun hempty => hne (List.isEmpty_iff.mp hempty)]

end Reader

end ExprLang
