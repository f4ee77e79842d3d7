import ExprLang.Proofs.Reader

/-!
# What the reader accepts

A reader that has come to a state has read words that fit it: `Covers` says which, part by part. Every
step keeps it, so what is accepted is an expression of the grammar.

Main statement: `isExpr_of_run`.
-/

namespace ExprLang

open Grammar

variable {V : Vocabulary} {r : Registry V}

namespace Reader

variable {s s' : State V} {t : Token}

/-! ## What a state has read -/

/-- After the words `ws` the operand that is waited for completes an expression. -/
def Pending.Awaits (r : Registry V) (ws : List Word) (pending : Pending V) : Prop :=
  ∀ ws' e, IsOperand r ws' e → IsExpr r (ws ++ ws') (pending.apply e)

/-- The words `ws` name what is called. -/
inductive Callee.Named (r : Registry V) : List Word → Callee V → Prop where
  | function {name : String} {f : Function V} :
      r.find? name = some f → Named r [⟨.identifier, name⟩] (.function f)
  | method {point name : String} {ws : List Word} {parent : Expr V} :
      IsChain r ws parent →
      Named r (ws ++ [⟨.separator, point⟩, ⟨.identifier, name⟩]) (.method parent name)

/-- The words `ws` open a bracket, with what was read inside it before the last comma. -/
inductive Bracket.Opened (r : Registry V) : List Word → Bracket V → Prop where
  | group {left : String} {f : Function V} :
      r.find? Operator.groupFunction = some f → Opened r [⟨.leftParenthesis, left⟩] (.group f)
  | index {left : String} {ws : List Word} {f : Function V} {target : Expr V} :
      IsChain r ws target → r.find? Operator.indexFunction = some f →
      Opened r (ws ++ [⟨.leftIndex, left⟩]) (.index f target)
  | call {left : String} {ws : List Word} {callee : Callee V} :
      callee.Named r ws → Opened r (ws ++ [⟨.leftParenthesis, left⟩]) (.call callee [])
  | arguments {left comma : String} {ws ws' : List Word} {callee : Callee V} {es : List (Expr V)} :
      callee.Named r ws → IsList r ws' es →
      Opened r (ws ++ ⟨.leftParenthesis, left⟩ :: (ws' ++ [⟨.delimiter, comma⟩])) (.call callee es)

/-- The words `ws` lead into the open brackets. -/
inductive Inside (r : Registry V) : List Word → List (Open V) → Prop where
  | nil : Inside r [] []
  | cons {ws ws' ws'' : List Word} {o : Open V} {stack : List (Open V)} :
      Inside r ws stack → o.outer.Awaits r ws' → o.bracket.Opened r ws'' →
      Inside r (ws ++ (ws' ++ ws'')) (o :: stack)

/-- The words `ws` are the operand that is being read. -/
inductive Position.Covers (r : Registry V) : List Word → Position V → Prop where
  | start : Covers r [] .start
  | point {point : String} {ws : List Word} {parent : Expr V} :
      IsChain r ws parent → Covers r (ws ++ [⟨.separator, point⟩]) (.point parent)
  | lookup {name : String} {offset : Nat} :
      Covers r [⟨.identifier, name⟩] (.name none name offset)
  | field {point name : String} {offset : Nat} {ws : List Word} {parent : Expr V} :
      IsChain r ws parent →
      Covers r (ws ++ [⟨.separator, point⟩, ⟨.identifier, name⟩]) (.name (some parent) name offset)
  | called {ws ws' : List Word} {callee : Callee V} {arguments : List (Expr V)} :
      callee.Named r ws → IsArguments r ws' arguments →
      Covers r (ws ++ ws') (.called callee arguments)
  | resultIndex {left : String} {ws ws' : List Word} {callee : Callee V}
      {arguments : List (Expr V)} :
      callee.Named r ws → IsArguments r ws' arguments →
      Covers r (ws ++ (ws' ++ [⟨.leftResultIndex, left⟩])) (.resultIndex callee arguments)
  | closeResultIndex {left digits : String} {ws ws' : List Word} {callee : Callee V}
      {arguments : List (Expr V)} :
      callee.Named r ws → IsArguments r ws' arguments → numeral digits < 2 ^ 64 →
      Covers r (ws ++ (ws' ++ [⟨.leftResultIndex, left⟩, ⟨.integer, digits⟩]))
        (.closeResultIndex callee arguments (numeral digits))
  | operand {ws : List Word} {e : Expr V} : IsChain r ws e → Covers r ws (.operand e)

/-- The words `ws` fit a state: they lead into its brackets, then to what waits for an operand, then
into the operand. A call that has just been opened has nothing to wait yet. -/
inductive State.Covers (r : Registry V) : List Word → State V → Prop where
  | level {ws ws' ws'' : List Word} {position : Position V} {pending : Pending V}
      {stack : List (Open V)} :
      Inside r ws stack → pending.Awaits r ws' → position.Covers r ws'' →
      Covers r (ws ++ (ws' ++ ws'')) ⟨position, pending, stack⟩
  | firstArgument {left name : String} {offset : Nat} {ws ws' ws'' : List Word} {callee : Callee V}
      {outer : Pending V} {stack : List (Open V)} :
      Inside r ws stack → outer.Awaits r ws' → callee.Named r ws'' →
      Covers r (ws ++ (ws' ++ (ws'' ++ [⟨.leftParenthesis, left⟩])))
        ⟨.firstArgument callee, .empty, ⟨name, offset, .call callee [], outer⟩ :: stack⟩

variable {ws ws' ws'' : List Word} {e : Expr V}

theorem awaits_empty : Pending.empty.Awaits r [] := fun _ _ h => .operand h

theorem Pending.Awaits.unary {pending : Pending V} {kind : TokenKind} {operator name : String}
    {f : Function V} (h : pending.Awaits r ws)
    (hkind : kind = .unaryOperator ∨ kind = .binaryOperator)
    (hname : Operator.unaryFunction? operator = some name) (hf : r.find? name = some f) :
    Pending.Awaits r (ws ++ [⟨kind, operator⟩])
      { pending with prefixes := f :: pending.prefixes } := by
  intro ws' e he
  have hunary := h _ _ (.unary hkind hname hf he)
  rw [List.append_assoc]
  exact hunary

theorem awaits_binary {operator name : String} {f : Function V} (h : IsExpr r ws e)
    (hname : Operator.binaryFunction? operator = some name) (hf : r.find? name = some f) :
    Pending.Awaits r (ws ++ [⟨.binaryOperator, operator⟩]) ⟨some (f, e), []⟩ := by
  intro ws' e' he'
  rw [List.append_assoc]
  exact .binary h hname hf he'

theorem Callee.Named.isChain {callee : Callee V} {arguments : List (Expr V)} {index : Nat}
    (h : callee.Named r ws) (harguments : IsArguments r ws' arguments)
    (hindex : IsIndex ws'' index) : IsChain r (ws ++ (ws' ++ ws'')) (callee.apply arguments index) := by
  cases h with
  | @function name f hf =>
    show IsChain r (⟨.identifier, name⟩ :: (ws' ++ ws'')) (.call f arguments index)
    exact .call hf harguments hindex
  | @method point name ws parent hparent =>
    rw [List.append_assoc]
    show IsChain r (ws ++ ⟨.separator, point⟩ :: ⟨.identifier, name⟩ :: (ws' ++ ws'')) _
    exact .method hparent harguments hindex

/-- A parenthesis behind what is called goes into the call. -/
theorem Inside.firstArgument {callee : Callee V} {outer : Pending V} {stack : List (Open V)}
    {left name : String} {offset : Nat} (h : Inside r ws stack) (hawaits : outer.Awaits r ws')
    (hnamed : callee.Named r ws'') :
    State.Covers r (ws ++ (ws' ++ ws'') ++ [⟨.leftParenthesis, left⟩])
      ⟨.firstArgument callee, .empty, ⟨name, offset, .call callee [], outer⟩ :: stack⟩ := by
  rw [List.append_assoc, List.append_assoc]
  exact .firstArgument h hawaits hnamed

theorem Bracket.Opened.call_append {callee : Callee V} {arguments : List (Expr V)}
    (h : Bracket.Opened r ws (.call callee arguments)) (hexpr : IsExpr r ws' e) :
    ∃ left ws₁ ws₂,
      (∀ tail, ws ++ (ws' ++ tail) = ws₁ ++ ⟨.leftParenthesis, left⟩ :: (ws₂ ++ tail)) ∧
      callee.Named r ws₁ ∧ IsList r ws₂ (arguments ++ [e]) := by
  cases h with
  | @call left ws₁ _ hnamed =>
    exact ⟨left, ws₁, ws', by simp, hnamed, .one hexpr⟩
  | @arguments left comma ws₁ ws₂ _ _ hnamed hlist =>
    exact ⟨left, ws₁, ws₂ ++ ⟨.delimiter, comma⟩ :: ws', by simp, hnamed, .more hlist hexpr⟩

theorem Position.Covers.isChain {position : Position V} (h : position.Covers r ws)
    (hoperand : position.operand? = some e) : IsChain r ws e := by
  cases h with
  | lookup =>
    cases hoperand
    exact .lookup
  | field hparent =>
    cases hoperand
    exact .field hparent
  | @called ws ws' callee arguments hnamed harguments =>
    cases hoperand
    have h := hnamed.isChain harguments .absent
    rwa [List.append_nil] at h
  | operand hchain =>
    cases hoperand
    exact hchain
  | _ => cases hoperand

/-- Where an operand may start, the words lead into the brackets and to what waits for it. -/
theorem State.Covers.of_begins {position : Position V} {pending : Pending V} {stack : List (Open V)}
    (h : State.Covers r ws ⟨position, pending, stack⟩) (hbegins : position.Begins) :
    ∃ ws₁ ws₂, ws = ws₁ ++ ws₂ ∧ Inside r ws₁ stack ∧ pending.Awaits r ws₂ := by
  cases h with
  | @level ws₁ ws₂ ws₃ _ _ _ hinside hawaits hposition =>
    cases hposition with
    | start => exact ⟨ws₁, ws₂, by rw [List.append_nil], hinside, hawaits⟩
    | _ => exact hbegins.elim
  | firstArgument hinside hawaits hnamed =>
    exact ⟨_, [], (List.append_nil _).symm, .cons hinside hawaits (.call hnamed), awaits_empty⟩

/-- Where an operand can end, the words lead into the brackets and are an expression. -/
theorem State.Covers.of_operand {position : Position V} {pending : Pending V}
    {stack : List (Open V)} (h : State.Covers r ws ⟨position, pending, stack⟩) (hoperand : position.operand? = some e) :
    ∃ ws₁ ws₂ ws₃, ws = ws₁ ++ (ws₂ ++ ws₃) ∧ Inside r ws₁ stack ∧ pending.Awaits r ws₂ ∧
      IsChain r ws₃ e := by
  cases h with
  | @level ws₁ ws₂ ws₃ _ _ _ hinside hawaits hposition =>
    exact ⟨ws₁, ws₂, ws₃, rfl, hinside, hawaits, hposition.isChain hoperand⟩
  | firstArgument => cases hoperand

theorem State.Covers.isExpr {position : Position V} {pending : Pending V} {stack : List (Open V)}
    (h : State.Covers r ws ⟨position, pending, stack⟩) (hoperand : position.operand? = some e) :
    ∃ ws₁ ws₂, ws = ws₁ ++ ws₂ ∧ Inside r ws₁ stack ∧ IsExpr r ws₂ (pending.apply e) := by
  obtain ⟨ws₁, ws₂, ws₃, rfl, hinside, hawaits, hchain⟩ := h.of_operand hoperand
  exact ⟨ws₁, ws₂ ++ ws₃, rfl, hinside, hawaits _ _ (.chain hchain)⟩

theorem State.Covers.cast (h : s.Covers r ws) (heq : ws = ws') : s.Covers r ws' := heq ▸ h

theorem State.covers_initial : State.Covers r [] (.initial : State V) :=
  .level .nil awaits_empty .start

/-- A step takes a state that fits the words so far to one that fits the next word too. -/
theorem State.Covers.step (h : s.Covers r ws) (hstep : Step r s t s') :
    s'.Covers r (ws ++ [t.word]) := by
  obtain ⟨kind, start, text⟩ := t
  cases hstep with
  -- The start of an operand.
  | unary hbegins hkind hname hf =>
    obtain ⟨ws₁, ws₂, rfl, hinside, hawaits⟩ := h.of_begins hbegins
    have hunary := hawaits.unary hkind hname hf
    exact (State.Covers.level hinside hunary .start).cast (by simp [Token.word])
  | @openGroup position pending stack _ f hbegins hkind hf =>
    cases hkind
    obtain ⟨ws₁, ws₂, rfl, hinside, hawaits⟩ := h.of_begins hbegins
    have hopened : Bracket.Opened r [⟨.leftParenthesis, text⟩] (.group f) := .group hf
    have hinside := Inside.cons (o := ⟨"(", start, .group f, pending⟩) hinside hawaits hopened
    exact (State.Covers.level hinside awaits_empty .start).cast (by simp [Token.word])
  | identifier hbegins hkind =>
    cases hkind
    obtain ⟨ws₁, ws₂, rfl, hinside, hawaits⟩ := h.of_begins hbegins
    exact (State.Covers.level hinside hawaits .lookup).cast (by simp [Token.word])
  | literal hbegins hliteral =>
    obtain ⟨ws₁, ws₂, rfl, hinside, hawaits⟩ := h.of_begins hbegins
    exact (State.Covers.level hinside hawaits (.operand (.literal hliteral))).cast (by simp)
  -- What only names, points and calls are followed by.
  | noArguments hkind =>
    cases hkind
    cases h with
    | level _ _ hposition => cases hposition
    | @firstArgument left _ _ _ _ _ _ _ _ hinside hawaits hnamed =>
      have hnone : IsArguments r [⟨.leftParenthesis, left⟩, ⟨.rightParenthesis, text⟩] [] := .none
      have hcalled : Position.Covers r _ (.called _ []) := .called hnamed hnone
      exact (State.Covers.level hinside hawaits hcalled).cast (by simp [Token.word])
  | member hkind =>
    cases hkind
    cases h with
    | level hinside hawaits hposition =>
      cases hposition with
      | @point point ws₃ _ hparent =>
        have hfield : Position.Covers r (ws₃ ++ [⟨.separator, point⟩, ⟨.identifier, text⟩])
            (.name (some _) text start) := .field hparent
        exact (State.Covers.level hinside hawaits hfield).cast (by simp [Token.word])
  | openFunction hkind hf =>
    cases hkind
    cases h with
    | level hinside hawaits hposition =>
      cases hposition with
      | lookup => exact hinside.firstArgument hawaits (.function hf)
  | openMethod hkind =>
    cases hkind
    cases h with
    | level hinside hawaits hposition =>
      cases hposition with
      | field hparent => exact hinside.firstArgument hawaits (.method hparent)
  | openResultIndex hkind =>
    cases hkind
    cases h with
    | level hinside hawaits hposition =>
      cases hposition with
      | @called ws₃ ws₄ _ _ hnamed harguments =>
        have hindex : Position.Covers r (ws₃ ++ (ws₄ ++ [⟨.leftResultIndex, text⟩]))
            (.resultIndex _ _) := .resultIndex hnamed harguments
        exact (State.Covers.level hinside hawaits hindex).cast (by simp [Token.word])
  | resultIndex hkind hlt =>
    cases hkind
    cases h with
    | level hinside hawaits hposition =>
      cases hposition with
      | @resultIndex left ws₃ ws₄ _ _ hnamed harguments =>
        have hindex : Position.Covers r
            (ws₃ ++ (ws₄ ++ [⟨.leftResultIndex, left⟩, ⟨.integer, text⟩]))
            (.closeResultIndex _ _ (numeral text)) :=
          .closeResultIndex hnamed harguments hlt
        exact (State.Covers.level hinside hawaits hindex).cast (by simp [Token.word])
  | closeResultIndex hkind =>
    cases hkind
    cases h with
    | level hinside hawaits hposition =>
      cases hposition with
      | @closeResultIndex left digits _ _ _ _ hnamed harguments hlt =>
        have hindex : IsIndex
            [⟨.leftResultIndex, left⟩, ⟨.integer, digits⟩, ⟨.rightResultIndex, text⟩]
            (numeral digits) := .present hlt
        have hchain := hnamed.isChain harguments hindex
        exact (State.Covers.level hinside hawaits (.operand hchain)).cast (by simp [Token.word])
  -- What goes on with an operand.
  | @point _ e _ _ _ hoperand hkind =>
    cases hkind
    obtain ⟨ws₁, ws₂, ws₃, rfl, hinside, hawaits, hchain⟩ := h.of_operand hoperand
    have hpoint : Position.Covers r (ws₃ ++ [⟨.separator, text⟩]) (.point e) := .point hchain
    exact (State.Covers.level hinside hawaits hpoint).cast (by simp [Token.word])
  | @openIndex _ e pending stack _ f hoperand hkind hf =>
    cases hkind
    obtain ⟨ws₁, ws₂, ws₃, rfl, hinside, hawaits, hchain⟩ := h.of_operand hoperand
    have hopened : Bracket.Opened r (ws₃ ++ [⟨.leftIndex, text⟩]) (.index f e) := .index hchain hf
    have hinside := Inside.cons (o := ⟨"[", start, .index f e, pending⟩) hinside hawaits hopened
    exact (State.Covers.level hinside awaits_empty .start).cast (by simp [Token.word])
  | binary hoperand hkind hname hf =>
    cases hkind
    obtain ⟨ws₁, ws₂, rfl, hinside, hexpr⟩ := h.isExpr hoperand
    have hbinary := awaits_binary hexpr hname hf
    exact (State.Covers.level hinside hbinary .start).cast (by simp [Token.word])
  -- What ends the innermost bracket, or one of its arguments.
  | @closeGroup _ e pending outer _ _ f _ _ hoperand hkind =>
    cases hkind
    obtain ⟨ws₁, ws₂, rfl, hinside, hexpr⟩ := h.isExpr hoperand
    cases hinside with
    | cons hinside houter hopened =>
      cases hopened with
      | @group left _ hf =>
        have hgroup : IsChain r (⟨.leftParenthesis, left⟩ :: (ws₂ ++ [⟨.rightParenthesis, text⟩]))
            (.call f [pending.apply e] 0) := .group hf hexpr
        exact (State.Covers.level hinside houter (.operand hgroup)).cast (by simp [Token.word])
  | @closeIndex _ e target pending _ _ _ f _ _ hoperand hkind =>
    cases hkind
    obtain ⟨ws₁, ws₂, rfl, hinside, hexpr⟩ := h.isExpr hoperand
    cases hinside with
    | cons hinside houter hopened =>
      cases hopened with
      | @index left ws₄ _ _ htarget hf =>
        have hindex : IsChain r (ws₄ ++ ⟨.leftIndex, left⟩ :: (ws₂ ++ [⟨.rightIndex, text⟩]))
            (.call f [target, pending.apply e] 0) := .index htarget hf hexpr
        exact (State.Covers.level hinside houter (.operand hindex)).cast (by simp [Token.word])
  | @lastArgument _ e pending _ _ _ callee arguments _ _ hoperand hkind =>
    cases hkind
    obtain ⟨ws₁, ws₂, rfl, hinside, hexpr⟩ := h.isExpr hoperand
    cases hinside with
    | cons hinside houter hopened =>
      obtain ⟨left, ws₄, ws₅, heq, hnamed, hlist⟩ := hopened.call_append hexpr
      have harguments : IsArguments r
          (⟨.leftParenthesis, left⟩ :: (ws₅ ++ [⟨.rightParenthesis, text⟩]))
          (arguments ++ [pending.apply e]) := .some hlist
      have hcalled : Position.Covers r _ (.called callee (arguments ++ [pending.apply e])) :=
        .called hnamed harguments
      exact (State.Covers.level hinside houter hcalled).cast (by simp [Token.word, heq])
  | @nextArgument _ e pending outer name offset callee arguments _ _ hoperand hkind =>
    cases hkind
    obtain ⟨ws₁, ws₂, rfl, hinside, hexpr⟩ := h.isExpr hoperand
    cases hinside with
    | cons hinside houter hopened =>
      obtain ⟨left, ws₄, ws₅, heq, hnamed, hlist⟩ := hopened.call_append hexpr
      have hopened : Bracket.Opened r
          (ws₄ ++ ⟨.leftParenthesis, left⟩ :: (ws₅ ++ [⟨.delimiter, text⟩]))
          (.call callee (arguments ++ [pending.apply e])) := .arguments hnamed hlist
      have hinside := Inside.cons
        (o := ⟨name, offset, .call callee (arguments ++ [pending.apply e]), outer⟩)
        hinside houter hopened
      exact (State.Covers.level hinside awaits_empty .start).cast (by simp [Token.word, heq])

theorem State.Covers.steps {ts : List Token} (h : s.Covers r ws) (hsteps : Steps r s ts s') :
    s'.Covers r (ws ++ ts.map Token.word) := by
  induction hsteps generalizing ws with
  | nil => exact h.cast (List.append_nil ws).symm
  | cons hstep _ ih => exact (ih (h.step hstep)).cast (by simp)

theorem finish_eq_ok_iff {offset : Nat} : s.finish offset = .ok e ↔
    s.stack = [] ∧ ∃ e', s.position.operand? = some e' ∧ s.pending.apply e' = e := by
  unfold State.finish
  split
  · rename_i e' hstack hoperand
    rw [hstack, hoperand]
    simp
  · rename_i hoperand
    simp [hoperand]
  · rename_i o stack hstack
    simp [hstack]

/-- What the reader accepts is an expression. -/
theorem isExpr_of_run {ts : List Token} {offset : Nat} (hrun : State.initial.run r ts = .ok s)
    (hfinish : s.finish offset = .ok e) : IsExpr r (ts.map Token.word) e := by
  obtain ⟨position, pending, stack⟩ := s
  obtain ⟨rfl, e', hoperand, rfl⟩ := finish_eq_ok_iff.mp hfinish
  have hcovers := State.covers_initial.steps (run_eq_ok_iff.mp hrun)
  obtain ⟨ws₁, ws₂, heq, hinside, hexpr⟩ := hcovers.isExpr hoperand
  cases hinside with
  | nil =>
    obtain rfl : ts.map Token.word = ws₂ := heq
    exact hexpr

end Reader

end ExprLang
