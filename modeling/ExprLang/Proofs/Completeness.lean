import ExprLang.Proofs.Soundness

/-!
# What the grammar derives

The words of an expression take the reader through its brackets and back to the level where it was,
with the expression in hand. `Leads` says from where to where a sequence of words takes the reader;
there is one such fact for each rule of the grammar.

Main statement: `run_of_isExpr`.
-/

namespace ExprLang

open Grammar

variable {V : Vocabulary} {r : Registry V}

namespace Reader

variable {ws ws' : List Word} {e : Expr V} {callee : Callee V} {arguments : List (Expr V)}
  {index : Nat} {pending : Pending V} {stack : List (Open V)}

/-! ## From where to where words take the reader -/

/-- Tokens of the words `ws` take the reader from a state in `P` to a state in `Q`. -/
def Leads (r : Registry V) (ws : List Word) (P Q : State V → Prop) : Prop :=
  ∀ ts : List Token, ts.map Token.word = ws → ∀ s, P s → ∃ s', Steps r s ts s' ∧ Q s'

variable {P Q R : State V → Prop}

theorem Leads.nil (h : ∀ s, P s → Q s) : Leads r [] P Q := by
  intro ts hts s hs
  obtain rfl := List.map_eq_nil_iff.mp hts
  exact ⟨s, .nil, h s hs⟩

theorem Leads.token {w : Word} (h : ∀ t s, t.word = w → P s → ∃ s', Step r s t s' ∧ Q s') :
    Leads r [w] P Q := by
  intro ts hts s hs
  obtain ⟨t, rest, rfl, ht, hrest⟩ := List.map_eq_cons_iff.mp hts
  obtain rfl := List.map_eq_nil_iff.mp hrest
  obtain ⟨s', hstep, hs'⟩ := h t s ht hs
  exact ⟨s', .cons hstep .nil, hs'⟩

theorem Leads.append (h : Leads r ws P Q) (h' : Leads r ws' Q R) : Leads r (ws ++ ws') P R := by
  intro ts hts s hs
  obtain ⟨ts₁, ts₂, rfl, hts₁, hts₂⟩ := List.map_eq_append_iff.mp hts
  obtain ⟨s₁, hsteps₁, hs₁⟩ := h ts₁ hts₁ s hs
  obtain ⟨s₂, hsteps₂, hs₂⟩ := h' ts₂ hts₂ s₁ hs₁
  exact ⟨s₂, hsteps₁.append hsteps₂, hs₂⟩

theorem Leads.cons {w : Word} (h : Leads r [w] P Q) (h' : Leads r ws Q R) :
    Leads r (w :: ws) P R := h.append h'

theorem Leads.exists {α : Type} {P : α → State V → Prop} (h : ∀ a, Leads r ws (P a) Q) :
    Leads r ws (fun s => ∃ a, P a s) Q := by
  rintro ts hts s ⟨a, hs⟩
  exact h a ts hts s hs

theorem Leads.imp (h : Leads r ws Q R) (hP : ∀ s, P s → Q s) : Leads r ws P R := by
  intro ts hts s hs
  exact h ts hts s (hP s hs)

theorem Leads.mono (h : Leads r ws P Q) (hQ : ∀ s, Q s → R s) : Leads r ws P R := by
  intro ts hts s hs
  obtain ⟨s', hsteps, hs'⟩ := h ts hts s hs
  exact ⟨s', hsteps, hQ s' hs'⟩

/-! ## Where the reader is -/

/-- An operand must follow, in a level with what waits for it. -/
def Before (pending : Pending V) (stack : List (Open V)) (s : State V) : Prop :=
  s.position.Begins ∧ s.pending = pending ∧ s.stack = stack

/-- The operand `e` can end here. -/
def After (e : Expr V) (pending : Pending V) (stack : List (Open V)) (s : State V) : Prop :=
  s.position.operand? = some e ∧ s.pending = pending ∧ s.stack = stack

/-- The level can end here, as the expression `e`. -/
def Holds (e : Expr V) (stack : List (Open V)) (s : State V) : Prop :=
  ∃ e', s.position.operand? = some e' ∧ s.pending.apply e' = e ∧ s.stack = stack

inductive AtCallee (r : Registry V) (pending : Pending V) (stack : List (Open V)) :
    Callee V → State V → Prop where
  | function {name : String} {offset : Nat} {f : Function V} :
      r.find? name = some f →
      AtCallee r pending stack (.function f) ⟨.name none name offset, pending, stack⟩
  | method {parent : Expr V} {name : String} {offset : Nat} :
      AtCallee r pending stack (.method parent name)
        ⟨.name (some parent) name offset, pending, stack⟩

theorem After.holds {s : State V} (h : After e pending stack s) :
    Holds (pending.apply e) stack s := by
  obtain ⟨hoperand, rfl, hstack⟩ := h
  exact ⟨e, hoperand, rfl, hstack⟩

/-! ## Words that are read one by one -/

theorem leads_literal {w : Word} (h : IsLiteral w e) :
    Leads r [w] (Before pending stack) (After e pending stack) := by
  refine .token ?_
  rintro t ⟨position, _, _⟩ rfl ⟨hbegins, rfl, rfl⟩
  exact ⟨_, .literal hbegins h, rfl, rfl, rfl⟩

theorem leads_identifier {name : String} :
    Leads r [⟨.identifier, name⟩] (Before pending stack)
      (fun s => ∃ offset, s = ⟨.name none name offset, pending, stack⟩) := by
  refine .token ?_
  rintro ⟨kind, start, text⟩ ⟨position, _, _⟩ hword ⟨hbegins, rfl, rfl⟩
  cases hword
  exact ⟨_, .identifier hbegins rfl, start, rfl⟩

theorem leads_unary {kind : TokenKind} {operator name : String} {f : Function V}
    (hkind : kind = .unaryOperator ∨ kind = .binaryOperator)
    (hname : Operator.unaryFunction? operator = some name) (hf : r.find? name = some f) :
    Leads r [⟨kind, operator⟩] (Before pending stack)
      (Before { pending with prefixes := f :: pending.prefixes } stack) := by
  refine .token ?_
  rintro ⟨kind, start, text⟩ ⟨position, _, _⟩ hword ⟨hbegins, rfl, rfl⟩
  cases hword
  exact ⟨_, .unary hbegins hkind hname hf, trivial, rfl, rfl⟩

theorem leads_binary {operator name : String} {f : Function V}
    (hname : Operator.binaryFunction? operator = some name) (hf : r.find? name = some f) :
    Leads r [⟨.binaryOperator, operator⟩] (Holds e stack) (Before ⟨some (f, e), []⟩ stack) := by
  refine .token ?_
  rintro ⟨kind, start, text⟩ ⟨position, _, _⟩ hword ⟨e', hoperand, rfl, rfl⟩
  cases hword
  exact ⟨_, .binary hoperand rfl hname hf, trivial, rfl, rfl⟩

theorem leads_openGroup {left : String} {f : Function V}
    (hf : r.find? Operator.groupFunction = some f) :
    Leads r [⟨.leftParenthesis, left⟩] (Before pending stack)
      (fun s => ∃ offset, Before .empty (⟨"(", offset, .group f, pending⟩ :: stack) s) := by
  refine .token ?_
  rintro ⟨kind, start, text⟩ ⟨position, _, _⟩ hword ⟨hbegins, rfl, rfl⟩
  cases hword
  exact ⟨_, .openGroup hbegins rfl hf, start, trivial, rfl, rfl⟩

theorem leads_closeGroup {right name : String} {offset : Nat} {f : Function V} :
    Leads r [⟨.rightParenthesis, right⟩] (Holds e (⟨name, offset, .group f, pending⟩ :: stack))
      (After (.call f [e] 0) pending stack) := by
  refine .token ?_
  rintro ⟨kind, start, text⟩ ⟨position, _, _⟩ hword ⟨e', hoperand, rfl, rfl⟩
  cases hword
  exact ⟨_, .closeGroup hoperand rfl, rfl, rfl, rfl⟩

theorem leads_openIndex {left : String} {f : Function V}
    (hf : r.find? Operator.indexFunction = some f) :
    Leads r [⟨.leftIndex, left⟩] (After e pending stack)
      (fun s => ∃ offset, Before .empty (⟨"[", offset, .index f e, pending⟩ :: stack) s) := by
  refine .token ?_
  rintro ⟨kind, start, text⟩ ⟨position, _, _⟩ hword ⟨hoperand, rfl, rfl⟩
  cases hword
  exact ⟨_, .openIndex hoperand rfl hf, start, trivial, rfl, rfl⟩

theorem leads_closeIndex {right name : String} {offset : Nat} {f : Function V} {target : Expr V} :
    Leads r [⟨.rightIndex, right⟩] (Holds e (⟨name, offset, .index f target, pending⟩ :: stack))
      (After (.call f [target, e] 0) pending stack) := by
  refine .token ?_
  rintro ⟨kind, start, text⟩ ⟨position, _, _⟩ hword ⟨e', hoperand, rfl, rfl⟩
  cases hword
  exact ⟨_, .closeIndex hoperand rfl, rfl, rfl, rfl⟩

theorem leads_point {point : String} :
    Leads r [⟨.separator, point⟩] (After e pending stack) (· = ⟨.point e, pending, stack⟩) := by
  refine .token ?_
  rintro ⟨kind, start, text⟩ ⟨position, _, _⟩ hword ⟨hoperand, rfl, rfl⟩
  cases hword
  exact ⟨_, .point hoperand rfl, rfl⟩

theorem leads_member {name : String} :
    Leads r [⟨.identifier, name⟩] (· = ⟨.point e, pending, stack⟩)
      (fun s => ∃ offset, s = ⟨.name (some e) name offset, pending, stack⟩) := by
  refine .token ?_
  rintro ⟨kind, start, text⟩ _ hword rfl
  cases hword
  exact ⟨_, .member rfl, start, rfl⟩

/-- The bracket of a call of `callee`, after some arguments. -/
def InCall (callee : Callee V) (arguments : List (Expr V)) (name : String) (offset : Nat)
    (pending : Pending V) : Open V := ⟨name, offset, .call callee arguments, pending⟩

/-- The arguments of a call can end here, and so can its last argument. -/
def InArguments (callee : Callee V) (arguments : List (Expr V)) (name : String) (offset : Nat)
    (pending : Pending V) (stack : List (Open V)) (s : State V) : Prop :=
  ∃ es e, arguments = es ++ [e] ∧ Holds e (InCall callee es name offset pending :: stack) s

theorem leads_openCall {left : String} :
    Leads r [⟨.leftParenthesis, left⟩] (AtCallee r pending stack callee)
      (fun s => ∃ name offset, s =
        ⟨.firstArgument callee, .empty, InCall callee [] name offset pending :: stack⟩) := by
  refine .token ?_
  rintro ⟨kind, start, text⟩ s hword hcallee
  cases hword
  cases hcallee with
  | function hf => exact ⟨_, .openFunction rfl hf, _, _, rfl⟩
  | method => exact ⟨_, .openMethod rfl, _, _, rfl⟩

theorem leads_noArguments {right name : String} {offset : Nat} :
    Leads r [⟨.rightParenthesis, right⟩]
      (· = ⟨.firstArgument callee, .empty, InCall callee [] name offset pending :: stack⟩)
      (· = ⟨.called callee [], pending, stack⟩) := by
  refine .token ?_
  rintro ⟨kind, start, text⟩ _ hword rfl
  cases hword
  exact ⟨_, .noArguments rfl, rfl⟩

theorem leads_lastArgument {right name : String} {offset : Nat} :
    Leads r [⟨.rightParenthesis, right⟩] (InArguments callee arguments name offset pending stack)
      (· = ⟨.called callee arguments, pending, stack⟩) := by
  refine .token ?_
  rintro ⟨kind, start, text⟩ ⟨position, _, _⟩ hword ⟨es, _, rfl, e', hoperand, rfl, rfl⟩
  cases hword
  exact ⟨_, .lastArgument hoperand rfl, rfl⟩

theorem leads_nextArgument {comma name : String} {offset : Nat} :
    Leads r [⟨.delimiter, comma⟩] (InArguments callee arguments name offset pending stack)
      (Before .empty (InCall callee arguments name offset pending :: stack)) := by
  refine .token ?_
  rintro ⟨kind, start, text⟩ ⟨position, _, _⟩ hword ⟨es, _, rfl, e', hoperand, rfl, rfl⟩
  cases hword
  exact ⟨_, .nextArgument hoperand rfl, trivial, rfl, rfl⟩

theorem leads_index (h : IsIndex ws index) :
    Leads r ws (· = ⟨.called callee arguments, pending, stack⟩)
      (After (callee.apply arguments index) pending stack) := by
  cases h with
  | absent =>
    refine .nil ?_
    rintro _ rfl
    exact ⟨rfl, rfl, rfl⟩
  | @present left digits right hlt =>
    have hopen : Leads r [⟨.leftResultIndex, left⟩]
        (· = ⟨.called callee arguments, pending, stack⟩)
        (· = ⟨.resultIndex callee arguments, pending, stack⟩) := by
      refine .token ?_
      rintro ⟨kind, start, text⟩ _ hword rfl
      cases hword
      exact ⟨_, .openResultIndex rfl, rfl⟩
    have hnumber : Leads r [⟨.integer, digits⟩]
        (· = ⟨.resultIndex callee arguments, pending, stack⟩)
        (· = ⟨.closeResultIndex callee arguments (numeral digits), pending, stack⟩) := by
      refine .token ?_
      rintro ⟨kind, start, text⟩ _ hword rfl
      cases hword
      exact ⟨_, .resultIndex rfl hlt, rfl⟩
    have hclose : Leads r [⟨.rightResultIndex, right⟩]
        (· = ⟨.closeResultIndex callee arguments (numeral digits), pending, stack⟩)
        (After (callee.apply arguments (numeral digits)) pending stack) := by
      refine .token ?_
      rintro ⟨kind, start, text⟩ _ hword rfl
      cases hword
      exact ⟨_, .closeResultIndex rfl, rfl, rfl, rfl⟩
    exact hopen.cons (hnumber.cons hclose)

/-! ## Words of the grammar -/

theorem leads_function {name : String} {f : Function V} (hf : r.find? name = some f) :
    Leads r [⟨.identifier, name⟩] (Before pending stack)
      (AtCallee r pending stack (.function f)) := by
  refine leads_identifier.mono ?_
  rintro _ ⟨offset, rfl⟩
  exact .function hf

theorem leads_method {name : String} :
    Leads r [⟨.identifier, name⟩] (· = ⟨.point e, pending, stack⟩)
      (AtCallee r pending stack (.method e name)) := by
  refine leads_member.mono ?_
  rintro _ ⟨offset, rfl⟩
  exact .method

mutual

theorem leads_expr {ws : List Word} {e : Expr V} : IsExpr r ws e → ∀ stack : List (Open V),
    Leads r ws (Before .empty stack) (Holds e stack)
  | .operand h, stack => leads_operand h .empty stack
  | .binary hleft hname hf hright, stack =>
    (leads_expr hleft stack).append ((leads_binary hname hf).cons (leads_operand hright _ stack))

theorem leads_operand {ws : List Word} {e : Expr V} : IsOperand r ws e →
    ∀ (pending : Pending V) (stack : List (Open V)),
      Leads r ws (Before pending stack) (Holds (pending.apply e) stack)
  | .unary hkind hname hf h, pending, stack =>
    (leads_unary hkind hname hf).cons (leads_operand h _ stack)
  | .chain h, pending, stack => (leads_chain h pending stack).mono fun _ hs => hs.holds

theorem leads_chain {ws : List Word} {e : Expr V} : IsChain r ws e →
    ∀ (pending : Pending V) (stack : List (Open V)),
      Leads r ws (Before pending stack) (After e pending stack)
  | .literal h, pending, stack => leads_literal h
  | .group hf h, pending, stack => by
    refine (leads_openGroup hf).cons (.exists fun offset => ?_)
    exact (leads_expr h _).append leads_closeGroup
  | .lookup, pending, stack => by
    refine leads_identifier.mono ?_
    rintro _ ⟨offset, rfl⟩
    exact ⟨rfl, rfl, rfl⟩
  | .call hf harguments hindex, pending, stack => by
    refine (leads_function hf).cons ?_
    exact (leads_arguments harguments _ pending stack).append (leads_index hindex)
  | .field hparent, pending, stack => by
    refine (leads_chain hparent pending stack).append (leads_point.cons (leads_member.mono ?_))
    rintro _ ⟨offset, rfl⟩
    exact ⟨rfl, rfl, rfl⟩
  | .method hparent harguments hindex, pending, stack => by
    refine (leads_chain hparent pending stack).append (leads_point.cons (leads_method.cons ?_))
    exact (leads_arguments harguments _ pending stack).append (leads_index hindex)
  | .index htarget hf h, pending, stack => by
    refine (leads_chain htarget pending stack).append ((leads_openIndex hf).cons ?_)
    exact .exists fun offset => (leads_expr h _).append leads_closeIndex

theorem leads_arguments {ws : List Word} {arguments : List (Expr V)} : IsArguments r ws arguments →
    ∀ (callee : Callee V) (pending : Pending V) (stack : List (Open V)),
      Leads r ws (AtCallee r pending stack callee) (· = ⟨.called callee arguments, pending, stack⟩)
  | .none, callee, pending, stack =>
    leads_openCall.cons (.exists fun name => .exists fun offset => leads_noArguments)
  | .some h, callee, pending, stack => by
    refine leads_openCall.cons (.exists fun name => .exists fun offset => ?_)
    -- Behind the parenthesis of a call an operand starts as anywhere else.
    refine .append (.imp (leads_list h callee name offset pending stack) ?_) leads_lastArgument
    rintro _ rfl
    exact ⟨trivial, rfl, rfl⟩

theorem leads_list {ws : List Word} {arguments : List (Expr V)} : IsList r ws arguments →
    ∀ (callee : Callee V) (name : String) (offset : Nat) (pending : Pending V)
      (stack : List (Open V)),
      Leads r ws (Before .empty (InCall callee [] name offset pending :: stack))
        (InArguments callee arguments name offset pending stack)
  | .one h, callee, name, offset, pending, stack =>
    (leads_expr h _).mono fun _ hs => ⟨[], _, rfl, hs⟩
  | .more hlist h, callee, name, offset, pending, stack => by
    refine (leads_list hlist callee name offset pending stack).append (leads_nextArgument.cons ?_)
    exact (leads_expr h _).mono fun _ hs => ⟨_, _, rfl, hs⟩

end

/-- The reader accepts what is an expression. -/
theorem run_of_isExpr {ts : List Token} (h : IsExpr r (ts.map Token.word) e) (offset : Nat) :
    ∃ s, State.initial.run r ts = .ok s ∧ s.finish offset = .ok e := by
  obtain ⟨s, hsteps, hholds⟩ := leads_expr h [] ts rfl .initial ⟨trivial, rfl, rfl⟩
  obtain ⟨e', hoperand, rfl, hstack⟩ := hholds
  exact ⟨s, run_eq_ok_iff.mpr hsteps, finish_eq_ok_iff.mpr ⟨hstack, e', hoperand, rfl⟩⟩

end Reader

end ExprLang
