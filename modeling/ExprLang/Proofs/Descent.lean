import ExprLang.Proofs.Cursor

/-!
# Reading by recursive descent

The procedures of the grammar and the reader with its stack read alike: where a procedure begins with a
cursor at a state of the reader, it ends with the cursor at the state that the same tokens lead to, or
with the error that they lead to. A procedure that reads an operand has taken a token by then, so the
induction over the procedures is on the tokens ahead.

Main statement: `parse_descent`.
-/

namespace ExprLang

open Reader

variable {V : Vocabulary} {α β : Type}

theorem Reader.Bracket.group_ne_call (f : Function V) (callee : Callee V) (given : List (Expr V)) :
    Bracket.group f ≠ .call callee given := nofun

theorem Reader.Bracket.index_ne_call (f : Function V) (e : Expr V) (callee : Callee V)
    (given : List (Expr V)) : Bracket.index f e ≠ .call callee given := nofun

/-! ## States that read alike -/

namespace Reader.State

variable {r : Registry V} {s s' : State V} {ts : List Token} {t : Token} {stop : Stop}
  {pending : Pending V} {stack : List (Open V)} {e : Expr V}

theorem outcome_congr (hstep : ∀ t rest, ts = t :: rest → s.step r t = s'.step r t)
    (hfinish : ∀ offset, s.finish offset = s'.finish offset) :
    s.outcome r ts stop = s'.outcome r ts stop := by
  cases ts with
  | nil =>
    cases stop with
    | endOfSource offset => exact hfinish offset
    | failure offset e => rfl
  | cons t rest => rw [outcome_cons, outcome_cons, hstep t rest rfl]

theorem outcome_name {parent : Option (Expr V)} {text : String} {offset : Nat}
    (hcall : headKind ts ≠ .leftParenthesis) :
    (⟨.name parent text offset, pending, stack⟩ : State V).outcome r ts stop =
      (⟨.operand (property parent text), pending, stack⟩ : State V).outcome r ts stop := by
  refine outcome_congr (fun t rest hts => ?_) fun offset => rfl
  subst hts
  simp only [step, if_neg (show ¬ t.kind = _ from hcall)]
  rfl

theorem outcome_called {callee : Callee V} {given : List (Expr V)}
    (hindex : headKind ts ≠ .leftResultIndex) :
    (⟨.called callee given, pending, stack⟩ : State V).outcome r ts stop =
      (⟨.operand (callee.apply given 0), pending, stack⟩ : State V).outcome r ts stop := by
  refine outcome_congr (fun t rest hts => ?_) fun offset => rfl
  subst hts
  simp only [step, if_neg (show ¬ t.kind = _ from hindex)]
  rfl

theorem outcome_firstArgument {callee : Callee V} (hclose : headKind ts ≠ .rightParenthesis) :
    (⟨.firstArgument callee, pending, stack⟩ : State V).outcome r ts stop =
      (⟨.start, pending, stack⟩ : State V).outcome r ts stop := by
  refine outcome_congr (fun t rest hts => ?_) fun offset => rfl
  subst hts
  have hbegins : (Position.firstArgument callee).Begins := trivial
  exact step_of_begins (s := ⟨.firstArgument callee, pending, stack⟩) hbegins rfl hclose

/-- What waits for an operand can be applied to it when its last suffix was read. -/
theorem outcome_apply (hfree : headKind ts ∉ [TokenKind.separator, .leftIndex]) :
    (⟨.operand e, pending, stack⟩ : State V).outcome r ts stop =
      (⟨.operand (pending.apply e), .empty, stack⟩ : State V).outcome r ts stop := by
  refine outcome_congr (fun t rest hts => ?_) fun offset => by cases stack <;> rfl
  subst hts
  obtain ⟨kind, start, text⟩ := t
  cases kind with
  | separator => exact absurd (by simp [headKind]) hfree
  | leftIndex => exact absurd (by simp [headKind]) hfree
  | _ => rfl

/-! ## Steps that resolve a name -/

theorem step_prefix {name : String} (hkind : t.kind = .unaryOperator ∨ t.kind = .binaryOperator)
    (hname : Operator.unaryFunction? t.text = some name) :
    (⟨.start, pending, stack⟩ : State V).step r t =
      (resolve r name t.start).map fun f =>
        ⟨.start, { pending with prefixes := f :: pending.prefixes }, stack⟩ := by
  rcases hkind with hkind | hkind
  all_goals
    simp only [step, beginOperand, hkind, hname]
    cases resolve r name t.start <;> rfl

theorem step_group (hkind : t.kind = .leftParenthesis) :
    (⟨.start, pending, stack⟩ : State V).step r t =
      (resolve r Operator.groupFunction t.start).map fun f =>
        ⟨.start, .empty, ⟨"(", t.start, .group f, pending⟩ :: stack⟩ := by
  simp only [step, beginOperand, hkind]
  cases resolve r Operator.groupFunction t.start <;> rfl

theorem step_literal (hoperator : t.kind ∉ [TokenKind.unaryOperator, .binaryOperator])
    (hgroup : t.kind ≠ .leftParenthesis) (hname : t.kind ≠ .identifier) :
    (⟨.start, pending, stack⟩ : State V).step r t =
      match literal? t with
      | .ok (some e) => .ok ⟨.operand e, pending, stack⟩
      | .ok none => .error t.unexpected
      | .error err => .error err := by
  simp only [step, beginOperand]
  split
  · rename_i hkind
    exact absurd (by simp [hkind]) hoperator
  · rename_i hkind
    exact absurd (by simp [hkind]) hoperator
  · rename_i hkind
    exact absurd hkind hgroup
  · rename_i hkind
    exact absurd hkind hname
  · cases literal? t with
    | error err => rfl
    | ok e => cases e <;> rfl

theorem step_index (hkind : t.kind = .leftIndex) :
    (⟨.operand e, pending, stack⟩ : State V).step r t =
      (resolve r Operator.indexFunction t.start).map fun f =>
        ⟨.start, .empty, ⟨"[", t.start, .index f e, pending⟩ :: stack⟩ := by
  simp only [step, continueOperand, hkind]
  cases resolve r Operator.indexFunction t.start <;> rfl

theorem step_binary {name : String} (hkind : t.kind = .binaryOperator)
    (hname : Operator.binaryFunction? t.text = some name) :
    (⟨.operand e, pending, stack⟩ : State V).step r t =
      (resolve r name t.start).map fun f =>
        ⟨.start, ⟨some (f, pending.apply e), []⟩, stack⟩ := by
  simp only [step, continueOperand, hkind, hname]
  cases resolve r name t.start <;> rfl

theorem step_call {parent : Option (Expr V)} {name : Token} (hkind : t.kind = .leftParenthesis) :
    (⟨.name parent name.text name.start, pending, stack⟩ : State V).step r t =
      (Descent.callee r parent name).map fun callee =>
        ⟨.firstArgument callee, .empty, ⟨name.text, name.start, .call callee [], pending⟩ :: stack⟩ := by
  simp only [step, if_pos hkind, beginCall]
  cases parent with
  | some parent => rfl
  | none =>
    simp only [Descent.callee]
    cases resolve r name.text name.start <;> rfl

/-! ## Tokens that are refused -/

theorem step_of_free (hfree : t.kind ∉ [TokenKind.separator, .leftIndex, .binaryOperator]) :
    (⟨.operand e, pending, stack⟩ : State V).step r t =
      (⟨.operand e, pending, stack⟩ : State V).close e t := by
  obtain ⟨kind, start, text⟩ := t
  cases kind with
  | separator | leftIndex | binaryOperator => exact absurd (by simp) hfree
  | _ => rfl

theorem step_refuse {o : Open V}
    (hfree : t.kind ∉ [TokenKind.separator, .leftIndex, .binaryOperator])
    (hclose : t.kind ≠ o.bracket.closer)
    (hdelimiter : ∀ callee given, o.bracket = .call callee given → t.kind ≠ .delimiter) :
    (⟨.operand e, pending, o :: stack⟩ : State V).step r t = .error t.unexpected := by
  rw [step_of_free hfree]
  obtain ⟨name, offset, bracket, outer⟩ := o
  simp only [close]
  split
  · rename_i hkind
    exact absurd hkind hclose
  · rename_i hkind
    exact absurd hkind hclose
  · rename_i hkind
    exact absurd hkind hclose
  · rename_i hkind
    exact absurd hkind (hdelimiter _ _ rfl)
  · rfl

end Reader.State

/-! ## Reading on -/

namespace Course

variable {k : Course V} {s : State V} {ts rest : List Token} {t : Token} {c : Cursor}
  {pending : Pending V} {stack : List (Open V)} {e : Expr V} {n room : Nat}

/-- A procedure has come to the state that its result says, with less than `n` tokens ahead, none of
these kinds first. -/
def Reaches (k : Course V) (n : Nat) (kinds : List TokenKind) (state : α → State V) (x : α)
    (c : Cursor) : Prop :=
  ∃ ts : List Token, ts.length < n ∧ headKind ts ∉ kinds ∧ k.Stands (state x) ts c

theorem Reaches.mono {m : Nat} {kinds : List TokenKind} {state : α → State V} {x : α}
    (h : k.Reaches m kinds state x c) (hmn : m ≤ n) : k.Reaches n kinds state x c := by
  obtain ⟨ts, hlt, hhead, hstands⟩ := h
  exact ⟨ts, Nat.lt_of_lt_of_le hlt hmn, hhead, hstands⟩

theorem Reaches.ends_mono {m : Nat} {kinds : List TokenKind} {state : α → State V} {p : Reading α}
    (h : p.Ends c (k.Reaches m kinds state) k.Fails) (hmn : m ≤ n) :
    p.Ends c (k.Reaches n kinds state) k.Fails :=
  h.imp fun _ _ hreaches => hreaches.mono hmn

/-- From all states at which an expression begins, the procedure reads one. The room is enough to look
ahead, and for at most four calls in one another for each token. -/
def ReadsExpression (k : Course V) (ts : List Token) : Prop :=
  ∀ (room : Nat) (stack : List (Open V)) (c : Cursor), k.length + 4 * ts.length + 5 ≤ room →
    k.Stands ⟨.start, .empty, stack⟩ ts c →
    (Descent.expression k.registry room).Ends c
      (k.Reaches ts.length [.separator, .leftIndex, .binaryOperator]
        fun e => ⟨.operand e, .empty, stack⟩) k.Fails

theorem exists_of_headKind {kind : TokenKind} (h : headKind ts = kind) (hkind : kind ≠ .eof) :
    ∃ t rest, ts = t :: rest ∧ t.kind = kind := by
  cases ts with
  | nil => exact absurd h.symm hkind
  | cons t rest => exact ⟨t, rest, rfl, h⟩

theorem Stands.resultIndex {callee : Callee V} {given : List (Expr V)}
    (hroom : k.length + 2 ≤ room)
    (h : k.Stands ⟨.called callee given, pending, stack⟩ ts c) :
    (Descent.resultIndex room).Ends c
      (k.Reaches (ts.length + 1) []
        fun index => ⟨.operand (callee.apply given index), pending, stack⟩) k.Fails := by
  rw [Descent.resultIndex]
  refine (h.peek hroom).bind fun kind c' ⟨hkind, h⟩ => ?_
  subst hkind
  split
  · rename_i hopen
    refine (h.take hroom (by rw [hopen]; decide)).bind fun t c' ⟨rest, hts, hbehind⟩ => ?_
    subst hts
    have hstands := hbehind.step (Step.openResultIndex hopen).step rfl
    refine (hstands.expect hroom (by decide) (fun t rest _ hne => ?_) fun _ => .inr rfl).bind
      fun t c' ⟨hkind, rest', hrest, hnumber⟩ => ?_
    · simp only [State.step, if_neg hne]
    subst hrest
    split
    · rename_i index hindex
      have hstep : State.step k.registry ⟨.resultIndex callee given, pending, stack⟩ t =
          .ok ⟨.closeResultIndex callee given index, pending, stack⟩ := by
        simp only [State.step, if_pos hkind, hindex]
      refine ((hnumber.step hstep rfl).expect hroom (by decide) (fun t rest _ hne => ?_)
        fun _ => .inr rfl).bind fun t' c' ⟨hclose, rest'', hrest, hbrace⟩ => ?_
      · simp only [State.step, if_neg hne]
      subst hrest
      refine Reading.ends_pure ⟨rest'', ?_, List.not_mem_nil,
        hbrace.step (Step.closeResultIndex hclose).step rfl⟩
      simp only [List.length_cons]
      omega
    · rename_i hindex
      refine Reading.ends_throw (hnumber.fails ?_)
      simp only [State.step, if_pos hkind, hindex]
  · rename_i hindex
    exact Reading.ends_pure ⟨ts, Nat.lt_succ_self _, List.not_mem_nil,
      h.congr rfl (State.outcome_called hindex)⟩

section

variable (hexpr : ∀ ts : List Token, ts.length < n → k.ReadsExpression ts)

include hexpr

theorem Behind.bracket {o : Open V} {closed : Expr V → State V} {next : Expr V → Reading β}
    {done : β → Cursor → Prop} (hn : rest.length < n)
    (hroom : k.length + 4 * rest.length + 5 ≤ room) (h : k.Behind s t rest c)
    (hstep : s.step k.registry t = .ok ⟨.start, .empty, o :: s.stack⟩)
    (hcall : ∀ callee given, o.bracket ≠ .call callee given)
    (hclosed : ∀ e t, t.kind = o.bracket.closer →
      State.step k.registry ⟨.operand e, .empty, o :: s.stack⟩ t = .ok (closed e))
    (hstack : ∀ e, openings (closed e).stack = openings s.stack)
    (hnext : ∀ e ts c, ts.length + 1 < rest.length → k.Stands (closed e) ts c →
      (next e).Ends c done k.Fails) :
    (do
      modify (Cursor.enter o.name o.offset)
      let e ← Descent.expression k.registry room
      let _ ← Descent.expect o.bracket.closer room
      modify Cursor.leave
      next e).Ends c done k.Fails := by
  have hstart : k.Stands ⟨.start, .empty, o :: s.stack⟩ rest (c.enter o.name o.offset) :=
    ⟨h.position.enter _ _, State.outcome_of_step hstep rest k.stop ▸ h.result⟩
  have hcloser : o.bracket.closer ≠ .eof := by
    cases o.bracket <;> nofun
  refine Reading.ends_modify ?_
  refine (hexpr rest hn room _ _ hroom hstart).bind fun e c₁ ⟨ts, hlt, hfree, hstands⟩ => ?_
  refine (hstands.expect (by omega) hcloser (fun t' rest' hts hne => ?_)
    fun _ => .inl (List.cons_ne_nil _ _)).bind fun t' c₂ ⟨hkind, rest', hts, hbehind⟩ => ?_
  · subst hts
    exact State.step_refuse hfree hne fun callee given hbracket => absurd hbracket (hcall callee given)
  subst hts
  refine Reading.ends_modify (hnext e rest' _ hlt ⟨hstack e ▸ hbehind.position.leave, ?_⟩)
  exact State.outcome_of_step (hclosed e t' hkind) rest' k.stop ▸ hbehind.result

theorem Stands.argumentsAfter {o : Open V} {callee : Callee V} {given : List (Expr V)}
    (hn : ts.length < n) (hroom : k.length + 4 * ts.length + 6 ≤ room)
    (ho : o.bracket = .call callee given) (h : k.Stands ⟨.start, .empty, o :: stack⟩ ts c) :
    (Descent.argumentsAfter k.registry room given).Ends c
      (fun read c' => k.Reaches ts.length [] (fun read => ⟨.called callee read, o.outer, stack⟩)
        read c'.leave) k.Fails := by
  induction room generalizing ts given o c with
  | zero => exact absurd hroom (Nat.not_succ_le_zero _)
  | succ room ih =>
    obtain ⟨name, offset, bracket, outer⟩ := o
    cases ho
    rw [Descent.argumentsAfter]
    refine Reading.ends_get ((hexpr ts hn room _ c (by omega) h).bind ?_)
    rintro e c' ⟨ts', hlt, hfree, hstands⟩
    refine (hstands.next (by omega)).bind fun t c'' htook => ?_
    split
    · rename_i hkind
      obtain ⟨rest, rfl, hbehind⟩ := htook.behind (by rw [hkind]; decide)
      have hless : rest.length < ts.length := Nat.lt_of_succ_lt hlt
      have hnext := hbehind.step (Step.nextArgument rfl hkind).step rfl
      refine Reading.ends_modify ?_
      refine (ih (by omega) (by omega) rfl (hnext.turn hless h.position)).imp
        fun read c' hreaches => ?_
      exact hreaches.mono (Nat.le_of_lt hless)
    · rename_i hkind
      obtain ⟨rest, rfl, hbehind⟩ := htook.behind (by rw [hkind]; decide)
      have hless : rest.length < ts.length := Nat.lt_of_succ_lt hlt
      have hlast : State.step k.registry
          ⟨.operand e, .empty, ⟨name, offset, .call callee given, outer⟩ :: stack⟩ t =
            .ok ⟨.called callee (given ++ [e]), outer, stack⟩ := (Step.lastArgument rfl hkind).step
      refine Reading.ends_pure ⟨rest, hless, List.not_mem_nil, ?_⟩
      exact ⟨hbehind.position.leave, State.outcome_of_step hlast rest k.stop ▸ hbehind.result⟩
    · rename_i hdelimiter hclose
      refine htook.unexpected (fun rest hts => ?_) fun _ => .inl (List.cons_ne_nil _ _)
      subst hts
      exact ⟨hstands.position.inner t List.mem_cons_self,
        State.step_refuse hfree hclose fun _ _ _ => hdelimiter⟩

theorem Stands.arguments {parent : Option (Expr V)} {name : Token} {callee : Callee V}
    (hn : ts.length ≤ n) (hroom : k.length + 4 * ts.length + 3 ≤ room)
    (hcallee : Descent.callee k.registry parent name = .ok callee)
    (hopen : headKind ts = .leftParenthesis)
    (h : k.Stands ⟨.name parent name.text name.start, pending, stack⟩ ts c) :
    (Descent.arguments k.registry room name).Ends c
      (k.Reaches ts.length [] fun given => ⟨.called callee given, pending, stack⟩) k.Fails := by
  obtain ⟨t, rest, rfl, hkind⟩ := exists_of_headKind hopen (by decide)
  obtain ⟨room, rfl⟩ : ∃ m, room = m + 1 := ⟨room - 1, by omega⟩
  simp only [List.length_cons] at hn hroom
  rw [Descent.arguments]
  refine (h.expect (by omega) (by decide) (fun t' rest' hts hne => ?_) nofun).bind
    fun t' c' ⟨_, rest', hts, hbehind⟩ => ?_
  · cases hts
    exact absurd hkind hne
  cases hts
  have hstep : State.step k.registry ⟨.name parent name.text name.start, pending, stack⟩ t =
      .ok ⟨.firstArgument callee, .empty,
        ⟨name.text, name.start, .call callee [], pending⟩ :: stack⟩ := by
    rw [State.step_call hkind, hcallee]
    rfl
  have hfirst : k.Stands ⟨.firstArgument callee, .empty,
      ⟨name.text, name.start, .call callee [], pending⟩ :: stack⟩ rest
      (c'.enter name.text name.start) :=
    ⟨hbehind.position.enter _ _, State.outcome_of_step hstep rest k.stop ▸ hbehind.result⟩
  refine Reading.ends_modify ?_
  refine (hfirst.peek (by omega)).bind fun kind c'' ⟨hhead, hstands⟩ => ?_
  subst hhead
  split
  · rename_i hclose
    refine (hstands.take (by omega) (by rw [hclose]; decide)).bind fun t' c' ⟨rest', hts, hnone⟩ => ?_
    subst hts
    have hstep : State.step k.registry ⟨.firstArgument callee, .empty,
        ⟨name.text, name.start, .call callee [], pending⟩ :: stack⟩ t' =
          .ok ⟨.called callee [], pending, stack⟩ := (Step.noArguments hclose).step
    refine Reading.ends_modify (Reading.ends_pure ⟨rest', ?_, List.not_mem_nil, ?_⟩)
    · simp only [List.length_cons]
      omega
    · exact ⟨hnone.position.leave, State.outcome_of_step hstep rest' k.stop ▸ hnone.result⟩
  · rename_i hclose
    have hstart : k.Stands ⟨.start, .empty,
        ⟨name.text, name.start, .call callee [], pending⟩ :: stack⟩ rest c'' :=
      hstands.congr rfl (State.outcome_firstArgument hclose)
    refine (hstart.argumentsAfter hexpr hn (by omega) rfl).bind
      fun given c' ⟨ts', hlt, hhead, hstands⟩ => ?_
    refine Reading.ends_modify (Reading.ends_pure ⟨ts', ?_, hhead, hstands⟩)
    exact Nat.lt_succ_of_lt hlt

theorem Stands.member {parent : Option (Expr V)} {name : Token} (hn : ts.length ≤ n)
    (hroom : k.length + 4 * ts.length + 4 ≤ room)
    (h : k.Stands ⟨.name parent name.text name.start, pending, stack⟩ ts c) :
    (Descent.member k.registry room parent name).Ends c
      (k.Reaches (ts.length + 1) [] fun e => ⟨.operand e, pending, stack⟩) k.Fails := by
  obtain ⟨room, rfl⟩ : ∃ m, room = m + 1 := ⟨room - 1, by omega⟩
  rw [Descent.member]
  refine (h.peek (by omega)).bind fun kind c' ⟨hkind, h⟩ => ?_
  subst hkind
  split
  · rename_i hopen
    refine Reading.ends_lift (fun callee hcallee => ?_) fun err herror => ?_
    · refine (h.arguments hexpr hn (by omega) hcallee hopen).bind
        fun given c' ⟨ts', hlt, _, hcalled⟩ => ?_
      refine (hcalled.resultIndex (by omega)).bind fun index c' ⟨rest, hle, hhead, hstands⟩ => ?_
      exact Reading.ends_pure ⟨rest, by omega, hhead, hstands⟩
    · obtain ⟨t, rest, rfl, hkind⟩ := exists_of_headKind hopen (by decide)
      have hstep : State.step k.registry ⟨.name parent name.text name.start, pending, stack⟩ t =
          .error err := by
        rw [State.step_call hkind, herror]
        rfl
      exact ⟨h.position.sound, (State.outcome_of_error hstep rest k.stop ▸ h.result).symm⟩
  · rename_i hcall
    exact Reading.ends_pure ⟨ts, Nat.lt_succ_self _, List.not_mem_nil,
      h.congr rfl (State.outcome_name hcall)⟩

theorem Stands.suffixes (hn : ts.length ≤ n) (hroom : k.length + 4 * ts.length + 3 ≤ room)
    (h : k.Stands ⟨.operand e, pending, stack⟩ ts c) :
    (Descent.suffixes k.registry room e).Ends c
      (k.Reaches (ts.length + 1) [.separator, .leftIndex]
        fun e => ⟨.operand e, pending, stack⟩) k.Fails := by
  induction room generalizing ts e c with
  | zero => exact absurd hroom (Nat.not_succ_le_zero _)
  | succ room ih =>
    rw [Descent.suffixes]
    refine (h.peek (by omega)).bind ?_
    rintro _ c₁ ⟨rfl, h⟩
    split
    · rename_i hhead
      refine Reading.ends_get ((h.take (by omega) (by rw [hhead]; decide)).bind ?_)
      rintro t c₂ ⟨rest, rfl, hpoint⟩
      simp only [List.length_cons] at hn hroom ⊢
      refine ((hpoint.step (Step.point rfl hhead).step rfl).expect (by omega) (by decide)
        (fun t rest _ hne => ?_) fun _ => .inr rfl).bind ?_
      · simp only [State.step, if_neg hne]
      rintro name c₃ ⟨hkind, rest', rfl, hname⟩
      simp only [List.length_cons] at hn hroom ⊢
      refine ((hname.step (Step.member hkind).step rfl).member hexpr (by omega) (by omega)).bind ?_
      rintro e c₄ ⟨ts', hlt, -, hstands⟩
      have hless : ts'.length < (t :: name :: rest').length := by
        simp only [List.length_cons]
        omega
      refine Reading.ends_modify ?_
      exact Reaches.ends_mono (ih (by omega) (by omega) (hstands.turn hless h.position)) (by omega)
    · rename_i hhead
      refine Reading.ends_get ((h.take (by omega) (by rw [hhead]; decide)).bind ?_)
      rintro t c₂ ⟨rest, rfl, hopen⟩
      refine hopen.ends_lift (State.step_index hhead) fun f hstep => ?_
      simp only [List.length_cons] at hn hroom ⊢
      have hclosed : ∀ (index : Expr V) (t' : Token), t'.kind = .rightIndex →
          State.step k.registry
            ⟨.operand index, .empty, ⟨"[", t.start, .index f e, pending⟩ :: stack⟩ t' =
              .ok ⟨.operand (.call f [e, index] 0), pending, stack⟩ :=
        fun index t' hkind => (Step.closeIndex rfl hkind).step
      refine hopen.bracket (o := ⟨"[", t.start, .index f e, pending⟩) hexpr (by omega) (by omega)
        hstep (Bracket.index_ne_call f e) hclosed (fun _ => rfl) fun index ts' c₃ hlt hstands => ?_
      have hless : ts'.length < (t :: rest).length := by
        simp only [List.length_cons]
        omega
      refine Reading.ends_modify ?_
      exact Reaches.ends_mono (ih (by omega) (by omega) (hstands.turn hless h.position)) (by omega)
    · rename_i hseparator hindex
      have hhead : headKind ts ∉ [TokenKind.separator, .leftIndex] := by
        simp only [List.mem_cons, List.not_mem_nil, or_false, not_or]
        exact ⟨hseparator, hindex⟩
      exact Reading.ends_pure ⟨ts, Nat.lt_succ_self _, hhead, h⟩

theorem Stands.primary (hn : ts.length ≤ n) (hroom : k.length + 4 * ts.length + 3 ≤ room)
    (hhead : headKind ts ∉ [TokenKind.unaryOperator, .binaryOperator])
    (h : k.Stands ⟨.start, pending, stack⟩ ts c) :
    (Descent.primary k.registry room).Ends c
      (k.Reaches ts.length [] fun e => ⟨.operand e, pending, stack⟩) k.Fails := by
  obtain ⟨room, rfl⟩ : ∃ m, room = m + 1 := ⟨room - 1, by omega⟩
  rw [Descent.primary]
  refine (h.next (by omega)).bind fun t c₁ htook => ?_
  split
  · rename_i hkind
    obtain ⟨rest, rfl, hopen⟩ := htook.behind (by rw [hkind]; decide)
    simp only [List.length_cons] at hn hroom ⊢
    refine hopen.ends_lift (State.step_group hkind) fun f hstep => ?_
    have hclosed : ∀ (e : Expr V) (t' : Token), t'.kind = .rightParenthesis →
        State.step k.registry ⟨.operand e, .empty, ⟨"(", t.start, .group f, pending⟩ :: stack⟩ t' =
          .ok ⟨.operand (.call f [e] 0), pending, stack⟩ :=
      fun e t' hkind => (Step.closeGroup rfl hkind).step
    refine hopen.bracket (o := ⟨"(", t.start, .group f, pending⟩) hexpr hn (by omega) hstep
      (Bracket.group_ne_call f) hclosed (fun _ => rfl) fun e ts' c₂ hlt hstands => ?_
    exact Reading.ends_pure ⟨ts', by omega, List.not_mem_nil, hstands⟩
  · rename_i hkind
    obtain ⟨rest, rfl, hname⟩ := htook.behind (by rw [hkind]; decide)
    simp only [List.length_cons] at hn hroom ⊢
    have hbegins : (Position.start : Position V).Begins := trivial
    have hstands := hname.step (Step.identifier hbegins hkind).step rfl
    exact hstands.member hexpr (by omega) (by omega)
  · rename_i hgroup hname
    -- At the end of the source there is no literal.
    have hclosed : ∀ offset, ts = [] → t = ⟨.eof, offset, ""⟩ →
        State.literal? (V := V) t = .ok none := by
      rintro offset - rfl
      rfl
    have hstep : ∀ rest, ts = t :: rest → State.step k.registry ⟨.start, pending, stack⟩ t =
        match State.literal? t with
        | .ok (some e) => .ok ⟨.operand e, pending, stack⟩
        | .ok none => .error t.unexpected
        | .error err => .error err := by
      rintro rest rfl
      exact State.step_literal hhead hgroup hname
    refine Reading.ends_lift (fun literal hliteral => ?_) fun err herror => ?_
    · cases literal with
      | none =>
        refine htook.unexpected (fun rest hts => ⟨?_, ?_⟩) fun _ => .inr rfl
        · subst hts
          exact h.position.inner t List.mem_cons_self
        · rw [hstep rest hts, hliteral]
      | some e =>
        cases htook with
        | token rest hts hbehind =>
          have hoperand := hstep rest hts
          rw [hliteral] at hoperand
          subst hts
          exact Reading.ends_pure ⟨rest, Nat.lt_succ_self _, List.not_mem_nil,
            hbehind.step hoperand rfl⟩
        | closed offset hts ht =>
          rw [hclosed offset hts ht] at hliteral
          cases hliteral
    · cases htook with
      | token rest hts hbehind =>
        have hfails := hstep rest hts
        rw [herror] at hfails
        exact hbehind.fails hfails
      | closed offset hts ht =>
        rw [hclosed offset hts ht] at herror
        cases herror

theorem Stands.operand (hn : ts.length ≤ n) (hroom : k.length + 4 * ts.length + 4 ≤ room)
    (h : k.Stands ⟨.start, pending, stack⟩ ts c) :
    (Descent.operand k.registry room).Ends c
      (k.Reaches ts.length [.separator, .leftIndex]
        fun e => ⟨.operand (pending.apply e), .empty, stack⟩) k.Fails := by
  induction room generalizing ts pending c with
  | zero => exact absurd hroom (Nat.not_succ_le_zero _)
  | succ room ih =>
    rw [Descent.operand]
    refine Reading.ends_get ((h.peek (by omega)).bind ?_)
    rintro _ c₁ ⟨rfl, hstands⟩
    split
    · rename_i hhead
      have hne : headKind ts ≠ .eof := by
        rcases hhead with hhead | hhead <;> rw [hhead] <;> decide
      refine (hstands.take (by omega) hne).bind ?_
      rintro t c₂ ⟨rest, rfl, hbehind⟩
      simp only [List.length_cons] at hn hroom ⊢
      split
      · rename_i name hname
        refine hbehind.ends_lift (State.step_prefix hhead hname) fun f hstep => ?_
        refine (ih (by omega) (by omega) (hbehind.step hstep rfl)).bind ?_
        rintro e c₃ ⟨ts', hlt, hfree, hoperand⟩
        have hless : ts'.length < (t :: rest).length := Nat.lt_succ_of_lt hlt
        refine Reading.ends_modify (Reading.ends_pure ⟨ts', hless, hfree, ?_⟩)
        exact hoperand.turn hless h.position
      · rename_i hname
        have hrefuse : State.step k.registry ⟨.start, pending, stack⟩ t = .error t.unexpected := by
          rcases hhead with hkind | hkind
          all_goals
            simp only [headKind] at hkind
            simp only [State.step, State.beginOperand, hkind, hname]
        refine (Took.token rest rfl hbehind).unexpected (fun rest' hts => ⟨?_, hrefuse⟩)
          fun _ => .inr rfl
        exact hstands.position.inner t List.mem_cons_self
    · rename_i hhead
      have hprimary : headKind ts ∉ [TokenKind.unaryOperator, .binaryOperator] := by
        simpa only [List.mem_cons, List.not_mem_nil, or_false] using hhead
      refine (hstands.primary hexpr hn (by omega) hprimary).bind ?_
      rintro e c₂ ⟨ts', hlt, -, hoperand⟩
      refine (hoperand.suffixes hexpr (by omega) (by omega)).bind ?_
      rintro e c₃ ⟨rest, hle, hfree, hoperand⟩
      have hless : rest.length < ts.length := by omega
      refine Reading.ends_modify (Reading.ends_pure ⟨rest, hless, hfree, ?_⟩)
      exact (hoperand.turn hless h.position).congr rfl (State.outcome_apply hfree)

theorem Stands.operators (hn : ts.length ≤ n) (hroom : k.length + 4 * ts.length + 3 ≤ room)
    (hfree : headKind ts ∉ [TokenKind.separator, .leftIndex])
    (h : k.Stands ⟨.operand e, .empty, stack⟩ ts c) :
    (Descent.operators k.registry room e).Ends c
      (k.Reaches (ts.length + 1) [.separator, .leftIndex, .binaryOperator]
        fun e => ⟨.operand e, .empty, stack⟩) k.Fails := by
  induction room generalizing ts e c with
  | zero => exact absurd hroom (Nat.not_succ_le_zero _)
  | succ room ih =>
    rw [Descent.operators]
    refine (h.peek (by omega)).bind ?_
    rintro _ c₁ ⟨rfl, hstands⟩
    split
    · rename_i hhead
      refine Reading.ends_get ((hstands.take (by omega) (by rw [hhead]; decide)).bind ?_)
      rintro t c₂ ⟨rest, rfl, hbehind⟩
      simp only [List.length_cons] at hn hroom ⊢
      split
      · rename_i name hname
        refine hbehind.ends_lift (State.step_binary hhead hname) fun f hstep => ?_
        refine ((hbehind.step hstep rfl).operand hexpr (by omega) (by omega)).bind ?_
        rintro right c₃ ⟨ts', hlt, hfree, hoperand⟩
        have hless : ts'.length < (t :: rest).length := Nat.lt_succ_of_lt hlt
        have happlied : k.Stands ⟨.operand (.call f [e, right] 0), .empty, stack⟩ ts'
            (c₃.turn c₁.taken) := hoperand.turn hless hstands.position
        refine Reading.ends_modify ?_
        exact Reaches.ends_mono (ih (by omega) (by omega) hfree happlied) (by omega)
      · rename_i hname
        refine Reading.ends_throw (hbehind.fails ?_)
        simp only [headKind] at hhead
        simp only [State.step, State.continueOperand, hhead, hname]
    · rename_i hhead
      refine Reading.ends_pure ⟨ts, Nat.lt_succ_self _, ?_, hstands⟩
      simp only [List.mem_cons, List.not_mem_nil, or_false, not_or] at hfree ⊢
      exact ⟨hfree.1, hfree.2, hhead⟩

theorem readsExpression_of_forall (hn : ts.length ≤ n) : k.ReadsExpression ts := by
  intro room stack c hroom h
  obtain ⟨room, rfl⟩ : ∃ m, room = m + 1 := ⟨room - 1, by omega⟩
  rw [Descent.expression]
  refine Reading.ends_get ((h.operand hexpr hn (by omega)).bind ?_)
  rintro e c₁ ⟨ts', hlt, hfree, hoperand⟩
  refine (Stands.operators hexpr (by omega) (by omega) hfree hoperand).bind ?_
  rintro e c₂ ⟨rest, hle, hfree, hoperand⟩
  have hless : rest.length < ts.length := by omega
  refine Reading.ends_modify (Reading.ends_pure ⟨rest, hless, hfree, ?_⟩)
  exact hoperand.turn hless h.position

end

theorem readsExpression (k : Course V) (ts : List Token) : k.ReadsExpression ts := by
  induction hlength : ts.length using Nat.strongRecOn generalizing ts with
  | ind n ih =>
    exact readsExpression_of_forall (fun ts' hlt => ih _ hlt ts' rfl) (Nat.le_of_eq hlength)

end Course

/-! ## Whole sources -/

theorem Expr.ofTokens_eq_outcome (r : Registry V) {ts : List Token} (hts : ts ≠ []) (stop : Stop) :
    Expr.ofTokens r ts stop = State.initial.outcome r ts stop := by
  obtain ⟨t, rest, rfl⟩ := List.exists_cons_of_ne_nil hts
  unfold Expr.ofTokens State.outcome
  cases State.run r State.initial (t :: rest) with
  | error e => rfl
  | ok s => cases stop <;> rfl

namespace Course

variable {k : Course V} {ts : List Token} {c : Cursor} {room : Nat}

/-- The outcome of a source with tokens is the one that the reader comes to. -/
theorem Stands.whole (hts : ts ≠ []) (hroom : k.length + 4 * ts.length + 5 ≤ room)
    (h : k.Stands .initial ts c) :
    (Descent.whole k.registry room).Ends c (fun e c' => c'.Sound k.length ∧ k.result = .ok e)
      k.Fails := by
  rw [Descent.whole]
  refine (h.peek (by omega)).bind fun kind c₁ ⟨hkind, hstands⟩ => ?_
  have hne : kind ≠ .eof := by
    obtain ⟨t, rest, rfl⟩ := List.exists_cons_of_ne_nil hts
    subst hkind
    exact h.position.inner t List.mem_cons_self
  rw [if_neg hne]
  refine (readsExpression k ts room [] c₁ hroom hstands).bind fun e c₂ ⟨ts', _, hfree, hoperand⟩ => ?_
  refine (hoperand.next (by omega)).bind fun t c₃ htook => ?_
  cases htook with
  | token rest hts hbehind =>
    subst hts
    have hinner := hoperand.position.inner t List.mem_cons_self
    rw [if_neg hinner]
    have hrefuse : State.step k.registry ⟨.operand e, .empty, []⟩ t = .error t.unexpected :=
      State.step_of_free hfree
    exact (Took.token rest rfl hbehind).unexpected (fun _ _ => ⟨hinner, hrefuse⟩) nofun
  | closed offset hts ht hsound hopened hresult =>
    subst ht
    exact Reading.ends_pure ⟨hsound, hresult.symm⟩

theorem At.whole (hroom : k.length + 2 ≤ room) (h : k.At [] [] c) :
    (Descent.whole k.registry room).Ends c (fun _ _ => False)
      fun err c' => c'.Sound k.length ∧ Expr.ofTokens k.registry [] k.stop = .error err := by
  have hfailure : ∀ offset e (c' : Cursor), ([] : List Token) = [] → k.stop = .failure offset e →
      c'.Sound k.length →
        c'.Sound k.length ∧ Expr.ofTokens k.registry [] k.stop = .error (.lex e) := by
    intro offset e c' _ hstop hsound
    rw [hstop]
    exact ⟨hsound, rfl⟩
  rw [Descent.whole]
  refine (h.peek hroom hfailure).bind fun kind c' ⟨hkind, hposition, _, hend⟩ => ?_
  obtain ⟨offset, hstop⟩ := hend rfl
  subst hkind
  refine Reading.ends_throw ⟨hposition.sound, ?_⟩
  rw [hstop]
  rfl

/-- The course of reading a source. -/
def ofSource (r : Registry V) (source : String) : Course V :=
  ⟨r, source.length, (scan source).marks.length, (scan source).stop,
    State.initial.outcome r (scan source).marks (scan source).stop⟩

theorem at_ofSource (r : Registry V) (source : String) :
    (ofSource r source).At [] (scan source).marks (.ofSource source) where
  sound := ⟨Nat.zero_le _, (Nat.zero_add _).trans String.length_toList, Nat.zero_le _, rfl, nofun⟩
  ahead := .unread rfl ⟨rfl, rfl, rfl⟩
  count := Nat.zero_add _
  opened := rfl
  inner := fun _ ht => (kind_ne_of_mem_marks ht).2

end Course

theorem length_tokens_scanFrom (skip offset : Nat) (cs : List Char) :
    (scanFrom skip offset cs).tokens.length ≤ cs.length := by
  induction cs generalizing skip offset with
  | nil => exact Nat.le_refl 0
  | cons c rest ih =>
    cases skip with
    | succ skip => exact Nat.le_succ_of_le (ih skip (offset + 1))
    | zero =>
      rw [scanFrom]
      cases Lexeme.read offset c rest with
      | error e => exact Nat.zero_le _
      | ok x => exact Nat.succ_le_succ (ih (x.length - 1) (offset + 1))

theorem length_marks_le (source : String) : (scan source).marks.length ≤ source.length := by
  have hmarks : (scan source).marks.length ≤ (scan source).tokens.length :=
    List.length_filter_le _ _
  have htokens := length_tokens_scanFrom 0 0 source.toList
  rw [String.length_toList] at htokens
  exact Nat.le_trans hmarks htokens

/-- The descent ends for every source, with what the reader makes of it. For `n` characters it is enough
to have room for `5 * n + 5` calls within one another, the stream is asked `n + 1` times at most, at most
one token is held, no token is made up behind the end, and every turn takes a token. -/
theorem parse_descent (r : Registry V) (source : String) (room : Nat)
    (hroom : 5 * source.length + 5 ≤ room) :
    ∃ c, Descent.parse r source room = some (Expr.parse r source, c) ∧
      c.pulled ≤ source.length + 1 ∧ c.held ≤ 1 ∧ c.madeUp = 0 ∧
      ∀ turn ∈ c.turns, turn.1 < turn.2 := by
  suffices h : (Descent.whole r room).Ends (.ofSource source)
      (fun e c => c.Sound source.length ∧ Expr.parse r source = .ok e)
      fun err c => c.Sound source.length ∧ Expr.parse r source = .error err by
    unfold Reading.Ends at h
    unfold Descent.parse
    split at h
    · rename_i e c hrun
      obtain ⟨hsound, hparse⟩ := h
      exact ⟨c, by rw [hrun, hparse], hsound.pulled_le_length, hsound.held_le, hsound.madeUp,
        hsound.turns⟩
    · rename_i err c hrun
      obtain ⟨hsound, hparse⟩ := h
      exact ⟨c, by rw [hrun, hparse], hsound.pulled_le_length, hsound.held_le, hsound.madeUp,
        hsound.turns⟩
    · exact h.elim
  have hposition := Course.at_ofSource r source
  have hlength := length_marks_le source
  have hshort : (Course.ofSource r source).length = source.length := rfl
  by_cases hmarks : (scan source).marks = []
  · rw [hmarks] at hposition
    have hparse : Expr.parse r source = Expr.ofTokens r [] (scan source).stop := by
      rw [← hmarks]
      rfl
    rw [hparse]
    exact (hposition.whole (by omega)).imp fun e c hfalse => hfalse.elim
  · have hstands : (Course.ofSource r source).Stands .initial (scan source).marks (.ofSource source) :=
      ⟨hposition, rfl⟩
    have hparse : Expr.parse r source = (Course.ofSource r source).result :=
      Expr.ofTokens_eq_outcome r hmarks (scan source).stop
    rw [hparse]
    exact Course.Stands.whole (k := Course.ofSource r source) hmarks (by omega) hstands

/-- A source whose every character is a token: the stream is asked once more, for the end. -/
theorem parse_descent_spaced :
    let r : Registry Vocabulary.empty := .empty
    5 * "a . b".length + 5 ≤ 30 ∧
      ∃ c, Descent.parse r "a . b" 30 = some (.ok (.field (.lookup "a") "b"), c) ∧ c.pulled = 6 ∧
        c.pulled ≤ "a . b".length + 1 ∧ c.held ≤ 1 ∧ c.madeUp = 0 ∧
        ∀ turn ∈ c.turns, turn.1 < turn.2 := by
  intro r
  have hroom : 5 * "a . b".length + 5 ≤ 30 := by decide
  obtain ⟨c, hparse, hbounds⟩ := parse_descent r "a . b" 30 hroom
  have hread : Expr.parse r "a . b" = .ok (.field (.lookup "a") "b") := by rfl
  have hpulled : (Descent.parse r "a . b" 30).map (fun x => x.2.pulled) = some 6 := by rfl
  rw [hparse] at hpulled
  rw [hread] at hparse
  exact ⟨hroom, c, hparse, Option.some.inj hpulled, hbounds⟩

end ExprLang
