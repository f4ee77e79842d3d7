import ExprLang.Proofs.Faults
import ExprLang.Proofs.Parse

/-!
# Brackets that are left open

A source ends early if more words behind its own would make it an expression. Then its brackets tell how
this is reported: brackets are matched over the tokens alone, without grammar or registry, and the
innermost one that is left open is named. Nothing else is reported as an unclosed bracket or as an
unexpected end.

Main statement: `parse_unclosed_iff`.
-/

namespace ExprLang

open Grammar Reader

variable {V : Vocabulary} {r : Registry V}

/-! ## Matching brackets -/

/-- An open bracket: how it is called, where that stands, and what closes it. -/
structure Opening where
  name : String
  offset : Nat
  closer : TokenKind
deriving DecidableEq, Repr

/-- The bracket that the parenthesis `t` opens. Behind an identifier it is a call and has its name. -/
def Opening.parenthesis (t : Token) : Option Token → Opening
  | some ⟨.identifier, offset, name⟩ => ⟨name, offset, .rightParenthesis⟩
  | _ => ⟨"(", t.start, .rightParenthesis⟩

/-- The open brackets, the innermost first, without that which a closing bracket closes. -/
def Opening.close (kind : TokenKind) : List Opening → List Opening
  | [] => []
  | o :: rest => if o.closer = kind then rest else o :: rest

/-- What is open behind the token `t`, if `previous` stands before it. -/
def Opening.next (previous : Option Token) (opened : List Opening) (t : Token) : List Opening :=
  match t.kind with
  | .leftParenthesis => parenthesis t previous :: opened
  | .leftIndex => ⟨"[", t.start, .rightIndex⟩ :: opened
  | .rightParenthesis => close .rightParenthesis opened
  | .rightIndex => close .rightIndex opened
  | _ => opened

def Opening.after (previous : Option Token) (opened : List Opening) : List Token → List Opening
  | [] => opened
  | t :: rest => after (some t) (next previous opened t) rest

/-- The brackets of a source that are not closed, the last one first. -/
def unclosed (source : String) : List Opening := Opening.after none [] (scan source).marks

/-- A source ends early: it can be read, it is not an expression, but it is the beginning of one. -/
structure EndsEarly (r : Registry V) (source : String) : Prop where
  readable : ∀ t ∈ (scan source).all, t.kind ≠ .error
  ne_nil : (scan source).words ≠ []
  incomplete : ∀ e, ¬ IsExpr r (scan source).words e
  continues : ∃ ws e, IsExpr r ((scan source).words ++ ws) e

namespace Reader

variable {s s' : State V} {t : Token} {previous : Option Token} {opened : List Opening}

/-! ## The reader's stack -/

def Bracket.closer : Bracket V → TokenKind
  | group _ | call _ _ => .rightParenthesis
  | index _ _ => .rightIndex

def Open.opening (o : Open V) : Opening := ⟨o.name, o.offset, o.bracket.closer⟩

/-- A reader has just read the identifier `name` at `offset`. -/
def State.AtName (s : State V) (name : String) (offset : Nat) : Prop :=
  ∃ parent, s.position = .name parent name offset

/-- The reader is where matching is: its stack has the same brackets, it waits behind an identifier if
one was the last token, and it waits for a first argument behind a parenthesis only. -/
structure State.Tracks (previous : Option Token) (opened : List Opening) (s : State V) : Prop where
  stack : s.stack.map Open.opening = opened
  atName : ∀ name offset, s.AtName name offset ↔ previous = some ⟨.identifier, offset, name⟩
  firstArgument : ∀ callee, s.position = .firstArgument callee →
    ∃ o rest, s.stack = o :: rest ∧ o.bracket.closer = .rightParenthesis

theorem State.tracks_initial : State.Tracks none [] (.initial : State V) where
  stack := rfl
  atName := by
    intro name offset
    constructor
    · rintro ⟨parent, h⟩
      cases h
    · intro h
      cases h
  firstArgument := by
    intro callee h
    cases h

theorem atName_name {parent : Option (Expr V)} {pending : Pending V} {stack : List (Open V)}
    {start : Nat} {text name : String} {offset : Nat} :
    State.AtName ⟨.name parent text start, pending, stack⟩ name offset ↔
      some (⟨.identifier, start, text⟩ : Token) = some ⟨.identifier, offset, name⟩ := by
  constructor
  · rintro ⟨parent', h⟩
    cases h
    rfl
  · intro h
    cases h
    exact ⟨parent, rfl⟩

theorem Step.atName_iff (h : Step r s t s') {name : String} {offset : Nat} :
    s'.AtName name offset ↔ some t = some ⟨.identifier, offset, name⟩ := by
  cases h with
  | identifier _ hkind | member hkind =>
    obtain ⟨kind, start, text⟩ := t
    cases hkind
    exact atName_name
  | literal _ hliteral =>
    refine iff_of_false ?_ ?_
    · rintro ⟨parent, h⟩
      cases h
    · intro h
      cases h
      cases hliteral
  | unary _ hkind =>
    refine iff_of_false ?_ ?_
    · rintro ⟨parent, h⟩
      cases h
    · intro h
      cases h
      rcases hkind with hkind | hkind
      · cases hkind
      · cases hkind
  | openGroup _ hkind | noArguments hkind | openFunction hkind | openMethod hkind
  | openResultIndex hkind | resultIndex hkind | closeResultIndex hkind | point _ hkind
  | openIndex _ hkind | binary _ hkind | closeGroup _ hkind | closeIndex _ hkind
  | lastArgument _ hkind | nextArgument _ hkind =>
    refine iff_of_false ?_ ?_
    · rintro ⟨parent, h⟩
      cases h
    · intro h
      cases h
      cases hkind

/-- Where an operand must follow, a parenthesis is no call. -/
theorem State.Tracks.parenthesis_of_begins (h : s.Tracks previous opened)
    (hbegins : s.position.Begins) :
    Opening.parenthesis t previous = ⟨"(", t.start, .rightParenthesis⟩ := by
  unfold Opening.parenthesis
  split
  · rename_i offset name
    obtain ⟨parent, hposition⟩ := (h.atName name offset).mpr rfl
    rw [hposition] at hbegins
    exact hbegins.elim
  · rfl

theorem State.Tracks.parenthesis_of_name {parent : Option (Expr V)} {name : String} {offset : Nat}
    {pending : Pending V} {stack : List (Open V)}
    (h : State.Tracks previous opened ⟨.name parent name offset, pending, stack⟩) :
    Opening.parenthesis t previous = ⟨name, offset, .rightParenthesis⟩ := by
  have hprevious := (h.atName name offset).mp ⟨parent, rfl⟩
  rw [hprevious]
  rfl

/-- A step opens and closes the bracket that matching opens and closes. -/
theorem State.Tracks.next_eq (h : s.Tracks previous opened) (hstep : Step r s t s') :
    s'.stack.map Open.opening = Opening.next previous opened t := by
  have hstack := h.stack
  subst hstack
  unfold Opening.next
  cases hstep with
  | unary _ hkind =>
    rcases hkind with hkind | hkind
    · rw [hkind]
    · rw [hkind]
  | literal _ hliteral =>
    obtain ⟨kind, start, text⟩ := t
    cases hliteral <;> rfl
  | identifier _ hkind | member hkind | openResultIndex hkind | resultIndex hkind
  | closeResultIndex hkind | point _ hkind | binary _ hkind =>
    rw [hkind]
  | openGroup hbegins hkind =>
    rw [hkind]
    simp only [h.parenthesis_of_begins hbegins]
    rfl
  | openFunction hkind | openMethod hkind =>
    rw [hkind]
    simp only [h.parenthesis_of_name]
    rfl
  | openIndex _ hkind | closeGroup _ hkind | closeIndex _ hkind | lastArgument _ hkind
  | nextArgument _ hkind =>
    rw [hkind]
    rfl
  | noArguments hkind =>
    obtain ⟨o, rest, hcons, hcloser⟩ := h.firstArgument _ rfl
    cases hcons
    rw [hkind]
    exact (if_pos hcloser).symm

theorem Step.firstArgument (h : Step r s t s') {callee : Callee V}
    (hposition : s'.position = .firstArgument callee) :
    ∃ o rest, s'.stack = o :: rest ∧ o.bracket.closer = .rightParenthesis := by
  cases h with
  | openFunction | openMethod => exact ⟨_, _, rfl, rfl⟩
  | _ => cases hposition

theorem State.Tracks.step (h : s.Tracks previous opened) (hstep : Step r s t s') :
    s'.Tracks (some t) (Opening.next previous opened t) where
  stack := h.next_eq hstep
  atName := fun _ _ => hstep.atName_iff
  firstArgument := fun _ hposition => hstep.firstArgument hposition

/-- Along a run the stack of the reader is what matching leaves open. -/
theorem State.Tracks.after_eq {ts : List Token} (h : s.Tracks previous opened)
    (hsteps : Steps r s ts s') :
    s'.stack.map Open.opening = Opening.after previous opened ts := by
  induction hsteps generalizing previous opened with
  | nil => exact h.stack
  | cons hstep _ ih => exact ih (h.step hstep)

/-! ## Beginnings of expressions -/

theorem exists_operand (position : Position V) (pending : Pending V) (stack : List (Open V)) :
    ∃ ts position' e, Steps r ⟨position, pending, stack⟩ ts ⟨position', pending, stack⟩ ∧
      position'.operand? = some e := by
  have hliteral : IsLiteral (Token.word ⟨.bool, 0, "true"⟩) (.literal (.bool true) : Expr V) := .bool
  cases position with
  | start => exact ⟨_, _, _, .cons (.literal trivial hliteral) .nil, rfl⟩
  | firstArgument callee => exact ⟨_, _, _, .cons (.literal trivial hliteral) .nil, rfl⟩
  | point parent => exact ⟨[⟨.identifier, 0, "a"⟩], _, _, .cons (.member rfl) .nil, rfl⟩
  | name parent name offset => exact ⟨[], _, _, .nil, rfl⟩
  | called callee arguments => exact ⟨[], _, _, .nil, rfl⟩
  | resultIndex callee arguments =>
    have hlt : numeral "0" < 2 ^ 64 := by decide
    exact ⟨[⟨.integer, 0, "0"⟩, ⟨.rightResultIndex, 1, "\x7d"⟩], _, _,
      .cons (.resultIndex rfl hlt) (.cons (.closeResultIndex rfl) .nil), rfl⟩
  | closeResultIndex callee arguments index =>
    exact ⟨[⟨.rightResultIndex, 0, "\x7d"⟩], _, _, .cons (.closeResultIndex rfl) .nil, rfl⟩
  | operand e => exact ⟨[], _, _, .nil, rfl⟩

theorem Open.exists_step (o : Open V) (stack : List (Open V)) (pending : Pending V)
    {position : Position V} {e : Expr V} (hoperand : position.operand? = some e) :
    ∃ t position' e', Step r ⟨position, pending, o :: stack⟩ t ⟨position', o.outer, stack⟩ ∧
      position'.operand? = some e' := by
  obtain ⟨name, offset, bracket, outer⟩ := o
  cases bracket with
  | group f => exact ⟨⟨.rightParenthesis, 0, ")"⟩, _, _, .closeGroup hoperand rfl, rfl⟩
  | index f target => exact ⟨⟨.rightIndex, 0, "]"⟩, _, _, .closeIndex hoperand rfl, rfl⟩
  | call callee arguments =>
    exact ⟨⟨.rightParenthesis, 0, ")"⟩, _, _, .lastArgument hoperand rfl, rfl⟩

theorem exists_closed (stack : List (Open V)) (pending : Pending V) {position : Position V}
    {e : Expr V} (hoperand : position.operand? = some e) :
    ∃ ts s' e', Steps r ⟨position, pending, stack⟩ ts s' ∧ s'.stack = [] ∧
      s'.position.operand? = some e' := by
  induction stack generalizing position e pending with
  | nil => exact ⟨[], _, e, .nil, rfl, hoperand⟩
  | cons o stack ih =>
    obtain ⟨t, position', e₁, hstep, hoperand'⟩ := o.exists_step stack pending hoperand
    obtain ⟨ts, s', e', hsteps, hstack, he'⟩ := ih o.outer hoperand'
    exact ⟨t :: ts, s', e', .cons hstep hsteps, hstack, he'⟩

/-- The reader gets through some tokens exactly if they are the beginning of an expression. -/
theorem exists_steps_iff {ts : List Token} :
    (∃ s, Steps r .initial ts s) ↔ ∃ ws e, IsExpr r (ts.map Token.word ++ ws) e := by
  constructor
  · rintro ⟨⟨position, pending, stack⟩, hsteps⟩
    obtain ⟨us, position', e, hoperand, he⟩ := exists_operand (r := r) position pending stack
    obtain ⟨vs, s', e', hclosed, hstack, he'⟩ := exists_closed (r := r) stack pending he
    have hrun := run_eq_ok_iff.mpr (hsteps.append (hoperand.append hclosed))
    have hfinish : s'.finish 0 = .ok (s'.pending.apply e') :=
      finish_eq_ok_iff.mpr ⟨hstack, e', he', rfl⟩
    have hexpr := isExpr_of_run hrun hfinish
    rw [List.map_append] at hexpr
    exact ⟨_, _, hexpr⟩
  · rintro ⟨ws, e, hexpr⟩
    obtain ⟨us, rfl⟩ := exists_tokens ws
    rw [← List.map_append] at hexpr
    obtain ⟨s', hrun, -⟩ := run_of_isExpr hexpr 0
    obtain ⟨s, hsteps, -⟩ := (run_eq_ok_iff.mp hrun).of_append
    exact ⟨s, hsteps⟩

end Reader

/-! ## How an early end is reported -/

/-- The errors that say that a source ends too early. -/
def ParseError.IsEnd : ParseError → Prop
  | .unclosedParenthesis _ _ => True
  | .unexpectedToken kind _ _ => kind = .eof
  | _ => False

/-- The error of a source that ends early: its innermost open bracket, or else its end. -/
def endError (source : String) : ParseError :=
  match unclosed source with
  | [] => .unexpectedToken .eof "" source.length
  | o :: _ => .unclosedParenthesis o.name o.offset

theorem Reader.Fault.not_isEnd {s : State V} {t : Token} {err : ParseError} (h : Fault r s t err)
    (hkind : t.kind ≠ .eof) : ¬ err.IsEnd := by
  intro hend
  cases h with
  | unexpected => exact hkind hend
  | _ => exact hend

theorem kind_ne_of_mem_marks {source : String} {t : Token} (h : t ∈ (scan source).marks) :
    t.kind ≠ .error ∧ t.kind ≠ .eof :=
  (partition_scan source).inner t (List.mem_of_mem_filter h)

/-- A reader that may not end has the brackets that are left open on its stack. -/
theorem Reader.State.finish_eq_error {s : State V} {source : String} {err : ParseError}
    (hstack : s.stack.map Open.opening = unclosed source)
    (h : s.finish source.length = .error err) : err = endError source := by
  unfold endError
  rw [← hstack]
  unfold State.finish at h
  split at h
  · cases h
  · rename_i hnil _
    cases h
    rw [hnil]
    rfl
  · rename_i o stack hcons
    cases h
    rw [hcons]
    rfl

variable {source : String}

theorem stop_scan (h : ∀ t ∈ (scan source).all, t.kind ≠ .error) :
    (scan source).stop = .endOfSource source.length := by
  have hstop := error?_scan_eq_none_iff.mpr h
  have hcloses := (partition_scan source).closes
  cases hs : (scan source).stop with
  | failure offset error =>
    rw [hs] at hstop
    cases hstop
  | endOfSource offset =>
    rw [hs] at hcloses
    obtain rfl : offset = source.toList.length := hcloses
    rw [String.length_toList]

theorem EndsEarly.parse_eq (h : EndsEarly r source) :
    Expr.parse r source = .error (endError source) := by
  obtain ⟨s, hsteps⟩ := exists_steps_iff.mpr h.continues
  have hmarks : (scan source).marks ≠ [] :=
    fun hnil => h.ne_nil (congrArg (List.map Token.word) hnil)
  have hstack : s.stack.map Open.opening = unclosed source :=
    State.tracks_initial.after_eq hsteps
  have hstop := stop_scan h.readable
  cases hfinish : s.finish source.length with
  | ok e => exact absurd (isExpr_of_run (run_eq_ok_iff.mpr hsteps) hfinish) (h.incomplete e)
  | error err =>
    rw [← State.finish_eq_error hstack hfinish]
    exact ofScan_eq_error_iff.mpr (.ended hmarks hsteps hstop hfinish)

theorem endsEarly_of_parse {err : ParseError} (h : Expr.parse r source = .error err)
    (hend : err.IsEnd) : EndsEarly r source := by
  have hincomplete : (∀ t ∈ (scan source).all, t.kind ≠ .error) →
      ∀ e, ¬ IsExpr r (scan source).words e := by
    intro hreadable e hexpr
    rw [(parse_eq_ok_iff r source e).mpr ⟨hreadable, hexpr⟩] at h
    cases h
  cases ofScan_eq_error_iff.mp h with
  | @token before after t state _ hsplit _ hstep =>
    have ht : t ∈ (scan source).marks := by
      rw [hsplit]
      exact List.mem_append_right before List.mem_cons_self
    exact absurd hend ((Fault.of_step hstep).not_isEnd (kind_ne_of_mem_marks ht).2)
  | unreadable | empty => exact hend.elim
  | ended hne hsteps hs _ =>
    have hreadable : ∀ t ∈ (scan source).all, t.kind ≠ .error := by
      rw [← error?_scan_eq_none_iff, hs]
      rfl
    have hwords : (scan source).words ≠ [] := fun hnil => hne (List.map_eq_nil_iff.mp hnil)
    exact ⟨hreadable, hwords, hincomplete hreadable, exists_steps_iff.mp ⟨_, hsteps⟩⟩

theorem parse_eq_isEnd_iff {err : ParseError} (hend : err.IsEnd) :
    Expr.parse r source = .error err ↔ EndsEarly r source ∧ err = endError source := by
  constructor
  · intro h
    have hearly := endsEarly_of_parse h hend
    rw [hearly.parse_eq] at h
    exact ⟨hearly, (Except.error.inj h).symm⟩
  · rintro ⟨hearly, rfl⟩
    exact hearly.parse_eq

/-- A source that ends early is reported at the last bracket that is left open, or else at its end, and
nothing else is reported so. -/
theorem parse_unclosed_iff (r : Registry V) (source : String) :
    (∀ name offset, Expr.parse r source = .error (.unclosedParenthesis name offset) ↔
      EndsEarly r source ∧ ∃ closer rest, unclosed source = ⟨name, offset, closer⟩ :: rest) ∧
    (∀ text offset, Expr.parse r source = .error (.unexpectedToken .eof text offset) ↔
      EndsEarly r source ∧ unclosed source = [] ∧ text = "" ∧ offset = source.length) := by
  constructor
  · intro name offset
    have hend : (ParseError.unclosedParenthesis name offset).IsEnd := trivial
    rw [parse_eq_isEnd_iff hend]
    refine and_congr_right fun _ => ?_
    unfold endError
    cases unclosed source with
    | nil => simp
    | cons o rest =>
      constructor
      · intro h
        cases h
        exact ⟨o.closer, rest, rfl⟩
      · rintro ⟨closer, rest', h⟩
        cases h
        rfl
  · intro text offset
    have hend : (ParseError.unexpectedToken .eof text offset).IsEnd := rfl
    rw [parse_eq_isEnd_iff hend]
    unfold endError
    cases unclosed source with
    | nil => simp
    | cons o rest => simp

example : unclosed "f(a)[g(b, (c" =
    [⟨"(", 10, .rightParenthesis⟩, ⟨"g", 5, .rightParenthesis⟩, ⟨"[", 4, .rightIndex⟩] := by
  decide +kernel

end ExprLang
