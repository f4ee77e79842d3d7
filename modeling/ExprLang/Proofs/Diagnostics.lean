import ExprLang.Proofs.Spacing
import ExprLang.Proofs.Unclosed

/-!
# What errors say

An error is about a token of the source, and what it says of that token and of the registry holds. It
is also found as early as it can be: a source that begins with the same tokens, up to the one behind the
token at fault, is refused with the same error whatever follows.

Main statements: `parse_error_truthful`, `parse_error_leftmost`.
-/

namespace ExprLang

open Text Lexeme Grammar Reader

variable {V : Vocabulary} {r : Registry V} {source : String}

/-! ## What stood before -/

namespace Reader

variable {s s' : State V} {t : Token}

theorem Step.kind_eq_leftResultIndex_iff (h : Step r s t s') :
    t.kind = .leftResultIndex ↔
      ∃ callee arguments, s'.position = .resultIndex callee arguments := by
  cases h with
  | openResultIndex hkind => exact iff_of_true hkind ⟨_, _, rfl⟩
  | literal _ hliteral =>
    refine iff_of_false (fun hbrace => ?_) nofun
    obtain ⟨kind, start, text⟩ := t
    cases hbrace
    cases hliteral
  | unary _ hkind =>
    refine iff_of_false (fun hbrace => ?_) nofun
    rw [hbrace] at hkind
    exact hkind.elim nofun nofun
  | openGroup _ hkind | identifier _ hkind | member hkind | noArguments hkind | openFunction hkind
  | openMethod hkind | resultIndex hkind | closeResultIndex hkind | point _ hkind
  | openIndex _ hkind | binary _ hkind | closeGroup _ hkind | closeIndex _ hkind
  | lastArgument _ hkind | nextArgument _ hkind =>
    refine iff_of_false (fun hbrace => ?_) nofun
    rw [hbrace] at hkind
    cases hkind

theorem Step.kind_ne_separator (h : Step r s t s') (hbegins : s'.position.Begins) :
    t.kind ≠ .separator := by
  intro hpoint
  cases h with
  | unary _ hkind =>
    rw [hpoint] at hkind
    exact hkind.elim nofun nofun
  | openGroup _ hkind | openFunction hkind | openMethod hkind | openIndex _ hkind | binary _ hkind
  | nextArgument _ hkind =>
    rw [hpoint] at hkind
    cases hkind
  | _ => exact hbegins

theorem Step.of_name {name : String} {offset : Nat} (h : Step r s t s')
    (hname : s'.position = .name none name offset) :
    s.position.Begins ∧ t = ⟨.identifier, offset, name⟩ := by
  cases h with
  | identifier hbegins hkind =>
    obtain ⟨kind, start, text⟩ := t
    cases hkind
    cases hname
    exact ⟨hbegins, rfl⟩
  | _ => cases hname

variable {ts : List Token}

theorem Steps.resultIndex_iff (h : Steps r .initial ts s) :
    ts.getLast?.map Token.kind = some .leftResultIndex ↔
      ∃ callee arguments, s.position = .resultIndex callee arguments := by
  rcases List.eq_nil_or_concat ts with rfl | ⟨before, t, rfl⟩
  · cases h
    exact iff_of_false nofun nofun
  · rw [List.concat_eq_append] at h ⊢
    obtain ⟨between, -, hstep⟩ := h.of_concat
    rw [List.getLast?_concat, ← hstep.kind_eq_leftResultIndex_iff]
    exact Option.some_inj

theorem Steps.kind_ne_separator (h : Steps r .initial ts s) (hbegins : s.position.Begins) :
    ∀ t ∈ ts.getLast?, t.kind ≠ .separator := by
  intro t ht
  obtain ⟨before, rfl⟩ := List.getLast?_eq_some_iff.mp ht
  obtain ⟨between, -, hstep⟩ := h.of_concat
  exact hstep.kind_ne_separator hbegins

theorem Steps.of_name {name : String} {offset : Nat} (h : Steps r .initial ts s)
    (hname : s.position = .name none name offset) :
    ∃ before, ts = before ++ [⟨.identifier, offset, name⟩] ∧
      ∀ t ∈ before.getLast?, t.kind ≠ .separator := by
  rcases List.eq_nil_or_concat ts with rfl | ⟨before, t, rfl⟩
  · cases h
    cases hname
  · rw [List.concat_eq_append] at h ⊢
    obtain ⟨between, hbefore, hstep⟩ := h.of_concat
    obtain ⟨hbegins, rfl⟩ := hstep.of_name hname
    exact ⟨before, rfl, hbefore.kind_ne_separator hbegins⟩

end Reader

/-! ## Truthful errors -/

/-- The token `t` between `before` and `after` calls for the function `name`: it is an operator or a
bracket that stands for it, or its name in front of a parenthesis and not behind a point. -/
def Token.CallsFor (before after : List Token) (t : Token) (name : String) : Prop :=
  t.Denotes name ∨
    t.kind = .identifier ∧ t.text = name ∧ (∃ u ∈ after.head?, u.kind = .leftParenthesis) ∧
      ∀ u ∈ before.getLast?, u.kind ≠ .separator

/-- What an error says holds of the source and the registry. -/
def ParseError.IsTruthful (r : Registry V) (source : String) : ParseError → Prop
  | .emptyExpression => ∀ c ∈ source.toList, isBlank c = true
  | .lex e => ∃ t, t.kind = .error ∧ (t, some e) ∈ (scan source).handed
  | .unexpectedToken kind text offset => ⟨kind, offset, text⟩ ∈ (scan source).all
  | .unrecognizedOperator operator offset =>
    ⟨.binaryOperator, offset, operator⟩ ∈ (scan source).all ∧ operator ∈ ["=", "&", "|"]
  | .invalidLiteral text offset =>
    ∃ before after, (scan source).marks = before ++ ⟨.integer, offset, text⟩ :: after ∧
      if before.getLast?.map Token.kind = some .leftResultIndex then 2 ^ 64 ≤ numeral text
      else 2 ^ 63 ≤ numeral text
  | .unknownFunction name offset =>
    r.find? name = none ∧ ∃ before t after, (scan source).marks = before ++ t :: after ∧
      t.start = offset ∧ t.CallsFor before after name
  | .unclosedParenthesis name offset =>
    ∃ closer rest, unclosed source = ⟨name, offset, closer⟩ :: rest

theorem Lexeme.Forms.kind_eq_whitespace {kind : TokenKind} {c : Char} {more text : List Char}
    (h : Forms kind (c :: more) text) (hc : isBlank c = true) : kind = .whitespace := by
  have hend : Ends kind (c :: more) [] := nofun
  obtain ⟨d, rest, hsplit, hread⟩ := read_of_forms h hend
  obtain rfl : c = d := (List.cons.inj hsplit).1
  have hread := hread 0
  rw [read, if_pos hc] at hread
  exact (congrArg Lexeme.kind (Except.ok.inj hread)).symm

theorem Scans.words_eq_nil_iff {offset : Nat} {cs : List Char} {s : Scan}
    (h : Scans offset cs s) :
    s.words = [] ∧ s.stop.error? = none ↔ ∀ c ∈ cs, isBlank c = true := by
  induction h with
  | ended => exact iff_of_true ⟨rfl, rfl⟩ nofun
  | @token offset kind raw text tail s hforms _ _ ih =>
    by_cases hkind : kind = .whitespace
    · subst hkind
      rw [Scan.words_whitespace, List.forall_mem_append, and_iff_right hforms.of_whitespace.2]
      exact ih
    · obtain ⟨c, more, rfl⟩ := List.exists_cons_of_ne_nil hforms.ne_nil
      rw [Scan.words_cons hkind]
      refine iff_of_false nofun fun hblank => ?_
      exact hkind (hforms.kind_eq_whitespace (hblank c List.mem_cons_self))
  | unrecognized hopen =>
    refine iff_of_false nofun fun hblank => ?_
    exact hopen (.inl (hblank _ List.mem_cons_self))
  | unterminated hquote =>
    refine iff_of_false nofun fun hblank => ?_
    have hc := hblank _ List.mem_cons_self
    rw [(apart_of_isQuote hquote).1] at hc
    cases hc

/-- The operators that are no function are the halves of longer ones. -/
theorem operator_of_binaryFunction?_eq_none {t : Token} (ht : t ∈ (scan source).tokens)
    (hkind : t.kind = .binaryOperator) (hnone : Operator.binaryFunction? t.text = none) :
    t.text ∈ ["=", "&", "|"] := by
  have hall : ∀ p ∈ symbols, p.2 = .binaryOperator →
      Operator.binaryFunction? (String.ofList p.1) = none → String.ofList p.1 ∈ ["=", "&", "|"] := by
    decide
  obtain ⟨raw, hforms⟩ := (scans_scanFrom 0 source.toList).forms t ht
  rw [hkind] at hforms
  generalize htext : t.text.toList = text at hforms
  cases hforms with
  | symbol hmem =>
    have hsymbol := hall _ hmem rfl
    rw [← htext, String.ofList_toList] at hsymbol
    exact hsymbol hnone

theorem le_of_ofInt?_int64_eq_none {n : Nat} (h : Integer.ofInt? .int64 n = none) :
    2 ^ 63 ≤ n := by
  by_contra hn
  have hlower : IntKind.int64.lower ≤ 0 := by decide
  have hupper : IntKind.int64.upper = (2 ^ 63 : Nat) := by decide
  have hholds : IntKind.int64.Holds n := ⟨by omega, by omega⟩
  rw [Integer.ofInt?_eq_some_iff (a := ⟨n, hholds⟩) |>.mpr rfl] at h
  cases h

theorem mem_tokens_of_marks {before after : List Token} {t : Token}
    (h : (scan source).marks = before ++ t :: after) : t ∈ (scan source).tokens := by
  have ht : t ∈ (scan source).marks := by
    rw [h]
    exact List.mem_append_right before List.mem_cons_self
  exact List.mem_of_mem_filter ht

/-- A token that is refused is refused for what it is. -/
theorem Reader.Fault.isTruthful {before after : List Token} {t : Token} {s : State V}
    {err : ParseError} (hsplit : (scan source).marks = before ++ t :: after)
    (hsteps : Steps r .initial before s) (h : Fault r s t err) : err.IsTruthful r source := by
  have ht := mem_tokens_of_marks hsplit
  cases h with
  | unexpected => exact List.mem_append_left _ ht
  | unrecognized hkind hnone =>
    have hoperator := operator_of_binaryFunction?_eq_none ht hkind hnone
    obtain ⟨kind, start, text⟩ := t
    cases hkind
    exact ⟨List.mem_append_left _ ht, hoperator⟩
  | literal hbegins hkind hnumber =>
    have hplain : ¬ before.getLast?.map Token.kind = some .leftResultIndex := by
      rw [hsteps.resultIndex_iff]
      rintro ⟨callee, arguments, hposition⟩
      rw [hposition] at hbegins
      exact hbegins
    obtain ⟨kind, start, text⟩ := t
    cases hkind
    refine ⟨before, after, hsplit, ?_⟩
    rw [if_neg hplain]
    exact le_of_ofInt?_int64_eq_none hnumber
  | resultIndex hposition hkind hlarge =>
    obtain ⟨kind, start, text⟩ := t
    cases hkind
    refine ⟨before, after, hsplit, ?_⟩
    rw [if_pos (hsteps.resultIndex_iff.mpr ⟨_, _, hposition⟩)]
    exact hlarge
  | unknown hdenotes hnone => exact ⟨hnone, before, t, after, hsplit, rfl, .inl hdenotes⟩
  | unknownCallee hposition hkind hnone =>
    obtain ⟨before, rfl, hpoint⟩ := hsteps.of_name hposition
    rw [List.append_assoc] at hsplit
    exact ⟨hnone, before, _, t :: after, hsplit, rfl, .inr ⟨rfl, rfl, ⟨t, rfl, hkind⟩, hpoint⟩⟩

/-- Where a source ends early, its end is reported, or a bracket that is open. -/
theorem isTruthful_endError (h : (scan source).stop = .endOfSource source.length) :
    (endError source).IsTruthful r source := by
  unfold endError
  cases hopen : unclosed source with
  | nil =>
    have hlast := (scan source).token_mem_all
    rw [h] at hlast
    exact hlast
  | cons o rest => exact ⟨o.closer, rest, hopen⟩

theorem Reader.Refuses.isTruthful {err : ParseError} (h : Refuses r (scan source) err) :
    err.IsTruthful r source := by
  cases h with
  | token hsplit hsteps hstep => exact (Fault.of_step hstep).isTruthful hsplit hsteps
  | unreadable _ hs =>
    refine ⟨(scan source).stop.token, ?_, ?_⟩
    · rw [hs]
      rfl
    · have hlast : (scan source).stop.handed ∈ (scan source).handed :=
        List.mem_append_right _ (List.mem_singleton_self _)
      rw [Stop.handed, hs] at hlast
      rw [hs]
      exact hlast
  | empty hnil hs =>
    have hwords : (scan source).words = [] := congrArg (List.map Token.word) hnil
    exact (scans_scanFrom 0 source.toList).words_eq_nil_iff.mp ⟨hwords, congrArg Stop.error? hs⟩
  | ended hne hsteps hs hfinish =>
    have hreadable : ∀ t ∈ (scan source).all, t.kind ≠ .error :=
      error?_scan_eq_none_iff.mp (congrArg Stop.error? hs)
    have hstop := stop_scan hreadable
    obtain rfl : _ = source.length := Stop.endOfSource.inj (hs.symm.trans hstop)
    rw [State.finish_eq_error (State.tracks_initial.after_eq hsteps) hfinish]
    exact isTruthful_endError hstop

/-- What is reported of a source that is refused holds of it, and a source is reported as empty exactly if
it is blank. -/
theorem parse_error_truthful (r : Registry V) (source : String) :
    (Expr.parse r source = .error .emptyExpression ↔ ∀ c ∈ source.toList, isBlank c = true) ∧
    ∀ err, Expr.parse r source = .error err → err.IsTruthful r source := by
  constructor
  · constructor
    · intro h
      exact (ofScan_eq_error_iff.mp h).isTruthful
    · intro h
      obtain ⟨hwords, herror⟩ := (scans_scanFrom 0 source.toList).words_eq_nil_iff.mpr h
      have hstop := stop_scan (error?_scan_eq_none_iff.mp herror)
      exact ofScan_eq_error_iff.mpr (.empty (List.map_eq_nil_iff.mp hwords) hstop)
  · intro err h
    exact (ofScan_eq_error_iff.mp h).isTruthful

/-- A name behind a point is no function, one before a parenthesis is, and an index may be greater than
a literal. -/
theorem parse_error_truthful_calls :
    let r : Registry Vocabulary.empty := .empty
    let call := "x.f('(', g ('.'))"
    let index := "x.f()\x7b18446744073709551616\x7d"
    Expr.parse r call = .error (.unknownFunction "g" 9) ∧
      (ParseError.unknownFunction "g" 9).IsTruthful r call ∧
      Expr.parse r index = .error (.invalidLiteral "18446744073709551616" 6) ∧
      (ParseError.invalidLiteral "18446744073709551616" 6).IsTruthful r index := by
  intro r call index
  have hcall : Expr.parse r call = .error (.unknownFunction "g" 9) :=
    map_eq_error_iff.mp (show (Expr.parse r call).map (fun _ => ()) = _ by decide +kernel)
  have hindex : Expr.parse r index = .error (.invalidLiteral "18446744073709551616" 6) :=
    map_eq_error_iff.mp (show (Expr.parse r index).map (fun _ => ()) = _ by decide +kernel)
  exact ⟨hcall, (parse_error_truthful r call).2 _ hcall, hindex,
    (parse_error_truthful r index).2 _ hindex⟩

/-! ## Errors that are found first -/

/-- Where the token starts that an error is about, unless it is about the source as a whole. -/
def ParseError.place? : ParseError → Option Nat
  | .unexpectedToken _ _ offset | .unrecognizedOperator _ offset | .invalidLiteral _ offset
  | .unknownFunction _ offset => some offset
  | .emptyExpression | .unclosedParenthesis _ _ | .lex _ => none

theorem Reader.Fault.place?_eq {s : State V} {t : Token} {err : ParseError} (h : Fault r s t err) :
    err.place? = some t.start ∨
      ∃ name offset, s.position = .name none name offset ∧ err.place? = some offset := by
  cases h with
  | unknownCallee hposition => exact .inr ⟨_, _, hposition, rfl⟩
  | _ => exact .inl rfl

/-- What the signs begin with and is not the closing token, the tokens before it begin with. -/
theorem Scan.prefix_marks {s : Scan} {ts : List Token} (h : ts <+: s.signs)
    (hkind : ∀ t ∈ ts, t.kind ≠ .error ∧ t.kind ≠ .eof) : ts <+: s.marks := by
  rw [signs_eq, List.prefix_concat_iff] at h
  rcases h with rfl | h
  · have hlast := hkind s.stop.token (List.mem_append_right _ (List.mem_singleton_self _))
    exact (s.stop.kind_token.elim hlast.1 hlast.2).elim
  · exact h

/-- A source that begins with the same tokens, up to one that is refused, is refused for it. -/
theorem parse_of_prefix {other : String} {before after : List Token} {t : Token} {s : State V}
    {err : ParseError} (hsplit : (scan source).marks = before ++ t :: after)
    (hsteps : Steps r .initial before s) (hstep : s.step r t = .error err)
    (h : before ++ [t] <+: (scan other).signs) : Expr.parse r other = .error err := by
  have hkind : ∀ u ∈ before ++ [t], u.kind ≠ .error ∧ u.kind ≠ .eof := by
    intro u hu
    have hmark : u ∈ (scan source).marks := by
      rw [hsplit, List.append_cons]
      exact List.mem_append_left _ hu
    exact kind_ne_of_mem_marks hmark
  obtain ⟨later, hother⟩ := Scan.prefix_marks h hkind
  rw [← List.append_cons] at hother
  exact ofScan_eq_error_iff.mpr (.token hother.symm hsteps hstep)

theorem parse_of_signs_prefix {other : String} {offset : Nat}
    (hstop : (scan source).stop = .endOfSource offset)
    (h : (scan source).signs <+: (scan other).signs) :
    Expr.parse r other = Expr.parse r source := by
  rw [Scan.signs_eq, Scan.signs_eq, hstop, List.prefix_concat_iff] at h
  rcases h with heq | hprefix
  · obtain ⟨hmarks, hlast⟩ := List.append_inj' heq rfl
    have hlast := List.singleton_inj.mp hlast
    unfold Expr.parse Expr.ofScan
    cases hs : (scan other).stop with
    | endOfSource offset' =>
      rw [hs] at hlast
      obtain rfl : offset = offset' := congrArg Token.start hlast
      rw [hmarks, hstop]
    | failure offset' e =>
      rw [hs] at hlast
      cases congrArg Token.kind hlast
  · have hlast := hprefix.subset (List.mem_append_right _ (List.mem_singleton_self _))
    exact absurd rfl (kind_ne_of_mem_marks hlast).2

theorem isEnd_of_finish {s : State V} {offset : Nat} {err : ParseError}
    (h : s.finish offset = .error err) {o : Nat} (hplace : err.place? = some o) :
    err = .unexpectedToken .eof "" offset := by
  unfold State.finish at h
  split at h
  · cases h
  · cases h
    rfl
  · cases h
    cases hplace

/-- An error about a token is found by the tokens up to the one behind it: every source that begins
with these is refused with the same error. -/
theorem parse_error_leftmost (r : Registry V) (source : String) (err : ParseError) (o : Nat)
    (h : Expr.parse r source = .error err) (hplace : err.place? = some o) :
    ∃ before t after, (scan source).signs = before ++ t :: after ∧ t.start = o ∧
      ∀ other : String, before ++ t :: after.take 1 <+: (scan other).signs →
        Expr.parse r other = .error err := by
  cases ofScan_eq_error_iff.mp h with
  | @token before after t s _ hsplit hsteps hstep =>
    have hsigns : (scan source).signs = before ++ t :: (after ++ [(scan source).stop.token]) := by
      rw [Scan.signs_eq, hsplit, List.append_assoc, List.cons_append]
    rcases (Fault.of_step hstep).place?_eq with hfault | ⟨name, offset, hposition, hfault⟩
    · rw [hplace] at hfault
      refine ⟨before, t, _, hsigns, (Option.some.inj hfault).symm, fun other hother => ?_⟩
      rw [List.append_cons] at hother
      exact parse_of_prefix hsplit hsteps hstep ((List.prefix_append _ _).trans hother)
    · -- The token at fault is the name, and the parenthesis that makes a call of it is the next one.
      rw [hplace] at hfault
      obtain ⟨before, rfl, -⟩ := hsteps.of_name hposition
      rw [List.append_assoc] at hsigns
      refine ⟨before, _, _, hsigns, (Option.some.inj hfault).symm, fun other hother => ?_⟩
      rw [List.append_cons] at hother
      exact parse_of_prefix hsplit hsteps hstep hother
  | unreadable => cases hplace
  | empty => cases hplace
  | ended hne hsteps hs hfinish =>
    obtain rfl := isEnd_of_finish hfinish hplace
    have hsigns := (scan source).signs_eq
    rw [hs] at hsigns
    refine ⟨_, _, [], hsigns, Option.some.inj hplace, fun other hother => ?_⟩
    rw [← h]
    exact parse_of_signs_prefix hs (hsigns ▸ hother)

/-- A missing function is reported although a bracket stands open before it and no lexeme begins behind
it. -/
theorem parse_error_leftmost_call :
    let r : Registry Vocabulary.empty := .empty
    let source := "x.y(g (1 $"
    let err := ParseError.unknownFunction "g" 4
    Expr.parse r source = .error err ∧ err.place? = some 4 ∧
      ∃ before t after, (scan source).signs = before ++ t :: after ∧ t.start = 4 ∧
        ∀ other : String, before ++ t :: after.take 1 <+: (scan other).signs →
          Expr.parse r other = .error err := by
  intro r source err
  have h : Expr.parse r source = .error err :=
    map_eq_error_iff.mp (show (Expr.parse r source).map (fun _ => ()) = _ by decide +kernel)
  exact ⟨h, rfl, parse_error_leftmost r source err 4 h rfl⟩

end ExprLang
