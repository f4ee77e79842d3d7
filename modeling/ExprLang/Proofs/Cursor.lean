import ExprLang.Expr.Descent
import ExprLang.Proofs.Unclosed

/-!
# A cursor over a source

Reading by recursive descent is followed from cursor to cursor. A cursor stands ahead of the tokens that
were not taken yet, of which it holds at most one; and as long as reading goes on there is a closing
token behind them, so that none is made up. The steps of the reader say for each token what is to come of
it.

A procedure is specified by what holds of the cursor when it ends, with a result or with an error. That
it ends is a part of that.

Main statements: `Course.Stands.peek`, `Course.Stands.next`, `Course.Stands.expect`.
-/

namespace ExprLang

variable {V : Vocabulary} {α β : Type}

/-! ## Procedures that end -/

/-- From this cursor the procedure ends, with such a result or with such an error. -/
def Reading.Ends (m : Reading α) (c : Cursor) (done : α → Cursor → Prop)
    (failed : ParseError → Cursor → Prop) : Prop :=
  match m.run.run c with
  | some (.ok x, c') => done x c'
  | some (.error e, c') => failed e c'
  | none => False

namespace Reading

variable {c : Cursor} {done : β → Cursor → Prop} {failed : ParseError → Cursor → Prop}

theorem Ends.bind {m : Reading α} {next : α → Reading β} {between : α → Cursor → Prop}
    (h : m.Ends c between failed) (hnext : ∀ x c', between x c' → (next x).Ends c' done failed) :
    (m >>= next).Ends c done failed := by
  unfold Ends at h ⊢
  rw [ExceptT.run_bind, StateT.run_bind]
  cases hm : m.run.run c with
  | none =>
    rw [hm] at h
    exact h.elim
  | some outcome =>
    obtain ⟨x, c'⟩ := outcome
    rw [hm] at h
    cases x with
    | ok x => exact hnext x c' h
    | error e => exact h

theorem Ends.imp {m : Reading β} {done' : β → Cursor → Prop} (h : m.Ends c done' failed)
    (hdone : ∀ x c', done' x c' → done x c') : m.Ends c done failed := by
  unfold Ends at h ⊢
  split at h
  · exact hdone _ _ h
  · exact h
  · exact h

theorem ends_get {next : Cursor → Reading β} (h : (next c).Ends c done failed) :
    (get >>= next).Ends c done failed := h

theorem ends_modify {g : Cursor → Cursor} {next : Unit → Reading β}
    (h : (next ()).Ends (g c) done failed) : (modify g >>= next).Ends c done failed := h

theorem ends_set {c' : Cursor} {next : Unit → Reading β} (h : (next ()).Ends c' done failed) :
    (set c' >>= next).Ends c done failed := h

theorem ends_pure {x : β} (h : done x c) : (pure x : Reading β).Ends c done failed := h

theorem ends_throw {e : ParseError} (h : failed e c) : (throw e : Reading β).Ends c done failed := h

theorem ends_lift {x : Except ParseError α} {next : α → Reading β}
    (hok : ∀ a, x = .ok a → (next a).Ends c done failed) (herror : ∀ e, x = .error e → failed e c) :
    (liftM x >>= next).Ends c done failed := by
  cases x with
  | ok a => exact hok a rfl
  | error e => exact herror e rfl

end Reading

/-! ## Where a cursor stands -/

/-- The stream goes on with these tokens, blanks left out, and then stops. -/
structure TokenStream.Continues (s : TokenStream) (ts : List Token) (stop : Stop) : Prop where
  going : s.ended = false
  marks : (scanFrom 0 s.offset s.rest).marks = ts
  stop : (scanFrom 0 s.offset s.rest).stop = stop

/-- The tokens that were not taken yet are these, and then the sequence stops. -/
inductive Ahead (lookahead : List Handed) (stream : TokenStream) (ts : List Token) (stop : Stop) :
    Prop where
  | unread : lookahead = [] → stream.Continues ts stop → Ahead lookahead stream ts stop
  | token (t : Token) (rest : List Token) : ts = t :: rest → lookahead = [(t, none)] →
      stream.Continues rest stop → Ahead lookahead stream ts stop
  | closed : ts = [] → lookahead = [stop.handed] → stream.ended = true →
      Ahead lookahead stream ts stop

/-- The counts of a cursor over a source with this many characters. -/
structure Cursor.Sound (length : Nat) (c : Cursor) : Prop where
  pulled_le : c.pulled ≤ c.stream.offset + if c.stream.ended then 1 else 0
  offset : c.stream.offset + c.stream.rest.length = length
  held_le : c.held ≤ 1
  madeUp : c.madeUp = 0
  turns : ∀ turn ∈ c.turns, turn.1 < turn.2

theorem Cursor.Sound.pulled_le_length {length : Nat} {c : Cursor} (h : c.Sound length) :
    c.pulled ≤ length + 1 := by
  have hpulled := h.pulled_le
  have hoffset := h.offset
  split at hpulled <;> omega

/-- The reading of a source: its characters and tokens by number, how the tokens stop, and what comes of
them with this registry. -/
structure Course (V : Vocabulary) where
  registry : Registry V
  length : Nat
  total : Nat
  stop : Stop
  result : Except ParseError (Expr V)

/-- The cursor has these tokens ahead, and these brackets are open. -/
structure Course.At (k : Course V) (opened : List (String × Nat)) (ts : List Token) (c : Cursor) :
    Prop where
  sound : c.Sound k.length
  ahead : Ahead c.lookahead c.stream ts k.stop
  count : c.taken + ts.length = k.total
  opened : c.opened = opened
  inner : ∀ t ∈ ts, t.kind ≠ .eof

/-- The kind of the next token, by which procedures decide how to go on. -/
def headKind : List Token → TokenKind
  | [] => .eof
  | t :: _ => t.kind

namespace Course

variable {k : Course V} {opened : List (String × Nat)} {ts : List Token} {c : Cursor} {room : Nat}

theorem At.enter (h : k.At opened ts c) (name : String) (offset : Nat) :
    k.At ((name, offset) :: opened) ts (c.enter name offset) where
  sound := ⟨h.sound.pulled_le, h.sound.offset, h.sound.held_le, h.sound.madeUp, h.sound.turns⟩
  ahead := h.ahead
  count := h.count
  opened := congrArg _ h.opened
  inner := h.inner

theorem At.leave {bracket : String × Nat} (h : k.At (bracket :: opened) ts c) :
    k.At opened ts c.leave where
  sound := ⟨h.sound.pulled_le, h.sound.offset, h.sound.held_le, h.sound.madeUp, h.sound.turns⟩
  ahead := h.ahead
  count := h.count
  opened := congrArg List.tail h.opened
  inner := h.inner

theorem At.turn {before : List Token} (h : k.At opened ts c)
    (hlt : ts.length < before.length) {taken : Nat} (htaken : taken + before.length = k.total) :
    k.At opened ts (c.turn taken) where
  sound := by
    refine ⟨h.sound.pulled_le, h.sound.offset, h.sound.held_le, h.sound.madeUp, ?_⟩
    have hcount := h.count
    have hturn : taken < c.taken := by omega
    exact List.forall_mem_cons.mpr ⟨hturn, h.sound.turns⟩
  ahead := h.ahead
  count := h.count
  opened := h.opened
  inner := h.inner

end Course

/-! ## Asking the stream -/

theorem Stop.kind_ne (stop : Stop) : stop.handed.1.kind ≠ .whitespace := by
  cases stop <;> nofun

/-- What a stream that goes on answers: the closing token, a token, or blanks that are passed over. -/
inductive TokenStream.Answers (ts : List Token) (stop : Stop) (s s' : TokenStream) :
    Handed → Prop where
  | closed : ts = [] → s'.ended = true → s'.offset = s.offset → Answers ts stop s s' stop.handed
  | token (t : Token) (rest : List Token) : t.kind ≠ .whitespace → ts = t :: rest →
      s'.Continues rest stop → s.offset < s'.offset → Answers ts stop s s' (t, none)
  | blank (t : Token) : t.kind = .whitespace → s'.Continues ts stop → s.offset < s'.offset →
      Answers ts stop s s' (t, none)

theorem Lexeme.length_le_of_read {offset : Nat} {c : Char} {rest : List Char} {x : Lexeme}
    (h : Lexeme.read offset c rest = .ok x) : 0 < x.length ∧ x.length ≤ (c :: rest).length := by
  obtain ⟨raw, tail, hsplit, hforms, -, hlength⟩ := forms_of_read h
  have hpos : 0 < raw.length := List.length_pos_iff.mpr hforms.ne_nil
  rw [hsplit, List.length_append]
  omega

theorem TokenStream.Continues.next {s : TokenStream} {ts : List Token} {stop : Stop}
    (h : s.Continues ts stop) :
    ∃ answer s', s.next = (some answer, s') ∧ Answers ts stop s s' answer ∧
      s'.offset + s'.rest.length = s.offset + s.rest.length := by
  obtain ⟨rest, offset, ended⟩ := s
  obtain ⟨hgoing, rfl, rfl⟩ := h
  cases hgoing
  simp only [TokenStream.next, Bool.false_eq_true, if_false]
  cases rest with
  | nil => exact ⟨_, ⟨[], offset, true⟩, rfl, .closed rfl rfl rfl, rfl⟩
  | cons c rest =>
    cases hread : Lexeme.read offset c rest with
    | error e =>
      have hscan : scanFrom 0 offset (c :: rest) = ⟨[], .failure offset e⟩ := by
        rw [scanFrom]
        simp only [hread]
      simp only [hread, hscan]
      exact ⟨_, ⟨c :: rest, offset, true⟩, rfl, .closed rfl rfl rfl, rfl⟩
    | ok x =>
      obtain ⟨hpos, hle⟩ := Lexeme.length_le_of_read hread
      simp only [hread]
      refine ⟨_, ⟨(c :: rest).drop x.length, offset + x.length, false⟩, rfl, ?_, ?_⟩
      · rw [scanFrom_of_read hread]
        have hlt : offset < offset + x.length := Nat.lt_add_of_pos_right hpos
        by_cases hkind : x.kind = .whitespace
        · refine .blank _ hkind ⟨rfl, ?_, rfl⟩ hlt
          simp [Scan.marks, hkind]
        · refine .token _ _ hkind ?_ ⟨rfl, rfl, rfl⟩ hlt
          simp [Scan.marks, hkind]
      · show offset + x.length + ((c :: rest).drop x.length).length = offset + (c :: rest).length
        rw [List.length_drop]
        omega

namespace Course

variable {k : Course V} {opened : List (String × Nat)} {ts : List Token} {c : Cursor} {room : Nat}

theorem At.pull (h : k.At opened ts c) (hlookahead : c.lookahead = [])
    (hstream : c.stream.Continues ts k.stop) :
    k.At opened ts c.pull ∧
      ((∃ handed, c.pull.lookahead = [handed]) ∨
        (c.pull.lookahead = [] ∧ c.pull.stream.Continues ts k.stop ∧
          c.pull.stream.rest.length < c.stream.rest.length)) := by
  obtain ⟨answer, stream, hnext, hanswer, hlength⟩ := hstream.next
  have hpulled := h.sound.pulled_le
  rw [hstream.going] at hpulled
  have hoffset : stream.offset + stream.rest.length = k.length := by rw [hlength, h.sound.offset]
  have hheld : max c.held 1 ≤ 1 := Nat.max_le.mpr ⟨h.sound.held_le, Nat.le_refl 1⟩
  -- Whatever is held now, it is the only token.
  have hhold : ∀ handed : Handed, answer = handed → handed.1.kind ≠ .whitespace →
      c.pull = { c with
        stream, lookahead := [handed], lastOffset := handed.1.start, pulled := c.pulled + 1,
        held := max c.held 1 } := by
    rintro ⟨t, failure⟩ rfl hkind
    simp only [Cursor.pull, hnext, if_neg hkind, Cursor.hold, hlookahead, List.nil_append,
      List.length_nil, Nat.zero_add]
  cases hanswer with
  | closed hts hended hsame =>
    rw [hhold _ rfl k.stop.kind_ne]
    refine ⟨⟨⟨?_, hoffset, hheld, h.sound.madeUp, h.sound.turns⟩, .closed hts rfl hended, h.count,
      h.opened, h.inner⟩, .inl ⟨_, rfl⟩⟩
    simp only [hended, hsame]
    exact Nat.succ_le_succ hpulled
  | token t rest hkind hts hcontinues hlt =>
    rw [hhold _ rfl hkind]
    refine ⟨⟨⟨?_, hoffset, hheld, h.sound.madeUp, h.sound.turns⟩, .token t rest hts rfl hcontinues,
      h.count, h.opened, h.inner⟩, .inl ⟨_, rfl⟩⟩
    simp only [hcontinues.going]
    exact Nat.lt_of_le_of_lt hpulled hlt
  | blank t hkind hcontinues hlt =>
    have hpull : c.pull = { c with
        stream, lastOffset := t.start + t.text.length, pulled := c.pulled + 1 } := by
      simp only [Cursor.pull, hnext, if_pos hkind]
    rw [hpull]
    refine ⟨⟨⟨?_, hoffset, h.sound.held_le, h.sound.madeUp, h.sound.turns⟩,
      .unread hlookahead hcontinues, h.count, h.opened, h.inner⟩, .inr ⟨hlookahead, hcontinues, ?_⟩⟩
    · simp only [hcontinues.going]
      exact Nat.lt_of_le_of_lt hpulled hlt
    · show stream.rest.length < c.stream.rest.length
      omega

/-! ## Looking ahead -/

open Descent

theorem At.lookahead_length_le (h : k.At opened ts c) : c.lookahead.length ≤ 1 := by
  cases h.ahead with
  | unread hlookahead => simp [hlookahead]
  | token t rest _ hlookahead => simp [hlookahead]
  | closed _ hlookahead => simp [hlookahead]

theorem At.fill_of_held {failed : ParseError → Cursor → Prop} (hroom : 1 ≤ room)
    (h : k.At opened ts c) (hheld : c.lookahead.length = 1) :
    (fill 0 room).Ends c (fun _ c' => k.At opened ts c' ∧ c'.lookahead.length = 1) failed := by
  obtain ⟨room, rfl⟩ := Nat.exists_eq_add_of_le' hroom
  rw [Descent.fill]
  refine Reading.ends_get ?_
  rw [if_neg (by omega)]
  exact Reading.ends_pure ⟨h, hheld⟩

/-- Filling ends with a token that is held. Each round but the last one passes over blanks. -/
theorem At.fill {failed : ParseError → Cursor → Prop} (hroom : c.stream.rest.length + 2 ≤ room)
    (h : k.At opened ts c) :
    (fill 0 room).Ends c (fun _ c' => k.At opened ts c' ∧ c'.lookahead.length = 1) failed := by
  induction room generalizing c with
  | zero => exact absurd hroom (Nat.not_succ_le_zero _)
  | succ room ih =>
    by_cases hheld : c.lookahead.length = 1
    · exact h.fill_of_held (Nat.succ_pos _) hheld
    · have hle := h.lookahead_length_le
      have hnil : c.lookahead = [] := List.length_eq_zero_iff.mp (by omega)
      have hstream : c.stream.Continues ts k.stop := by
        cases h.ahead with
        | unread _ hstream => exact hstream
        | token t rest _ hlookahead => simp [hnil] at hlookahead
        | closed _ hlookahead => simp [hnil] at hlookahead
      obtain ⟨hpull, hcases⟩ := h.pull hnil hstream
      rw [Descent.fill]
      refine Reading.ends_get ?_
      rw [if_pos (by omega)]
      refine Reading.ends_modify ?_
      rcases hcases with ⟨handed, hone⟩ | ⟨-, -, hlt⟩
      · exact hpull.fill_of_held (by omega) (by rw [hone]; rfl)
      · exact ih (by omega) hpull

/-- What is looked at is the next token, or the end of the source, or it is why the source cannot be
read. -/
theorem At.peek {failed : ParseError → Cursor → Prop} (hroom : k.length + 2 ≤ room)
    (h : k.At opened ts c)
    (hfailed : ∀ offset e c', ts = [] → k.stop = .failure offset e → c'.Sound k.length →
      failed (.lex e) c') :
    (peekAt 0 room).Ends c
      (fun kind c' => kind = headKind ts ∧ k.At opened ts c' ∧ (∃ t, c'.lookahead = [(t, none)]) ∧
        (ts = [] → ∃ offset, k.stop = .endOfSource offset)) failed := by
  rw [Descent.peekAt]
  have hoffset := h.sound.offset
  refine (h.fill (by omega)).bind fun _ c' ⟨hposition, hheld⟩ => ?_
  refine Reading.ends_get ?_
  cases hposition.ahead with
  | unread hlookahead => simp [hlookahead] at hheld
  | token t rest hts hlookahead =>
    subst hts
    simp only [hlookahead]
    exact Reading.ends_pure ⟨rfl, hposition, ⟨t, hlookahead⟩, nofun⟩
  | closed hts hlookahead =>
    subst hts
    cases hstop : k.stop with
    | endOfSource offset =>
      rw [hstop] at hlookahead
      simp only [hlookahead]
      exact Reading.ends_pure ⟨rfl, hposition, ⟨_, hlookahead⟩, fun _ => ⟨offset, rfl⟩⟩
    | failure offset e =>
      rw [hstop] at hlookahead
      simp only [hlookahead]
      exact Reading.ends_throw (hfailed offset e c' rfl hstop hposition.sound)

end Course

/-! ## What is to come of the tokens ahead -/

namespace Reader

/-- What messages call the open brackets, and where they stand. -/
def openings (stack : List (Open V)) : List (String × Nat) := stack.map fun o => (o.name, o.offset)

def State.outcome (s : State V) (r : Registry V) (ts : List Token) (stop : Stop) :
    Except ParseError (Expr V) :=
  match s.run r ts with
  | .error e => .error e
  | .ok s =>
    match stop with
    | .failure _ e => .error (.lex e)
    | .endOfSource offset => s.finish offset

theorem State.outcome_cons (s : State V) (r : Registry V) (t : Token) (ts : List Token) (stop : Stop) :
    s.outcome r (t :: ts) stop = (s.step r t).bind fun s => s.outcome r ts stop := by
  rw [outcome, State.run]
  cases s.step r t <;> rfl

theorem State.outcome_of_step {s s' : State V} {r : Registry V} {t : Token} (h : s.step r t = .ok s')
    (ts : List Token) (stop : Stop) : s.outcome r (t :: ts) stop = s'.outcome r ts stop := by
  rw [outcome_cons, h]
  rfl

theorem State.outcome_of_error {s : State V} {r : Registry V} {t : Token} {e : ParseError}
    (h : s.step r t = .error e) (ts : List Token) (stop : Stop) :
    s.outcome r (t :: ts) stop = .error e := by
  rw [outcome_cons, h]
  rfl

end Reader

namespace Course

open Reader

/-- The cursor is where a state of the reader has these tokens to come. -/
structure Stands (k : Course V) (s : State V) (ts : List Token) (c : Cursor) : Prop where
  position : k.At (openings s.stack) ts c
  result : s.outcome k.registry ts k.stop = k.result

/-- Reading has failed, as it should. -/
def Fails (k : Course V) (e : ParseError) (c : Cursor) : Prop :=
  c.Sound k.length ∧ k.result = .error e

variable {k : Course V} {s s' : State V} {t : Token} {ts rest : List Token} {c : Cursor} {room : Nat}

theorem Stands.congr (h : k.Stands s ts c) (hopenings : openings s.stack = openings s'.stack)
    (houtcome : s.outcome k.registry ts k.stop = s'.outcome k.registry ts k.stop) :
    k.Stands s' ts c where
  position := hopenings ▸ h.position
  result := houtcome ▸ h.result

theorem Stands.turn {before : List Token} {c' : Cursor} (h : k.Stands s ts c)
    (hlt : ts.length < before.length) {opened : List (String × Nat)} (hbefore : k.At opened before c') :
    k.Stands s ts (c.turn c'.taken) where
  position := h.position.turn hlt hbefore.count
  result := h.result

theorem Stands.fails_of_failure {offset : Nat} {e : LexError} {c' : Cursor} (h : k.Stands s ts c)
    (hts : ts = []) (hstop : k.stop = .failure offset e) (hsound : c'.Sound k.length) :
    k.Fails (.lex e) c' := by
  have hresult := h.result
  rw [hts, hstop] at hresult
  exact ⟨hsound, hresult.symm⟩

theorem Stands.peek (hroom : k.length + 2 ≤ room) (h : k.Stands s ts c) :
    (Descent.peekAt 0 room).Ends c (fun kind c' => kind = headKind ts ∧ k.Stands s ts c') k.Fails := by
  refine (h.position.peek hroom fun _ _ _ => h.fails_of_failure).imp
    fun kind c' ⟨hkind, hposition, _⟩ => ?_
  exact ⟨hkind, hposition, h.result⟩

/-- A token was taken and the cursor is behind it, the reader not yet. -/
structure Behind (k : Course V) (s : State V) (t : Token) (rest : List Token) (c : Cursor) : Prop where
  position : k.At (openings s.stack) rest c
  result : s.outcome k.registry (t :: rest) k.stop = k.result

/-- What was taken is a token or the closing one at the end of the source. -/
inductive Took (k : Course V) (s : State V) (ts : List Token) (t : Token) (c : Cursor) : Prop where
  | token (rest : List Token) : ts = t :: rest → k.Behind s t rest c → Took k s ts t c
  | closed (offset : Nat) : ts = [] → t = ⟨.eof, offset, ""⟩ → c.Sound k.length →
      c.opened = openings s.stack → s.finish offset = k.result → Took k s ts t c

theorem Took.behind (h : k.Took s ts t c) (hkind : t.kind ≠ .eof) :
    ∃ rest, ts = t :: rest ∧ k.Behind s t rest c := by
  cases h with
  | token rest hts hbehind => exact ⟨rest, hts, hbehind⟩
  | closed offset hts ht =>
    subst ht
    exact absurd rfl hkind

theorem Stands.next (hroom : k.length + 2 ≤ room) (h : k.Stands s ts c) :
    (Descent.next room).Ends c (k.Took s ts) k.Fails := by
  rw [Descent.next]
  refine (h.position.peek hroom fun _ _ _ => h.fails_of_failure).bind
    fun _ c' ⟨_, hposition, ⟨t, hheld⟩, hend⟩ => ?_
  have hresult := h.result
  refine Reading.ends_get ?_
  simp only [hheld]
  refine Reading.ends_set (Reading.ends_pure ?_)
  obtain ⟨hsound, hahead, hcount, hopened, hinner⟩ := hposition
  have hsound' : Cursor.Sound k.length { c' with lookahead := [], taken := c'.taken + 1 } :=
    ⟨hsound.pulled_le, hsound.offset, hsound.held_le, hsound.madeUp, hsound.turns⟩
  rw [hheld] at hahead
  cases hahead with
  | unread hlookahead => cases hlookahead
  | token t' rest hts hlookahead hstream =>
    cases hlookahead
    subst hts
    have hcount' : c'.taken + 1 + rest.length = k.total := by
      rw [← hcount, List.length_cons]
      omega
    have hposition : k.At (openings s.stack) rest { c' with lookahead := [], taken := c'.taken + 1 } :=
      ⟨hsound', .unread rfl hstream, hcount', hopened, (List.forall_mem_cons.mp hinner).2⟩
    exact .token rest rfl ⟨hposition, hresult⟩
  | closed hts hlookahead _ =>
    obtain ⟨offset, hstop⟩ := hend hts
    subst hts
    rw [hstop] at hlookahead hresult
    cases hlookahead
    exact .closed offset rfl rfl hsound' hopened hresult

theorem Behind.step (h : k.Behind s t rest c) (hstep : s.step k.registry t = .ok s')
    (hstack : openings s'.stack = openings s.stack) : k.Stands s' rest c where
  position := hstack ▸ h.position
  result := State.outcome_of_step hstep rest k.stop ▸ h.result

theorem Behind.fails {err : ParseError} (h : k.Behind s t rest c)
    (hstep : s.step k.registry t = .error err) : k.Fails err c :=
  ⟨h.position.sound, (State.outcome_of_error hstep rest k.stop ▸ h.result).symm⟩

theorem Behind.ends_lift {x : Except ParseError α} {g : α → State V} {next : α → Reading β}
    {done : β → Cursor → Prop} (h : k.Behind s t rest c) (hstep : s.step k.registry t = x.map g)
    (hnext : ∀ a, s.step k.registry t = .ok (g a) → (next a).Ends c done k.Fails) :
    (liftM x >>= next).Ends c done k.Fails := by
  refine Reading.ends_lift (fun a ha => hnext a ?_) fun err herr => h.fails ?_
  · rw [hstep, ha]
    rfl
  · rw [hstep, herr]
    rfl

theorem Stands.take (hroom : k.length + 2 ≤ room) (h : k.Stands s ts c)
    (hhead : headKind ts ≠ .eof) :
    (Descent.next room).Ends c
      (fun t c' => ∃ rest, ts = t :: rest ∧ k.Behind s t rest c') k.Fails := by
  refine (h.next hroom).imp fun t c' htook => ?_
  cases htook with
  | token rest hts hbehind => exact ⟨rest, hts, hbehind⟩
  | closed offset hts =>
    subst hts
    exact absurd rfl hhead

/-- A token is unexpected if the reader refuses it, and the end is if the reader may not end. -/
theorem Took.unexpected {done : α → Cursor → Prop} (h : k.Took s ts t c)
    (hrefuse : ∀ rest, ts = t :: rest → t.kind ≠ .eof ∧ s.step k.registry t = .error t.unexpected)
    (hend : ts = [] → s.stack ≠ [] ∨ s.position.operand? = none) :
    (Descent.unexpected t).Ends c done k.Fails := by
  rw [Descent.unexpected]
  refine Reading.ends_get ?_
  cases h with
  | token rest hts hbehind =>
    obtain ⟨hkind, hstep⟩ := hrefuse rest hts
    split
    · rename_i heof _
      exact absurd heof hkind
    · exact Reading.ends_throw (hbehind.fails hstep)
  | closed offset hts ht hsound hopened hresult =>
    subst ht
    rw [hopened]
    cases hstack : s.stack with
    | nil =>
      have hoperand : s.position.operand? = none := (hend hts).resolve_left (absurd hstack)
      simp only [State.finish, hstack, hoperand] at hresult
      exact Reading.ends_throw ⟨hsound, hresult.symm⟩
    | cons o stack =>
      simp only [State.finish, hstack] at hresult
      exact Reading.ends_throw ⟨hsound, hresult.symm⟩

theorem Stands.expect (hroom : k.length + 2 ≤ room) (h : k.Stands s ts c) {kind : TokenKind}
    (hkind : kind ≠ .eof)
    (hrefuse : ∀ t rest, ts = t :: rest → t.kind ≠ kind → s.step k.registry t = .error t.unexpected)
    (hend : ts = [] → s.stack ≠ [] ∨ s.position.operand? = none) :
    (Descent.expect kind room).Ends c
      (fun t c' => t.kind = kind ∧ ∃ rest, ts = t :: rest ∧ k.Behind s t rest c') k.Fails := by
  rw [Descent.expect]
  refine (h.next hroom).bind fun t c' htook => ?_
  split
  · rename_i heq
    have hne : t.kind ≠ .eof := heq ▸ hkind
    exact Reading.ends_pure ⟨heq, htook.behind hne⟩
  · rename_i hne
    refine htook.unexpected (fun rest hts => ?_) hend
    have hmem : t ∈ ts := hts ▸ List.mem_cons_self
    exact ⟨h.position.inner t hmem, hrefuse t rest hts hne⟩

end Course

end ExprLang
