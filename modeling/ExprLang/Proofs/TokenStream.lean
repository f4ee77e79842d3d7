import ExprLang.Proofs.Lexeme
import ExprLang.Token.Stream

/-!
# The tokens of a source

A reading is a sequence of lexemes that leaves nothing out: `Scans offset cs s` says so by the forms of
lexemes alone, and `scanFrom` produces such a reading. From it follows where the tokens stand
(`Partition`): each one shows the characters up to the next one, none could be longer, and the
sequence is closed at the end of the source or where no lexeme is found.

Main statement: `partition_source`, for the tokens that a stream hands out one by one.
-/

namespace ExprLang

open Text Lexeme

/-! ## Readings -/

/-- The characters `cs`, which stand at `offset`, are read as `s`. -/
inductive Scans : Nat → List Char → Scan → Prop where
  | ended {offset : Nat} : Scans offset [] ⟨[], .endOfSource offset⟩
  | token {offset : Nat} {kind : TokenKind} {raw text tail : List Char} {s : Scan} :
      Forms kind raw text → Ends kind raw tail → Scans (offset + raw.length) tail s →
      Scans offset (raw ++ tail) ⟨⟨kind, offset, String.ofList text⟩ :: s.tokens, s.stop⟩
  | unrecognized {offset : Nat} {c : Char} {rest : List Char} :
      ¬ Opens c →
      Scans offset (c :: rest) ⟨[], .failure offset (.unrecognizedCharacter c offset)⟩
  | unterminated {offset : Nat} {c : Char} {rest : List Char} :
      isQuote c = true →
      (∀ body content tail, Spells c body content → rest ≠ body ++ c :: tail) →
      Scans offset (c :: rest) ⟨[], .failure offset (.unterminatedString offset)⟩

theorem scanFrom_skip (skip offset : Nat) (cs : List Char) (h : skip ≤ cs.length) :
    scanFrom skip offset cs = scanFrom 0 (offset + skip) (cs.drop skip) := by
  induction cs generalizing skip offset with
  | nil =>
    obtain rfl : skip = 0 := Nat.le_zero.mp h
    rfl
  | cons c rest ih =>
    cases skip with
    | zero => rfl
    | succ skip =>
      rw [scanFrom, ih skip (offset + 1) (Nat.le_of_succ_le_succ h), List.drop_succ_cons]
      congr 1
      omega

theorem scanFrom_append {kind : TokenKind} {raw text tail : List Char} (offset : Nat)
    (h : Forms kind raw text) (hend : Ends kind raw tail) :
    scanFrom 0 offset (raw ++ tail) =
      ⟨⟨kind, offset, String.ofList text⟩ :: (scanFrom 0 (offset + raw.length) tail).tokens,
        (scanFrom 0 (offset + raw.length) tail).stop⟩ := by
  obtain ⟨c, rest, hsplit, hread⟩ := read_of_forms h hend
  have hpos : 0 < raw.length := List.length_pos_iff.mpr h.ne_nil
  have hlength : raw.length + tail.length = rest.length + 1 := by
    simpa using congrArg List.length hsplit
  have hrest : rest.drop (raw.length - 1) = tail := by
    have hdrop : (c :: rest).drop raw.length = tail := by
      rw [← hsplit, List.drop_left]
    rw [← hdrop, ← Nat.sub_add_cancel hpos, List.drop_succ_cons, Nat.add_sub_cancel]
  have hskip := scanFrom_skip (raw.length - 1) (offset + 1) rest (by omega)
  rw [hrest, show offset + 1 + (raw.length - 1) = offset + raw.length by omega] at hskip
  rw [hsplit, scanFrom]
  simp only [hread]
  rw [hskip]

theorem scanFrom_of_read {offset : Nat} {c : Char} {rest : List Char} {x : Lexeme}
    (h : Lexeme.read offset c rest = .ok x) :
    scanFrom 0 offset (c :: rest) =
      ⟨⟨x.kind, offset, String.ofList x.text⟩ ::
          (scanFrom 0 (offset + x.length) ((c :: rest).drop x.length)).tokens,
        (scanFrom 0 (offset + x.length) ((c :: rest).drop x.length)).stop⟩ := by
  obtain ⟨raw, tail, hsplit, hforms, hend, hlength⟩ := forms_of_read h
  rw [hsplit, scanFrom_append offset hforms hend, hlength, List.drop_left]

theorem scans_scanFrom (offset : Nat) (cs : List Char) :
    Scans offset cs (scanFrom 0 offset cs) := by
  -- Each lexeme takes at least one character, so the induction is on the length of the text.
  induction hn : cs.length using Nat.strongRecOn generalizing offset cs with
  | ind n ih =>
    subst hn
    cases cs with
    | nil => exact .ended
    | cons c rest =>
      cases hread : Lexeme.read offset c rest with
      | error e =>
        rw [scanFrom, hread]
        rcases error_of_read hread with ⟨hopen, rfl⟩ | ⟨hquote, rfl, hall⟩
        · exact .unrecognized hopen
        · exact .unterminated hquote hall
      | ok x =>
        obtain ⟨raw, tail, hsplit, hforms, hend, -⟩ := forms_of_read hread
        have hpos : 0 < raw.length := List.length_pos_iff.mpr hforms.ne_nil
        have hlength : (c :: rest).length = raw.length + tail.length := by
          rw [hsplit, List.length_append]
        rw [hsplit, scanFrom_append offset hforms hend]
        exact .token hforms hend (ih tail.length (by omega) _ _ rfl)

theorem Scans.forms {offset : Nat} {cs : List Char} {s : Scan} (h : Scans offset cs s) :
    ∀ t ∈ s.tokens, ∃ raw, Forms t.kind raw t.text.toList := by
  induction h with
  | @token offset kind raw text tail s hforms _ _ ih =>
    intro t ht
    rcases List.mem_cons.mp ht with rfl | ht
    · exact ⟨raw, String.toList_ofList.symm ▸ hforms⟩
    · exact ih t ht
  | _ => exact fun t ht => absurd ht List.not_mem_nil

/-! ## Where the tokens stand -/

/-- `shown` is how a source shows a token: a string stands between two equal quotes, in the spelling
that belongs to them, and everything else stands as it is. -/
def Token.ShownAs (t : Token) (shown : List Char) : Prop :=
  if t.kind = .string then
    ∃ quote body, isQuote quote = true ∧ shown = quote :: (body ++ [quote]) ∧
      Spells quote body t.text.toList
  else shown = t.text.toList

/-- A token that stops before the character `d` could not have been longer. -/
def Token.StopsBefore (t : Token) (d : Char) : Prop :=
  (t.kind = .identifier ∨ t.kind = .bool → isWordPart d = false) ∧
    (t.kind = .integer → d.isDigit = false ∧ d ≠ '.') ∧
    (t.kind = .whitespace → isBlank d = false)

/-- The token `t` reaches up to `u`, the next one. -/
structure Token.Reaches (source : List Char) (t u : Token) : Prop where
  shown : t.ShownAs (source.extract t.start u.start)
  maximal : ∀ d, source[u.start]? = some d → t.StopsBefore d

/-- The sequence of tokens is closed where the source ends or no lexeme is found. -/
def Stop.ClosesAt (source : List Char) : Stop → Prop
  | .endOfSource offset => offset = source.length
  | .failure offset error =>
    (∃ c, source[offset]? = some c ∧ ¬ Opens c ∧ error = .unrecognizedCharacter c offset) ∨
      (∃ quote, source[offset]? = some quote ∧ isQuote quote = true ∧
        error = .unterminatedString offset ∧
        ∀ body content tail, Spells quote body content →
          source.drop (offset + 1) ≠ body ++ quote :: tail)

/-- The tokens of `s`, the closing one included, divide the source from the character `start` on. -/
structure Partition (source : List Char) (start : Nat) (s : Scan) : Prop where
  first : s.all.head?.map Token.start = some start
  ascending : s.all.Pairwise (·.start < ·.start)
  inner : ∀ t ∈ s.tokens, t.kind ≠ .error ∧ t.kind ≠ .eof
  reaches : ∀ before t u after, s.all = before ++ t :: u :: after → t.Reaches source u
  closes : s.stop.ClosesAt source

theorem Lexeme.Forms.shownAs {kind : TokenKind} {raw text : List Char} (h : Forms kind raw text)
    (offset : Nat) : Token.ShownAs ⟨kind, offset, String.ofList text⟩ raw := by
  unfold Token.ShownAs
  rw [String.toList_ofList]
  cases h with
  | string hquote hspells => exact ⟨_, _, hquote, rfl, hspells⟩
  | symbol hmem =>
    have hkind := kind_of_mem_symbols hmem
    rw [if_neg (by rintro rfl; exact hkind (by decide))]
  | _ => rfl

theorem Lexeme.Ends.stopsBefore {kind : TokenKind} {raw tail : List Char} (h : Ends kind raw tail)
    {d : Char} (hd : tail.head? = some d) (offset : Nat) (text : String) :
    Token.StopsBefore ⟨kind, offset, text⟩ d := by
  have hd := h d hd
  refine ⟨?_, ?_, ?_⟩
  · rintro (rfl | rfl) <;> exact hd
  · rintro rfl
    simpa [continues] using hd
  · rintro rfl
    exact hd

/-- The closing token alone divides the source from where it stands. -/
theorem Partition.of_stop {source : List Char} {stop : Stop} (h : stop.ClosesAt source) :
    Partition source stop.token.start ⟨[], stop⟩ where
  first := rfl
  ascending := List.pairwise_singleton _ _
  inner := fun t ht => absurd ht List.not_mem_nil
  reaches := fun before t u after hsplit => by
    have hlength := congrArg List.length hsplit
    simp only [Scan.all, List.nil_append, List.length_append, List.length_cons,
      List.length_nil] at hlength
    omega
  closes := h

theorem Partition.le_start {source : List Char} {start : Nat} {s : Scan}
    (h : Partition source start s) : ∀ u ∈ s.all, start ≤ u.start := by
  have hfirst := h.first
  have hascending := h.ascending
  cases hall : s.all with
  | nil => simp [hall] at hfirst
  | cons t more =>
    rw [hall] at hfirst hascending
    obtain rfl : t.start = start := by simpa using hfirst
    intro u hu
    rcases List.mem_cons.mp hu with rfl | hu
    · exact Nat.le_refl _
    · exact Nat.le_of_lt ((List.pairwise_cons.mp hascending).1 u hu)

/-- A lexeme in front of a divided source divides it from further ahead. -/
theorem Partition.token {before raw text tail : List Char} {kind : TokenKind} {s : Scan}
    (hforms : Forms kind raw text) (hend : Ends kind raw tail)
    (h : Partition (before ++ (raw ++ tail)) (before.length + raw.length) s) :
    Partition (before ++ (raw ++ tail)) before.length
      ⟨⟨kind, before.length, String.ofList text⟩ :: s.tokens, s.stop⟩ where
  first := rfl
  ascending := by
    have hpos : 0 < raw.length := List.length_pos_iff.mpr hforms.ne_nil
    refine List.pairwise_cons.mpr ⟨fun u hu => ?_, h.ascending⟩
    have hle := h.le_start u hu
    exact Nat.lt_of_lt_of_le (Nat.lt_add_of_pos_right hpos) hle
  inner := by
    intro t ht
    rcases List.mem_cons.mp ht with rfl | ht
    · exact hforms.kind_ne
    · exact h.inner t ht
  reaches := by
    intro ahead t u after hsplit
    cases ahead with
    | nil =>
      -- The next token is the first one of the rest, and stands right behind the lexeme.
      obtain ⟨rfl, hall⟩ := List.cons.inj hsplit
      have hu : u.start = before.length + raw.length := by
        have hfirst := h.first
        rw [show s.all = u :: after from hall] at hfirst
        simpa using hfirst
      refine ⟨?_, fun d hd => ?_⟩
      · have hshown : (before ++ (raw ++ tail)).extract before.length u.start = raw := by
          rw [hu, List.extract_eq_take_drop, List.drop_left, Nat.add_sub_cancel_left,
            List.take_left]
        rw [hshown]
        exact hforms.shownAs _
      · rw [hu, ← List.append_assoc, ← List.length_append,
          List.getElem?_append_right (Nat.le_refl _), Nat.sub_self, ← List.head?_eq_getElem?] at hd
        exact hend.stopsBefore hd _ _
    | cons first ahead =>
      exact h.reaches ahead t u after (List.cons.inj hsplit).2
  closes := h.closes

/-- A reading divides the source from where it begins. -/
theorem Scans.partition {offset : Nat} {cs : List Char} {s : Scan} (h : Scans offset cs s) :
    ∀ before : List Char, before.length = offset → Partition (before ++ cs) offset s := by
  induction h with
  | ended =>
    rintro before rfl
    have hcloses : (Stop.endOfSource before.length).ClosesAt (before ++ []) := by
      simp [Stop.ClosesAt]
    exact .of_stop hcloses
  | @token offset kind raw text tail s hforms hend _ ih =>
    rintro before rfl
    have hrest := ih (before ++ raw) List.length_append
    rw [List.append_assoc] at hrest
    exact hrest.token hforms hend
  | @unrecognized offset c rest hopen =>
    rintro before rfl
    have hc : (before ++ c :: rest)[before.length]? = some c := by
      simp
    exact .of_stop (show (Stop.failure before.length _).ClosesAt _ from .inl ⟨c, hc, hopen, rfl⟩)
  | @unterminated offset c rest hquote hall =>
    rintro before rfl
    have hc : (before ++ c :: rest)[before.length]? = some c := by
      simp
    have hcloses : (Stop.failure before.length (.unterminatedString before.length)).ClosesAt
        (before ++ c :: rest) := by
      refine .inr ⟨c, hc, hquote, rfl, fun body content tail hspells => ?_⟩
      rw [List.drop_length_add_append]
      exact hall body content tail hspells
    exact .of_stop hcloses

theorem Scan.token_mem_all (s : Scan) : s.stop.token ∈ s.all :=
  List.mem_append_right _ (List.mem_singleton_self _)

theorem partition_scan (source : String) : Partition source.toList 0 (scan source) :=
  (scans_scanFrom 0 source.toList).partition [] rfl

/-! ## Tokens on demand -/

namespace TokenStream

theorem answer_ended (s : TokenStream) (h : s.ended = true) (n : Nat) : s.answer n = none := by
  have hnext : s.next = (none, s) := by
    rw [next, if_pos h]
  induction n with
  | zero => rw [answer, hnext]
  | succ n ih => rw [answer, hnext, ih]

/-- A stream hands out what a reading of its rest consists of. -/
theorem answer_eq (n offset : Nat) (cs : List Char) :
    (TokenStream.mk cs offset false).answer n = (scanFrom 0 offset cs).handed[n]? := by
  induction n generalizing offset cs with
  | zero =>
    rw [answer, next, if_neg Bool.false_ne_true]
    cases cs with
    | nil => rfl
    | cons c rest =>
      cases hread : Lexeme.read offset c rest with
      | error e =>
        rw [scanFrom]
        simp only [hread]
        rfl
      | ok x =>
        rw [scanFrom_of_read hread]
        simp only [hread]
        rfl
  | succ n ih =>
    rw [answer, next, if_neg Bool.false_ne_true]
    cases cs with
    | nil => exact answer_ended _ rfl n
    | cons c rest =>
      cases hread : Lexeme.read offset c rest with
      | error e =>
        rw [scanFrom]
        simp only [hread]
        exact answer_ended _ rfl n
      | ok x =>
        rw [scanFrom_of_read hread]
        simp only [hread]
        exact ih (offset + x.length) ((c :: rest).drop x.length)

end TokenStream

/-- The tokens that a stream hands out are those of the reading, then none, and they divide the
source. -/
theorem partition_source (source : String) :
    (∀ n, (TokenStream.ofSource source).answer n = (scan source).handed[n]?) ∧
      Partition source.toList 0 (scan source) := by
  constructor
  · intro n
    exact TokenStream.answer_eq n 0 source.toList
  · exact partition_scan source

end ExprLang
