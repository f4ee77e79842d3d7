import ExprLang.Proofs.Correspondence
import ExprLang.Proofs.Messages
import ExprLang.Proofs.Parse

/-!
# Blanks between tokens

Blanks part tokens and say nothing. A source with more blanks between its tokens is read as the same
words; and sources that are read as the same words are the same expression, or are refused for the same
reason, which may be found at another place.

Main statement: `parse_spaced`.
-/

namespace ExprLang

open Text Lexeme Grammar Reader

variable {V : Vocabulary}

/-! ## Sources that say the same -/

/-- The tokens that mean something, the closing one included. -/
def Scan.signs (s : Scan) : List Token := s.all.filter (·.kind ≠ .whitespace)

/-- An error without its place. -/
def ParseError.unplaced (err : ParseError) : ParseError := err.moved fun _ => 0

/-- Why the tokens stop before the source does, without the place. -/
def Stop.reason? (stop : Stop) : Option LexError := stop.error?.map (·.moved fun _ => 0)

/-- Two readings that differ in blanks and places only. -/
structure Scan.SaysAs (s s' : Scan) : Prop where
  words : s.words = s'.words
  reason : s.stop.reason? = s'.stop.reason?

theorem Stop.kind_token (stop : Stop) : stop.token.kind = .error ∨ stop.token.kind = .eof := by
  cases stop with
  | endOfSource => exact .inr rfl
  | failure => exact .inl rfl

theorem Scan.signs_eq (s : Scan) : s.signs = s.marks ++ [s.stop.token] := by
  have hkind : s.stop.token.kind ≠ .whitespace := by
    rcases s.stop.kind_token with h | h
    · rw [h]
      exact TokenKind.noConfusion
    · rw [h]
      exact TokenKind.noConfusion
  rw [signs, all, List.filter_append, marks]
  simp [hkind]

/-- What the reader makes of the words does not depend on where they stand. -/
theorem ofScan_of_saysAs (r : Registry V) {s s' : Scan} (h : s.SaysAs s') :
    (Expr.ofScan r s).mapError ParseError.unplaced =
      (Expr.ofScan r s').mapError ParseError.unplaced := by
  have hplace (s : Scan) : s.marks.map (·.moved fun _ => 0) =
      s.words.map fun w => ⟨w.kind, 0, w.text⟩ := by
    rw [Scan.words, List.map_map]
    rfl
  have hstop : s.stop.moved (fun _ => 0) = s'.stop.moved fun _ => 0 := by
    have hreason := h.reason
    cases hs : s.stop with
    | endOfSource offset =>
      cases hs' : s'.stop with
      | endOfSource offset' => rfl
      | failure offset' e' =>
        rw [hs, hs'] at hreason
        cases hreason
    | failure offset e =>
      cases hs' : s'.stop with
      | endOfSource offset' =>
        rw [hs, hs'] at hreason
        cases hreason
      | failure offset' e' =>
        rw [hs, hs'] at hreason
        exact congrArg (Stop.failure 0) (Option.some.inj hreason)
  show (Expr.ofTokens r s.marks s.stop).mapError (·.moved fun _ => 0) =
    (Expr.ofTokens r s'.marks s'.stop).mapError (·.moved fun _ => 0)
  rw [← ofTokens_moved, ← ofTokens_moved, hplace, hplace, h.words, hstop]

/-- Signs of the same kinds and texts say the same, whatever error closes them: its place is part of the
text. -/
theorem Scan.saysAs_of_signs {s s' : Scan}
    (h : s.signs.map Token.word = s'.signs.map Token.word) : s.SaysAs s' := by
  rw [signs_eq, signs_eq, List.map_append, List.map_append] at h
  obtain ⟨hwords, hlast⟩ := List.append_inj' h rfl
  refine ⟨hwords, ?_⟩
  have hlast : s.stop.token.word = s'.stop.token.word := List.singleton_inj.mp hlast
  cases hs : s.stop with
  | endOfSource offset =>
    cases hs' : s'.stop with
    | endOfSource offset' => rfl
    | failure offset' e' =>
      rw [hs, hs'] at hlast
      cases congrArg Word.kind hlast
  | failure offset e =>
    cases hs' : s'.stop with
    | endOfSource offset' =>
      rw [hs, hs'] at hlast
      cases congrArg Word.kind hlast
    | failure offset' e' =>
      rw [hs, hs'] at hlast
      rw [LexError.message_injective (congrArg Word.text hlast)]
      rfl

/-! ## Blanks and lexemes -/

theorem Lexeme.continues_of_isBlank {kind : TokenKind} {raw text : List Char}
    (h : Forms kind raw text) (hkind : kind ≠ .whitespace) {d : Char} (hd : isBlank d = true) :
    continues kind raw d = false := by
  cases h with
  | whitespace => exact absurd rfl hkind
  | identifier | bool => exact isWordPart_of_isBlank hd
  | integer =>
    have hpoint : d ≠ '.' := by
      rintro rfl
      cases hd
    simp [continues, isDigit_of_isBlank hd, hpoint]
  | float => exact isDigit_of_isBlank hd
  | string => rfl
  | symbol hmem =>
    have hall : (symbols.flatMap (·.1)).all fun c => !isBlank c := by
      decide
    rw [continues_symbol hmem, List.any_eq_false]
    intro p hp heq
    have hlast : d ∈ symbols.flatMap (·.1) :=
      List.mem_flatMap.mpr ⟨p, hp, by simp [of_decide_eq_true heq]⟩
    have hblank := List.all_eq_true.mp hall d hlast
    rw [hd] at hblank
    cases hblank

theorem Lexeme.Forms.of_whitespace {raw text : List Char} (h : Forms .whitespace raw text) :
    text = raw ∧ ∀ c ∈ raw, isBlank c = true := by
  cases h with
  | whitespace _ hblank => exact ⟨rfl, hblank⟩
  | symbol hmem => exact absurd (kind_of_mem_symbols hmem) (by decide)

/-! ## Blanks put between tokens -/

/-- The places where no lexeme but blanks stands on both sides: where a token starts, and inside
blanks. -/
def Scan.IsBoundary (s : Scan) (i : Nat) : Prop :=
  ∃ t ∈ s.all, t.start = i ∨ t.kind = .whitespace ∧ t.start < i ∧ i < t.start + t.text.length

/-- The characters `cs`, which stand at `offset`, with `blanks i` before the place `i`. -/
def spread (blanks : Nat → List Char) (offset : Nat) : List Char → List Char
  | [] => blanks offset
  | c :: rest => blanks offset ++ c :: spread blanks (offset + 1) rest

/-- Blanks to be put into a source between its tokens, before the first one and behind the last one. -/
structure Spacing (source : String) where
  blanks : Nat → List Char
  blank : ∀ i, ∀ c ∈ blanks i, isBlank c = true
  placed : ∀ i, blanks i ≠ [] → i = source.length ∨ (scan source).IsBoundary i

def Spacing.apply {source : String} (spacing : Spacing source) : String :=
  String.ofList (spread spacing.blanks 0 source.toList)

variable {blanks : Nat → List Char}

theorem Scan.isBoundary_cons {t : Token} {tokens : List Token} {stop : Stop} {i : Nat}
    (h : Scan.IsBoundary ⟨t :: tokens, stop⟩ i) :
    t.start = i ∨ (t.kind = .whitespace ∧ i < t.start + t.text.length) ∨
      Scan.IsBoundary ⟨tokens, stop⟩ i := by
  obtain ⟨u, hu, hplace⟩ := h
  rcases List.mem_cons.mp hu with rfl | hu
  · rcases hplace with hstart | ⟨hkind, -, hinside⟩
    · exact .inl hstart
    · exact .inr (.inl ⟨hkind, hinside⟩)
  · exact .inr (.inr ⟨u, hu, hplace⟩)

theorem Scans.le_of_isBoundary {offset i : Nat} {cs : List Char} {s : Scan}
    (h : Scans offset cs s) (hi : s.IsBoundary i) : offset ≤ i := by
  obtain ⟨t, ht, hplace⟩ := hi
  have hle := (h.partition (List.replicate offset ' ') List.length_replicate).le_start t ht
  omega

theorem spread_append {offset : Nat} {raw : List Char}
    (h : ∀ i, offset ≤ i → i < offset + raw.length → blanks i = []) (tail : List Char) :
    spread blanks offset (raw ++ tail) = raw ++ spread blanks (offset + raw.length) tail := by
  induction raw generalizing offset with
  | nil => rfl
  | cons c raw ih =>
    rw [List.length_cons] at h ⊢
    rw [List.cons_append, spread, h offset (Nat.le_refl _) (by omega), List.nil_append,
      ih fun i hlow hhigh => h i (by omega) (by omega), List.cons_append,
      show offset + 1 + raw.length = offset + (raw.length + 1) by omega]

theorem exists_spread_of_isBlank (hblank : ∀ i, ∀ c ∈ blanks i, isBlank c = true) (offset : Nat)
    {raw : List Char} (hraw : ∀ c ∈ raw, isBlank c = true) (tail : List Char) :
    ∃ gap, spread blanks offset (raw ++ tail) = gap ++ spread blanks (offset + raw.length) tail ∧
      ∀ c ∈ gap, isBlank c = true := by
  induction raw generalizing offset with
  | nil => exact ⟨[], rfl, fun c hc => absurd hc List.not_mem_nil⟩
  | cons c raw ih =>
    obtain ⟨gap, hgap, hall⟩ := ih (offset + 1) fun d hd => hraw d (List.mem_cons_of_mem _ hd)
    refine ⟨blanks offset ++ c :: gap, ?_, fun d hd => ?_⟩
    · rw [List.cons_append, spread, hgap, List.length_cons, List.append_assoc, List.cons_append,
        show offset + 1 + raw.length = offset + (raw.length + 1) by omega]
    · rcases List.mem_append.mp hd with hd | hd
      · exact hblank offset d hd
      rcases List.mem_cons.mp hd with rfl | hd
      · exact hraw d List.mem_cons_self
      · exact hall d hd

theorem head?_spread (hblank : ∀ i, ∀ c ∈ blanks i, isBlank c = true) {offset : Nat}
    {cs : List Char} {d : Char} (hd : d ∈ (spread blanks offset cs).head?) :
    isBlank d = true ∨ d ∈ cs.head? := by
  cases hgap : blanks offset with
  | nil =>
    cases cs with
    | nil =>
      rw [spread, hgap] at hd
      cases hd
    | cons c rest =>
      rw [spread, hgap] at hd
      exact .inr hd
  | cons b more =>
    have hb : isBlank b = true := hblank offset b (by rw [hgap]; exact List.mem_cons_self)
    cases cs with
    | nil =>
      rw [spread, hgap] at hd
      cases hd
      exact .inl hb
    | cons c rest =>
      rw [spread, hgap] at hd
      cases hd
      exact .inl hb

theorem Lexeme.Ends.spread (hblank : ∀ i, ∀ c ∈ blanks i, isBlank c = true) {kind : TokenKind}
    {raw text tail : List Char} (hforms : Forms kind raw text) (hkind : kind ≠ .whitespace)
    (hend : Ends kind raw tail) (offset : Nat) : Ends kind raw (spread blanks offset tail) := by
  intro d hd
  rcases head?_spread hblank hd with hd | hd
  · exact continues_of_isBlank hforms hkind hd
  · exact hend d hd

theorem scanFrom_gap {gap : List Char} (hgap : ∀ c ∈ gap, isBlank c = true) (offset : Nat)
    (tail : List Char) : (scanFrom 0 offset (gap ++ tail)).SaysAs
      (scanFrom 0 (offset + gap.length) tail) := by
  obtain ⟨hwords, herror⟩ := writes_gap hgap offset tail fun _ _ => trivial
  exact ⟨hwords, congrArg (Option.map (LexError.moved fun _ => 0)) herror⟩

theorem Scan.SaysAs.trans {s s' s'' : Scan} (h : s.SaysAs s') (h' : s'.SaysAs s'') :
    s.SaysAs s'' := ⟨h.words.trans h'.words, h.reason.trans h'.reason⟩

theorem unterminated_append {c : Char} {rest gap : List Char} (hquote : isQuote c = true)
    (h : ∀ body content tail, Spells c body content → rest ≠ body ++ c :: tail)
    (hgap : ∀ d ∈ gap, isBlank d = true) :
    ∀ body content tail, Spells c body content → rest ++ gap ≠ body ++ c :: tail := by
  have hout : c ∉ gap := by
    intro hc
    have hblank := hgap c hc
    rw [(apart_of_isQuote hquote).1] at hblank
    cases hblank
  intro body content tail hspells heq
  rcases List.append_eq_append_iff.mp heq with ⟨more, -, htail⟩ | ⟨more, hrest, htail⟩
  · exact hout (htail ▸ List.mem_append_right _ List.mem_cons_self)
  · cases more with
    | nil =>
      rw [List.nil_append] at htail
      exact hout (htail ▸ List.mem_cons_self)
    | cons d more =>
      obtain rfl : c = d := (List.cons.inj htail).1
      exact h body content more hspells hrest

/-- A lexeme with blanks in front of it only. -/
theorem spread_lexeme {offset : Nat} {c : Char} {more : List Char}
    (h : ∀ i, offset < i → i < offset + (c :: more).length → blanks i = []) (tail : List Char) :
    spread blanks offset (c :: more ++ tail) =
      blanks offset ++ (c :: more ++ spread blanks (offset + (c :: more).length) tail) := by
  rw [List.cons_append, spread, List.length_cons] at *
  rw [spread_append fun i hlow hhigh => h i hlow (by omega), List.cons_append,
    show offset + 1 + more.length = offset + (more.length + 1) by omega]

/-- Blanks are put into `cs`, which is read as `s` from `offset` on, at its end and between its tokens
only. -/
def Scan.Admits (s : Scan) (blanks : Nat → List Char) (offset : Nat) (cs : List Char) : Prop :=
  ∀ i, blanks i ≠ [] → i < offset ∨ i = offset + cs.length ∨ s.IsBoundary i

section Admits

variable {offset : Nat} {kind : TokenKind} {raw text tail : List Char} {s : Scan}

theorem Scan.Admits.later (hforms : Forms kind raw text)
    (h : Scan.Admits ⟨⟨kind, offset, String.ofList text⟩ :: s.tokens, s.stop⟩ blanks offset
      (raw ++ tail)) : s.Admits blanks (offset + raw.length) tail := by
  have hpos : 0 < raw.length := List.length_pos_iff.mpr hforms.ne_nil
  intro i hi
  rcases h i hi with hbefore | hlast | hboundary
  · exact .inl (by omega)
  · rw [List.length_append] at hlast
    exact .inr (.inl (by omega))
  rcases Scan.isBoundary_cons hboundary with hstart | ⟨hkind, hinside⟩ | hboundary
  · have hstart : offset = i := hstart
    exact .inl (by omega)
  · obtain rfl : kind = .whitespace := hkind
    rw [hforms.of_whitespace.1] at hinside
    exact .inl (by simpa using hinside)
  · exact .inr (.inr hboundary)

theorem Scan.Admits.eq_nil_of_token (hkind : kind ≠ .whitespace)
    (hscans : Scans (offset + raw.length) tail s)
    (h : Scan.Admits ⟨⟨kind, offset, String.ofList text⟩ :: s.tokens, s.stop⟩ blanks offset
      (raw ++ tail)) : ∀ i, offset < i → i < offset + raw.length → blanks i = [] := by
  intro i hlow hhigh
  by_contra hi
  rcases h i hi with hbefore | hlast | hboundary
  · omega
  · rw [List.length_append] at hlast
    omega
  rcases Scan.isBoundary_cons hboundary with hstart | ⟨hblanks, -⟩ | hboundary
  · have hstart : offset = i := hstart
    omega
  · exact hkind hblanks
  · have hle := hscans.le_of_isBoundary hboundary
    omega

theorem Scan.Admits.eq_nil_of_failure {e : LexError} {cs : List Char}
    (h : Scan.Admits ⟨[], .failure offset e⟩ blanks offset cs) :
    ∀ i, offset < i → i < offset + cs.length → blanks i = [] := by
  intro i hlow hhigh
  by_contra hi
  rcases h i hi with hbefore | hlast | ⟨t, ht, hplace⟩
  · omega
  · omega
  obtain rfl := List.mem_singleton.mp ht
  rcases hplace with hstart | ⟨hkind, -⟩
  · have hstart : offset = i := hstart
    omega
  · cases hkind

end Admits

/-- A text says the same with more blanks between its tokens. -/
theorem Scans.saysAs_spread (hblank : ∀ i, ∀ c ∈ blanks i, isBlank c = true) {offset : Nat}
    {cs : List Char} {s : Scan} (h : Scans offset cs s) (hadmits : s.Admits blanks offset cs) :
    ∀ place, (scanFrom 0 place (spread blanks offset cs)).SaysAs s := by
  induction h with
  | @ended offset =>
    intro place
    have hgap := scanFrom_gap (hblank offset) place []
    rw [List.append_nil, scanFrom] at hgap
    exact hgap.trans ⟨rfl, rfl⟩
  | @token offset kind raw text tail s hforms hend hscans ih =>
    intro place
    have hrest := ih (hadmits.later hforms)
    by_cases hkind : kind = .whitespace
    · subst hkind
      obtain ⟨gap, hgap, hall⟩ :=
        exists_spread_of_isBlank hblank offset hforms.of_whitespace.2 tail
      rw [hgap]
      have hsays := (scanFrom_gap hall place _).trans (hrest _)
      exact hsays.trans ⟨(Scan.words_whitespace _ _ _ _).symm, rfl⟩
    · have hinside := hadmits.eq_nil_of_token hkind hscans
      obtain ⟨c, more, rfl⟩ := List.exists_cons_of_ne_nil hforms.ne_nil
      rw [spread_lexeme hinside]
      refine (scanFrom_gap (hblank offset) place _).trans ?_
      rw [scanFrom_append _ hforms (hend.spread hblank hforms hkind _)]
      obtain ⟨hwords, hreason⟩ := hrest (place + (blanks offset).length + (c :: more).length)
      refine ⟨?_, hreason⟩
      rw [Scan.words_cons hkind, Scan.words_cons hkind]
      exact congrArg _ hwords
  | @unrecognized offset c rest hopen =>
    intro place
    rw [spread]
    refine (scanFrom_gap (hblank offset) place _).trans ?_
    rw [scanFrom]
    simp only [read_of_not_opens hopen]
    exact ⟨rfl, rfl⟩
  | @unterminated offset c rest hquote hall =>
    intro place
    have hspread := spread_lexeme hadmits.eq_nil_of_failure []
    rw [List.append_nil] at hspread
    rw [hspread, spread]
    refine (scanFrom_gap (hblank offset) place _).trans ?_
    rw [List.cons_append, scanFrom]
    simp only [read_of_unterminated hquote (unterminated_append hquote hall (hblank _))]
    exact ⟨rfl, rfl⟩

theorem Spacing.saysAs {source : String} (spacing : Spacing source) :
    (scan spacing.apply).SaysAs (scan source) := by
  unfold scan apply
  rw [String.toList_ofList]
  refine (scans_scanFrom 0 source.toList).saysAs_spread spacing.blank (fun i hi => .inr ?_) 0
  rw [String.length_toList, Nat.zero_add]
  exact spacing.placed i hi

theorem eq_ok_iff_of_mapError_eq {ε ε' α : Type} {x y : Except ε α} {g : ε → ε'}
    (h : x.mapError g = y.mapError g) (a : α) : x = .ok a ↔ y = .ok a := by
  cases x with
  | ok b =>
    cases y with
    | ok c =>
      cases h
      exact Iff.rfl
    | error => cases h
  | error =>
    cases y with
    | ok => cases h
    | error => exact iff_of_false nofun nofun

/-- Blanks between tokens do not tell which expression a source is. Sources whose tokens, blanks apart,
have the same kinds and texts are one expression or are refused for one reason, which may be found at
different places. -/
theorem parse_spaced (r : Registry V) :
    (∀ (source : String) (spacing : Spacing source),
      (∀ e, Expr.parse r spacing.apply = .ok e ↔ Expr.parse r source = .ok e) ∧
      (Expr.parse r spacing.apply).mapError ParseError.unplaced =
        (Expr.parse r source).mapError ParseError.unplaced) ∧
    ∀ source other : String,
      (scan source).signs.map Token.word = (scan other).signs.map Token.word →
      (Expr.parse r source).mapError ParseError.unplaced =
        (Expr.parse r other).mapError ParseError.unplaced := by
  constructor
  · intro source spacing
    have hsame := ofScan_of_saysAs r spacing.saysAs
    exact ⟨eq_ok_iff_of_mapError_eq hsame, hsame⟩
  · intro source other h
    exact ofScan_of_saysAs r (Scan.saysAs_of_signs h)

/-- A gap before each token and at the end. -/
def Spacing.wide (source : String) (gap : List Char) (h : gap.all isBlank = true) :
    Spacing source where
  blanks i := if i = source.length ∨ ∃ t ∈ (scan source).all, t.start = i then gap else []
  blank := by
    intro i c hc
    split at hc
    · exact List.all_eq_true.mp h c hc
    · exact absurd hc List.not_mem_nil
  placed := by
    intro i hi
    split at hi
    · rename_i hplace
      exact hplace.imp_right fun ⟨t, ht, hstart⟩ => ⟨t, ht, .inl hstart⟩
    · exact absurd rfl hi

/-- A call of a method with a gap at each place, and one that is not closed, written in two ways. -/
theorem parse_spaced_wide :
    let r : Registry Vocabulary.empty := .empty
    let spacing := Spacing.wide "x.f('(')" ['\t', ' '] rfl
    spacing.apply = "\t x\t .\t f\t (\t '('\t )\t " ∧
      Expr.parse r spacing.apply = .ok (.method (.lookup "x") "f" [.literal (.string "(")] 0) ∧
      (scan "x.f(y").signs.map Token.word = (scan "x . f( y").signs.map Token.word ∧
      (Expr.parse r "x.f(y").mapError ParseError.unplaced =
        (Expr.parse r "x . f( y").mapError ParseError.unplaced ∧
      Expr.parse r "x.f(y" = .error (.unclosedParenthesis "f" 2) ∧
      Expr.parse r "x . f( y" = .error (.unclosedParenthesis "f" 4) := by
  intro r spacing
  have hread : Expr.parse r "x.f('(')" =
      .ok (.method (.lookup "x") "f" [.literal (.string "(")] 0) := by
    have hcall : IsChain r [⟨.identifier, "x"⟩, ⟨.separator, "."⟩, ⟨.identifier, "f"⟩,
        ⟨.leftParenthesis, "("⟩, ⟨.string, "("⟩, ⟨.rightParenthesis, ")"⟩]
        (.method (.lookup "x") "f" [.literal (.string "(")] 0) :=
      .method .lookup (.some (.one (.operand (.chain (.literal .string))))) .absent
    exact parse_of_words (by decide +kernel) (by decide +kernel) (.operand (.chain hcall))
  have hsigns : (scan "x.f(y").signs.map Token.word = (scan "x . f( y").signs.map Token.word := by
    decide +kernel
  refine ⟨by decide +kernel, ?_, hsigns, (parse_spaced r).2 _ _ hsigns, ?_, ?_⟩
  · exact (((parse_spaced r).1 _ spacing).1 _).mpr hread
  · exact map_eq_error_iff.mp (show (Expr.parse r "x.f(y").map (fun _ => ()) = _ by decide +kernel)
  · exact map_eq_error_iff.mp
      (show (Expr.parse r "x . f( y").map (fun _ => ()) = _ by decide +kernel)

end ExprLang
