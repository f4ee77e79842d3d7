import ExprLang.Proofs.Decimal
import ExprLang.Proofs.Grammar
import ExprLang.Proofs.TokenStream

/-!
# Text that is read as given words

`Writes p cs ws` says that the characters `cs` are read as the words `ws`, whatever stands in front of
them, and whatever stands behind them as long as it begins with a character in `p`. Texts are put
together from such pieces by `Writes.append`; the pieces are the lexemes that a rendering consists of.
-/

namespace ExprLang

open Text Lexeme

/-! ## Words of a text -/

/-- The first character is in `p`. -/
def Begins (p : Char → Prop) (cs : List Char) : Prop := ∃ c rest, cs = c :: rest ∧ p c

/-- In front of a character in `p`, the characters `cs` are read as the words `ws`. -/
def Writes (p : Char → Prop) (cs : List Char) (ws : List Word) : Prop :=
  ∀ offset tail, (∀ d ∈ tail.head?, p d) →
    (scanFrom 0 offset (cs ++ tail)).words =
        ws ++ (scanFrom 0 (offset + cs.length) tail).words ∧
      (scanFrom 0 offset (cs ++ tail)).stop.error? =
        (scanFrom 0 (offset + cs.length) tail).stop.error?

variable {p q : Char → Prop} {cs cs' : List Char} {ws ws' : List Word}

theorem begins_cons {c : Char} (hc : p c) (rest : List Char) : Begins p (c :: rest) :=
  ⟨c, rest, rfl, hc⟩

theorem Begins.append (h : Begins p cs) (cs' : List Char) : Begins p (cs ++ cs') := by
  obtain ⟨c, rest, rfl, hc⟩ := h
  exact begins_cons hc (rest ++ cs')

theorem Begins.mono (h : Begins p cs) (hp : ∀ c, p c → q c) : Begins q cs := by
  obtain ⟨c, rest, rfl, hc⟩ := h
  exact begins_cons (hp c hc) rest

theorem begins_of_ne_nil (h : cs ≠ []) : Begins (fun _ => True) cs := by
  obtain ⟨c, rest, rfl⟩ := List.exists_cons_of_ne_nil h
  exact begins_cons trivial rest

theorem Scan.words_cons {kind : TokenKind} (hkind : kind ≠ .whitespace) (offset : Nat)
    (text : String) (tokens : List Token) (stop : Stop) :
    Scan.words ⟨⟨kind, offset, text⟩ :: tokens, stop⟩ =
      ⟨kind, text⟩ :: Scan.words ⟨tokens, stop⟩ := by
  simp [Scan.words, Scan.marks, Token.word, hkind]

theorem Scan.words_whitespace (offset : Nat) (text : String) (tokens : List Token) (stop : Stop) :
    Scan.words ⟨⟨.whitespace, offset, text⟩ :: tokens, stop⟩ = Scan.words ⟨tokens, stop⟩ := by
  simp [Scan.words, Scan.marks]

theorem Writes.mono (h : Writes p cs ws) (hp : ∀ d, q d → p d) : Writes q cs ws := by
  intro offset tail htail
  exact h offset tail fun d hd => hp d (htail d hd)

theorem Writes.append (h : Writes p cs ws) (h' : Writes q cs' ws')
    (hbegins : Begins p cs') : Writes q (cs ++ cs') (ws ++ ws') := by
  intro offset tail htail
  obtain ⟨c, rest, rfl, hc⟩ := hbegins
  -- Behind the first text stands the second one, whose first character it can bear.
  have hfirst := h offset (c :: rest ++ tail) <| by
    rintro d ⟨⟩
    exact hc
  have hsecond := h' (offset + cs.length) tail htail
  rw [List.append_assoc, List.length_append, ← Nat.add_assoc]
  constructor
  · rw [hfirst.1, hsecond.1, List.append_assoc]
  · rw [hfirst.2, hsecond.2]

theorem scan_of_writes {source : String} (h : Writes p source.toList ws) :
    (scan source).words = ws ∧ (scan source).stop.error? = none := by
  have h := h 0 [] fun d hd => by cases hd
  rw [List.append_nil] at h
  have hnil : (scanFrom 0 (0 + source.toList.length) []).words = [] := by
    rw [scanFrom]
    rfl
  rw [hnil, List.append_nil] at h
  refine ⟨h.1, h.2.trans ?_⟩
  rw [scanFrom]
  rfl

/-! ## The pieces -/

theorem writes_lexeme {kind : TokenKind} {raw text : List Char} (h : Forms kind raw text)
    (hkind : kind ≠ .whitespace) (hp : ∀ d, p d → continues kind raw d = false) :
    Writes p raw [⟨kind, String.ofList text⟩] := by
  intro offset tail htail
  rw [scanFrom_append offset h fun d hd => hp d (htail d hd)]
  exact ⟨Scan.words_cons hkind _ _ _ _, rfl⟩

theorem writes_blanks {blanks : List Char} (h : ∀ c ∈ blanks, isBlank c = true) :
    Writes (isBlank · = false) blanks [] := by
  intro offset tail htail
  by_cases hne : blanks = []
  · subst hne
    exact ⟨rfl, rfl⟩
  · rw [scanFrom_append offset (.whitespace hne h) htail]
    exact ⟨Scan.words_whitespace _ _ _ _, rfl⟩

/-- Blanks may stand in front of anything: more blanks are read with them. -/
theorem writes_gap {gap : List Char} (h : ∀ c ∈ gap, isBlank c = true) :
    Writes (fun _ => True) gap [] := by
  intro offset tail _
  obtain ⟨blanks, rest, rfl, hblanks, hrest⟩ : ∃ blanks rest, tail = blanks ++ rest ∧
      (∀ c ∈ blanks, isBlank c = true) ∧ ∀ d ∈ rest.head?, isBlank d = false :=
    ⟨_, _, List.takeWhile_append_dropWhile.symm, List.all_eq_true.mp List.all_takeWhile,
      ends_dropWhile isBlank tail⟩
  have hmore : ∀ c ∈ gap ++ blanks, isBlank c = true := by
    intro c hc
    rcases List.mem_append.mp hc with hc | hc
    · exact h c hc
    · exact hblanks c hc
  have hwith := writes_blanks hmore offset rest hrest
  have halone := writes_blanks hblanks (offset + gap.length) rest hrest
  rw [List.append_assoc, List.length_append, ← Nat.add_assoc] at hwith
  exact ⟨hwith.1.trans halone.1.symm, hwith.2.trans halone.2.symm⟩

theorem writes_blank : Writes (fun _ => True) [' '] [] := by
  refine writes_gap fun c hc => ?_
  rw [List.mem_singleton.mp hc]
  rfl

theorem writes_identifier {name : String} (h : IsIdentifier name) :
    Writes (isWordPart · = false) name.toList [⟨.identifier, name⟩] := by
  have hwrites := writes_lexeme (.identifier h.1 h.2) TokenKind.noConfusion fun d hd => hd
  rwa [String.ofList_toList] at hwrites

theorem begins_identifier {name : String} (h : IsIdentifier name) :
    Begins (isAlphabetic · = true) name.toList := by
  obtain ⟨⟨c, rest, heq, hc, -⟩, -⟩ := h
  exact ⟨c, rest, heq, hc⟩

theorem writes_bool (b : Bool) : Writes (isWordPart · = false)
    (if b then "true" else "false").toList [⟨.bool, if b then "true" else "false"⟩] := by
  cases b with
  | true => exact writes_lexeme (.bool (.inl rfl)) TokenKind.noConfusion fun d hd => hd
  | false => exact writes_lexeme (.bool (.inr rfl)) TokenKind.noConfusion fun d hd => hd

theorem toList_toString (n : Nat) : (toString n).toList = Nat.toDigits 10 n := by
  rw [Nat.toString_eq_ofList_toDigits, String.toList_ofList]

theorem isDigit_toString (n : Nat) : ∀ c ∈ (toString n).toList, c.isDigit = true := by
  rw [toList_toString]
  exact fun c hc => Nat.isDigit_of_mem_toDigits (by decide) (by decide) hc

theorem toString_ne_nil (n : Nat) : (toString n).toList ≠ [] := by
  rw [toList_toString]
  exact Nat.toDigits_ne_nil

theorem numeral_toString (n : Nat) : Grammar.numeral (toString n) = n := by
  rw [Grammar.numeral, toList_toString]
  exact Nat.ofDigitChars_ten_toDigits

theorem writes_digits (hne : cs ≠ []) (h : ∀ c ∈ cs, c.isDigit = true) :
    Writes (fun d => d.isDigit = false ∧ d ≠ '.') cs [⟨.integer, String.ofList cs⟩] :=
  writes_lexeme (.integer hne h) TokenKind.noConfusion fun d hd => by simp [continues, hd]

theorem writes_integer (n : Nat) : Writes (fun d => d.isDigit = false ∧ d ≠ '.')
    (toString n).toList [⟨.integer, toString n⟩] := by
  have hwrites := writes_digits (toString_ne_nil n) (isDigit_toString n)
  rwa [String.ofList_toList] at hwrites

theorem writes_float {whole fraction : List Char} (h : Decimal.Shows cs whole fraction) :
    Writes (·.isDigit = false) cs [⟨.float, String.ofList cs⟩] := by
  obtain ⟨rfl, hne, hwhole, hfraction⟩ := h
  exact writes_lexeme (.float hne hwhole hfraction) TokenKind.noConfusion fun d hd => hd

theorem writes_string (s : String) :
    Writes (fun _ => True) (Text.literal s).toList [⟨.string, s⟩] := by
  have hwrites := writes_lexeme (p := fun _ => True) (forms_literal s) TokenKind.noConfusion
    fun d _ => rfl
  rwa [String.ofList_toList] at hwrites

/-- The symbols of one character that no longer symbol begins with. -/
def marks : List (Char × TokenKind) :=
  [('.', .separator), (',', .delimiter), ('(', .leftParenthesis), (')', .rightParenthesis),
    ('[', .leftIndex), (']', .rightIndex), ('\x7b', .leftResultIndex), ('\x7d', .rightResultIndex),
    ('#', .allValues)]

theorem writes_symbol {raw : List Char} {kind : TokenKind} (h : (raw, kind) ∈ symbols) :
    Writes (fun d => symbols.any (·.1 = raw ++ [d]) = false) raw [⟨kind, String.ofList raw⟩] := by
  have hkind : kind ≠ .whitespace := by
    rintro rfl
    exact kind_of_mem_symbols h (by decide)
  refine writes_lexeme (.symbol h) hkind fun d hd => ?_
  rwa [continues_symbol h]

theorem writes_mark {c : Char} {kind : TokenKind} (h : (c, kind) ∈ marks) :
    Writes (fun _ => True) [c] [⟨kind, String.ofList [c]⟩] := by
  have hall : marks.all fun m => symbols.contains ([m.1], m.2) &&
      symbols.all fun p => p.1.head? != some m.1 || p.1.length == 1 := by
    decide +kernel
  have hmark := List.all_eq_true.mp hall _ h
  rw [Bool.and_eq_true] at hmark
  have hmem : ([c], kind) ∈ symbols := List.contains_iff_mem.mp hmark.1
  refine (writes_symbol hmem).mono fun d _ => ?_
  rw [List.any_eq_false]
  intro p hp heq
  have hlone := List.all_eq_true.mp hmark.2 p hp
  rw [of_decide_eq_true heq] at hlone
  exact absurd hlone (by simp)

theorem Writes.enclosed {c d : Char} {kind kind' : TokenKind} (hleft : (c, kind) ∈ marks)
    (hright : (d, kind') ∈ marks) (h : Writes p cs ws) (hd : p d)
    (hbegins : Begins (fun _ => True) cs) :
    Writes (fun _ => True) (c :: (cs ++ [d]))
      (⟨kind, String.ofList [c]⟩ :: (ws ++ [⟨kind', String.ofList [d]⟩])) := by
  have hinner := h.append (writes_mark hright) (begins_cons hd [])
  exact (writes_mark hleft).append hinner (hbegins.append [d])

theorem Writes.parenthesized (h : Writes p cs ws) (hp : p ')')
    (hbegins : Begins (fun _ => True) cs) :
    Writes (fun _ => True) ('(' :: (cs ++ [')']))
      (⟨.leftParenthesis, "("⟩ :: (ws ++ [⟨.rightParenthesis, ")"⟩])) :=
  .enclosed (by decide) (by decide) h hp hbegins

theorem writes_resultIndex (index : Nat) :
    Writes (fun _ => True) ('\x7b' :: ((toString index).toList ++ ['\x7d']))
      [⟨.leftResultIndex, "\x7b"⟩, ⟨.integer, toString index⟩, ⟨.rightResultIndex, "\x7d"⟩] :=
  .enclosed (by decide) (by decide) (writes_integer index) (by decide)
    (begins_of_ne_nil (toString_ne_nil index))

theorem isIndex_resultIndex {index : Nat} (h : index < 2 ^ 64) : Grammar.IsIndex
    [⟨.leftResultIndex, "\x7b"⟩, ⟨.integer, toString index⟩, ⟨.rightResultIndex, "\x7d"⟩] index := by
  have hpresent : Grammar.IsIndex [⟨.leftResultIndex, "\x7b"⟩, ⟨.integer, toString index⟩,
      ⟨.rightResultIndex, "\x7d"⟩] (Grammar.numeral (toString index)) :=
    .present (by rwa [numeral_toString])
  rwa [numeral_toString] at hpresent

end ExprLang
