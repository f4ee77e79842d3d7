import ExprLang.Proofs.Characters
import ExprLang.Proofs.Literal
import Mathlib.Data.List.Basic

/-!
# Lexemes

What a lexeme of each kind looks like, said without saying how it is read: `Forms kind raw text`
relates the characters of a lexeme to its text, and `Ends kind raw tail` says that what follows does
not go on with it. `Lexeme.read` takes exactly the lexeme that ends before the rest of the source, and
fails exactly where no lexeme begins or a literal stays open.

Main statements: `forms_of_read`, `read_of_forms`, `error_of_read`.
-/

namespace ExprLang

namespace Lexeme

open Text

/-! ## The forms -/

/-- The symbols and their kinds. -/
def symbols : List (List Char × TokenKind) :=
  [(['.'], .separator), ([','], .delimiter), (['('], .leftParenthesis), ([')'], .rightParenthesis),
    (['['], .leftIndex), ([']'], .rightIndex), (['\x7b'], .leftResultIndex),
    (['\x7d'], .rightResultIndex), (['#'], .allValues), (['!'], .unaryOperator),
    (['+'], .binaryOperator), (['-'], .binaryOperator), (['*'], .binaryOperator),
    (['/'], .binaryOperator), (['%'], .binaryOperator), (['^'], .binaryOperator),
    (['='], .binaryOperator), (['<'], .binaryOperator), (['>'], .binaryOperator),
    (['&'], .binaryOperator), (['|'], .binaryOperator), (['=', '='], .binaryOperator),
    (['!', '='], .binaryOperator), (['<', '='], .binaryOperator), (['>', '='], .binaryOperator),
    (['&', '&'], .binaryOperator), (['|', '|'], .binaryOperator)]

/-- The characters `raw` are a lexeme of a kind, and `text` is its text. -/
inductive Forms : TokenKind → List Char → List Char → Prop where
  | whitespace {raw : List Char} :
      raw ≠ [] → (∀ c ∈ raw, isBlank c = true) → Forms .whitespace raw raw
  | identifier {raw : List Char} : IsWord raw → ¬ IsKeyword raw → Forms .identifier raw raw
  | bool {raw : List Char} : IsKeyword raw → Forms .bool raw raw
  | integer {raw : List Char} :
      raw ≠ [] → (∀ c ∈ raw, c.isDigit = true) → Forms .integer raw raw
  | float {whole fraction : List Char} :
      whole ≠ [] → (∀ c ∈ whole, c.isDigit = true) → (∀ c ∈ fraction, c.isDigit = true) →
      Forms .float (whole ++ '.' :: fraction) (whole ++ '.' :: fraction)
  | string {quote : Char} {body content : List Char} :
      isQuote quote = true → Spells quote body content →
      Forms .string (quote :: (body ++ [quote])) content
  | symbol {kind : TokenKind} {raw : List Char} : (raw, kind) ∈ symbols → Forms kind raw raw

/-- The character `d` behind `raw` would go on with the lexeme. -/
def continues (kind : TokenKind) (raw : List Char) (d : Char) : Bool :=
  match kind with
  | .whitespace => isBlank d
  | .identifier | .bool => isWordPart d
  | .integer => d.isDigit || d = '.'
  | .float => d.isDigit
  | .string => false
  | _ => symbols.any (·.1 = raw ++ [d])

/-- A lexeme ends before `tail`. -/
def Ends (kind : TokenKind) (raw tail : List Char) : Prop :=
  ∀ d ∈ tail.head?, continues kind raw d = false

def Opens (c : Char) : Prop :=
  isBlank c = true ∨ isAlphabetic c = true ∨ c.isDigit = true ∨ isQuote c = true ∨
    symbols.any (·.1 = [c]) = true

theorem exists_cons_of_mem_symbols {raw : List Char} {kind : TokenKind}
    (h : (raw, kind) ∈ symbols) :
    ∃ c more, raw = c :: more ∧ symbols.any (·.1 = [c]) = true := by
  have hall : ∀ p ∈ symbols, p.1 ≠ [] ∧ symbols.any (·.1 = p.1.take 1) = true := by
    decide
  obtain ⟨hne, hfirst⟩ := hall _ h
  obtain ⟨c, more, rfl⟩ := List.exists_cons_of_ne_nil hne
  exact ⟨c, more, rfl, hfirst⟩

/-- Symbols are apart from the characters that open other lexemes. -/
theorem apart_of_symbol {c : Char} (h : symbols.any (·.1 = [c]) = true) :
    isBlank c = false ∧ isAlphabetic c = false ∧ c.isDigit = false ∧ isQuote c = false := by
  have hall : (symbols.flatMap (·.1)).all fun c =>
      !isBlank c && (!isAlphabetic c && (!c.isDigit && !isQuote c)) := by
    decide
  obtain ⟨p, hmem, heq⟩ := List.any_eq_true.mp h
  have hc : c ∈ symbols.flatMap (·.1) :=
    List.mem_flatMap.mpr ⟨p, hmem, by simp [of_decide_eq_true heq]⟩
  simpa using List.all_eq_true.mp hall c hc

/-! ## Symbols -/

def longest (c : Char) : List Char → Option Lexeme
  | [] => (symbols.lookup [c]).map (verbatim · [c])
  | d :: _ =>
    match symbols.lookup [c, d] with
    | some kind => some (verbatim kind [c, d])
    | none => (symbols.lookup [c]).map (verbatim · [c])

/-- The symbols tried one by one are those of the table, and the longer one is preferred. -/
theorem ofSymbol?_eq_longest (c : Char) (rest : List Char) :
    ofSymbol? c rest = longest c rest := by
  have hlookup (key raw : List Char) (kind : TokenKind) (later : List (List Char × TokenKind)) :
      ((raw, kind) :: later).lookup key = if key = raw then some kind else later.lookup key := by
    rw [List.lookup_cons]
    by_cases h : key = raw
    · simp [h]
    · rw [if_neg h, beq_false_of_ne h]
  -- One case for each character that is tried, and one for all the others.
  unfold ofSymbol?
  split
  all_goals
    cases rest with
    | nil => simp_all [longest, symbols]
    | cons d later =>
      simp [longest, symbols, hlookup]
      try split
      all_goals simp_all

theorem mem_of_lookup_symbols {raw : List Char} {kind : TokenKind}
    (h : symbols.lookup raw = some kind) : (raw, kind) ∈ symbols := by
  obtain ⟨before, after, hsplit, -⟩ := List.lookup_eq_some_iff.mp h
  rw [hsplit]
  simp

theorem lookup_symbols {raw : List Char} {kind : TokenKind} (h : (raw, kind) ∈ symbols) :
    symbols.lookup raw = some kind := by
  have hall : ∀ p ∈ symbols, symbols.lookup p.1 = some p.2 := by
    decide
  exact hall _ h

theorem lookup_symbols_eq_none_iff {raw : List Char} :
    symbols.lookup raw = none ↔ symbols.any (·.1 = raw) = false := by
  rw [List.lookup_eq_none_iff, List.any_eq_false]
  refine forall₂_congr fun p _ => ?_
  rw [bne_iff_ne, decide_eq_true_eq, ne_comm]

theorem symbol_of_ofSymbol? {c : Char} {rest : List Char} {x : Lexeme}
    (h : ofSymbol? c rest = some x) :
    ∃ raw tail, c :: rest = raw ++ tail ∧ (raw, x.kind) ∈ symbols ∧
      (∀ d ∈ tail.head?, symbols.any (·.1 = raw ++ [d]) = false) ∧ x = verbatim x.kind raw := by
  have hlong : ∀ p ∈ symbols, p.1.length ≤ 2 := by
    decide
  rw [ofSymbol?_eq_longest] at h
  cases rest with
  | nil =>
    obtain ⟨kind, hkind, rfl⟩ := Option.map_eq_some_iff.mp h
    exact ⟨[c], [], rfl, mem_of_lookup_symbols hkind, by simp, rfl⟩
  | cons d rest =>
    simp only [longest] at h
    split at h
    · rename_i kind hkind
      cases h
      have hmem := mem_of_lookup_symbols hkind
      refine ⟨[c, d], rest, rfl, hmem, fun e _ => ?_, rfl⟩
      refine List.any_eq_false.mpr fun p hp heq => ?_
      have hlen := hlong p hp
      rw [of_decide_eq_true heq] at hlen
      exact absurd hlen (by simp)
    · rename_i hnone
      obtain ⟨kind, hkind, rfl⟩ := Option.map_eq_some_iff.mp h
      refine ⟨[c], d :: rest, rfl, mem_of_lookup_symbols hkind, fun e he => ?_, rfl⟩
      cases he
      exact lookup_symbols_eq_none_iff.mp hnone

theorem ofSymbol?_of_symbol {kind : TokenKind} {raw tail : List Char}
    (h : (raw, kind) ∈ symbols)
    (hend : ∀ d ∈ tail.head?, symbols.any (·.1 = raw ++ [d]) = false) :
    ∃ c rest, raw ++ tail = c :: rest ∧ ofSymbol? c rest = some (verbatim kind raw) := by
  have hshort : ∀ p ∈ symbols, p.1.length = 1 ∨ p.1.length = 2 := by
    decide
  rcases hshort _ h with hone | htwo
  · obtain ⟨c, rfl⟩ := List.length_eq_one_iff.mp hone
    refine ⟨c, tail, rfl, ?_⟩
    rw [ofSymbol?_eq_longest]
    cases tail with
    | nil => simp [longest, lookup_symbols h]
    | cons d tail =>
      have hnone : symbols.lookup [c, d] = none := lookup_symbols_eq_none_iff.mpr (hend d rfl)
      simp [longest, lookup_symbols h, hnone]
  · obtain ⟨c, d, rfl⟩ := List.length_eq_two.mp htwo
    refine ⟨c, d :: tail, rfl, ?_⟩
    rw [ofSymbol?_eq_longest]
    simp [longest, lookup_symbols h]

theorem not_symbol_of_ofSymbol? {c : Char} {rest : List Char} (h : ofSymbol? c rest = none) :
    symbols.any (·.1 = [c]) = false := by
  rw [ofSymbol?_eq_longest] at h
  refine lookup_symbols_eq_none_iff.mp ?_
  cases rest with
  | nil => exact Option.map_eq_none_iff.mp h
  | cons d rest =>
    simp only [longest] at h
    split at h
    · cases h
    · exact Option.map_eq_none_iff.mp h

theorem kind_of_mem_symbols {raw : List Char} {kind : TokenKind} (h : (raw, kind) ∈ symbols) :
    kind ∉ [.whitespace, .identifier, .bool, .integer, .float, .string, .error, .eof] := by
  have hall : ∀ p ∈ symbols,
      p.2 ∉ [.whitespace, .identifier, .bool, .integer, .float, .string, .error, .eof] := by
    decide
  exact hall _ h

theorem continues_symbol {raw : List Char} {kind : TokenKind} (h : (raw, kind) ∈ symbols)
    (d : Char) : continues kind raw d = symbols.any (·.1 = raw ++ [d]) := by
  have hkind := kind_of_mem_symbols h
  cases kind with
  | whitespace | identifier | bool | integer | float | string => exact absurd hkind (by decide)
  | _ => rfl

/-! ## Facts about forms -/

theorem Forms.ne_nil {kind : TokenKind} {raw text : List Char} (h : Forms kind raw text) :
    raw ≠ [] := by
  cases h with
  | whitespace hne | integer hne => exact hne
  | identifier hword => exact hword.ne_nil
  | bool hkey => exact hkey.isWord.ne_nil
  | float | string => simp
  | symbol hmem =>
    obtain ⟨c, more, rfl, -⟩ := exists_cons_of_mem_symbols hmem
    exact List.cons_ne_nil c more

theorem forms_literal (s : String) : Forms .string (Text.literal s).toList s.toList := by
  unfold Text.literal
  rw [String.toList_ofList]
  exact .string (by decide) (spells_flatMap spells_escape s.toList)

theorem Forms.kind_ne {kind : TokenKind} {raw text : List Char} (h : Forms kind raw text) :
    kind ≠ .error ∧ kind ≠ .eof := by
  cases h with
  | symbol hmem =>
    have hkind := kind_of_mem_symbols hmem
    simp only [List.mem_cons, not_or] at hkind
    exact ⟨hkind.2.2.2.2.2.2.1, hkind.2.2.2.2.2.2.2.1⟩
  | _ => exact ⟨TokenKind.noConfusion, TokenKind.noConfusion⟩

theorem Forms.opens {kind : TokenKind} {c : Char} {more text : List Char}
    (h : Forms kind (c :: more) text) : Opens c := by
  generalize hraw : c :: more = raw at h
  cases h with
  | whitespace _ hblank => exact .inl (hblank c (hraw ▸ List.mem_cons_self))
  | identifier hword =>
    obtain ⟨d, rest, rfl, halpha, -⟩ := hword
    cases hraw
    exact .inr (.inl halpha)
  | bool hkey =>
    obtain ⟨d, rest, rfl, halpha, -⟩ := hkey.isWord
    cases hraw
    exact .inr (.inl halpha)
  | integer _ hdigits => exact .inr (.inr (.inl (hdigits c (hraw ▸ List.mem_cons_self))))
  | float hne hdigits =>
    obtain ⟨d, rest, rfl⟩ := List.exists_cons_of_ne_nil hne
    cases hraw
    exact .inr (.inr (.inl (hdigits c List.mem_cons_self)))
  | string hquote =>
    cases hraw
    exact .inr (.inr (.inr (.inl hquote)))
  | symbol hmem =>
    obtain ⟨d, rest, rfl, hfirst⟩ := exists_cons_of_mem_symbols hmem
    cases hraw
    exact .inr (.inr (.inr (.inr hfirst)))

/-! ## Runs of characters -/

theorem takeWhile_append_of_ends {p : Char → Bool} {raw tail : List Char}
    (hraw : ∀ c ∈ raw, p c = true) (htail : ∀ d ∈ tail.head?, p d = false) :
    (raw ++ tail).takeWhile p = raw ∧ (raw ++ tail).dropWhile p = tail := by
  rw [List.takeWhile_append_of_pos hraw, List.dropWhile_append_of_pos hraw]
  cases tail with
  | nil => simp
  | cons d tail => simp [htail d rfl]

theorem ends_dropWhile (p : Char → Bool) (cs : List Char) :
    ∀ d ∈ (cs.dropWhile p).head?, p d = false := by
  intro d hd
  have h := List.head?_dropWhile_not p cs
  rw [Option.mem_def.mp hd] at h
  simpa using h

/-! ## Reading a number -/

theorem forms_ofNumber {c : Char} {rest : List Char} (hc : c.isDigit = true) :
    ∃ raw tail, c :: rest = raw ++ tail ∧
      Forms (ofNumber (c :: rest)).kind raw (ofNumber (c :: rest)).text ∧
      Ends (ofNumber (c :: rest)).kind raw tail ∧ (ofNumber (c :: rest)).length = raw.length := by
  have hne : (c :: rest).takeWhile Char.isDigit ≠ [] := by
    simp [hc]
  have hdigits : ∀ d ∈ (c :: rest).takeWhile Char.isDigit, d.isDigit = true :=
    List.all_eq_true.mp List.all_takeWhile
  have hsplit := List.takeWhile_append_dropWhile (p := Char.isDigit) (l := c :: rest)
  unfold ofNumber
  split
  · rename_i after hafter
    rw [hafter] at hsplit
    refine ⟨_, after.dropWhile Char.isDigit, ?_,
      .float hne hdigits (List.all_eq_true.mp List.all_takeWhile), ends_dropWhile _ _, rfl⟩
    rw [List.append_assoc, List.cons_append, List.takeWhile_append_dropWhile]
    exact hsplit.symm
  · rename_i hpoint
    refine ⟨_, _, hsplit.symm, .integer hne hdigits, fun d hd => ?_, rfl⟩
    have hd' : d ≠ '.' := by
      rintro rfl
      obtain ⟨after, hafter⟩ := List.head?_eq_some_iff.mp hd
      exact hpoint after hafter
    simp [continues, verbatim, hd', ends_dropWhile _ _ d hd]

theorem ofNumber_integer {raw tail : List Char} (hraw : ∀ c ∈ raw, c.isDigit = true)
    (hend : Ends .integer raw tail) : ofNumber (raw ++ tail) = verbatim .integer raw := by
  have htail : ∀ d ∈ tail.head?, d.isDigit = false ∧ d ≠ '.' := fun d hd => by
    simpa [continues] using hend d hd
  obtain ⟨htake, hdrop⟩ := takeWhile_append_of_ends hraw fun d hd => (htail d hd).1
  unfold ofNumber
  rw [htake, hdrop]
  split
  · exact absurd rfl (htail '.' rfl).2
  · rfl

theorem ofNumber_float {whole fraction tail : List Char}
    (hwhole : ∀ c ∈ whole, c.isDigit = true) (hfraction : ∀ c ∈ fraction, c.isDigit = true)
    (hend : ∀ d ∈ tail.head?, d.isDigit = false) :
    ofNumber (whole ++ '.' :: (fraction ++ tail)) = verbatim .float (whole ++ '.' :: fraction) := by
  have hpoint : ∀ d ∈ ('.' :: (fraction ++ tail)).head?, d.isDigit = false := by
    rintro d ⟨⟩
    rfl
  obtain ⟨htake, hdrop⟩ := takeWhile_append_of_ends hwhole hpoint
  unfold ofNumber
  rw [htake, hdrop]
  simp only [(takeWhile_append_of_ends hfraction hend).1]

/-! ## Reading a lexeme -/

theorem isQuote_iff {c : Char} : isQuote c = true ↔ c ∈ ['\x22', '\x60', '\x27'] := by
  simp [isQuote, or_assoc]

theorem apart_of_isQuote {c : Char} (h : isQuote c = true) :
    isBlank c = false ∧ isAlphabetic c = false ∧ c.isDigit = false ∧ c ≠ '\\' := by
  have hall : ['\x22', '\x60', '\x27'].all fun c =>
      !isBlank c && (!isAlphabetic c && (!c.isDigit && c != '\\')) := by
    decide
  simpa using List.all_eq_true.mp hall c (isQuote_iff.mp h)

/-- What is read is a lexeme, and what follows it does not go on with it. -/
theorem forms_of_read {offset : Nat} {c : Char} {rest : List Char} {x : Lexeme}
    (h : read offset c rest = .ok x) :
    ∃ raw tail, c :: rest = raw ++ tail ∧ Forms x.kind raw x.text ∧ Ends x.kind raw tail ∧
      x.length = raw.length := by
  unfold read at h
  -- Blanks.
  split at h
  · rename_i hblank
    cases h
    refine ⟨_, _, (List.takeWhile_append_dropWhile (p := isBlank)).symm, .whitespace ?_ ?_,
      ends_dropWhile isBlank _, rfl⟩
    · simp [hblank]
    · exact List.all_eq_true.mp List.all_takeWhile
  -- A word.
  split at h
  · rename_i halpha
    cases h
    have hword : IsWord ((c :: rest).takeWhile isWordPart) := by
      rw [List.takeWhile_cons_of_pos (isWordPart_of_isAlphabetic halpha)]
      exact ⟨c, _, rfl, halpha, List.all_eq_true.mp List.all_takeWhile⟩
    have hends := ends_dropWhile isWordPart (c :: rest)
    refine ⟨_, _, (List.takeWhile_append_dropWhile (p := isWordPart)).symm, ?_⟩
    unfold ofWord
    split
    · rename_i hkey
      exact ⟨.bool hkey, hends, rfl⟩
    · rename_i hkey
      exact ⟨.identifier hword hkey, hends, rfl⟩
  -- A number.
  split at h
  · rename_i hdigit
    cases h
    exact forms_ofNumber hdigit
  -- A literal, and else a symbol.
  split at h
  · rename_i hquote
    split at h
    · rename_i content n hread
      cases h
      obtain ⟨body, after, rfl, hspells, rfl⟩ := spells_of_readLiteral hread
      refine ⟨c :: (body ++ [c]), after, by simp, .string hquote hspells, ?_, by simp⟩
      exact fun d _ => rfl
    · cases h
  · split at h
    · rename_i hsymbol
      cases h
      obtain ⟨raw, tail, hsplit, hmem, hends, hx⟩ := symbol_of_ofSymbol? hsymbol
      rw [hx]
      exact ⟨raw, tail, hsplit, .symbol hmem,
        fun d hd => (continues_symbol hmem d).trans (hends d hd), rfl⟩
    · cases h

theorem read_word {raw tail : List Char} (hword : IsWord raw)
    (hend : ∀ d ∈ tail.head?, isWordPart d = false) :
    ∃ c rest, raw ++ tail = c :: rest ∧ ∀ offset, read offset c rest = .ok (ofWord raw) := by
  obtain ⟨c, more, rfl, halpha, -⟩ := id hword
  refine ⟨c, more ++ tail, rfl, fun offset => ?_⟩
  rw [read, isBlank_of_isAlphabetic halpha, if_neg Bool.false_ne_true, if_pos halpha,
    ← List.cons_append, (takeWhile_append_of_ends hword.all_isWordPart hend).1]

theorem read_digit {offset : Nat} {c : Char} (hc : c.isDigit = true) (rest : List Char) :
    read offset c rest = .ok (ofNumber (c :: rest)) := by
  rw [read, isBlank_of_isDigit hc, if_neg Bool.false_ne_true, isAlphabetic_of_isDigit hc,
    if_neg Bool.false_ne_true, if_pos hc]

theorem read_of_forms {kind : TokenKind} {raw text tail : List Char} (h : Forms kind raw text)
    (hend : Ends kind raw tail) :
    ∃ c rest, raw ++ tail = c :: rest ∧
      ∀ offset, read offset c rest = .ok ⟨kind, text, raw.length⟩ := by
  cases h with
  | whitespace hne hblank =>
    obtain ⟨c, more, rfl⟩ := List.exists_cons_of_ne_nil hne
    refine ⟨c, more ++ tail, rfl, fun offset => ?_⟩
    rw [read, if_pos (hblank c List.mem_cons_self), ← List.cons_append,
      (takeWhile_append_of_ends hblank hend).1]
    rfl
  | identifier hword hkey =>
    obtain ⟨c, rest, hsplit, hread⟩ := read_word hword hend
    refine ⟨c, rest, hsplit, fun offset => ?_⟩
    rw [hread, ofWord]
    exact congrArg Except.ok (if_neg hkey)
  | bool hkey =>
    obtain ⟨c, rest, hsplit, hread⟩ := read_word hkey.isWord hend
    refine ⟨c, rest, hsplit, fun offset => ?_⟩
    rw [hread, ofWord]
    exact congrArg Except.ok (if_pos hkey)
  | integer hne hdigits =>
    obtain ⟨c, more, rfl⟩ := List.exists_cons_of_ne_nil hne
    refine ⟨c, more ++ tail, rfl, fun offset => ?_⟩
    rw [read_digit (hdigits c List.mem_cons_self), ← List.cons_append,
      ofNumber_integer hdigits hend]
    rfl
  | @float whole fraction hne hwhole hfraction =>
    obtain ⟨c, more, rfl⟩ := List.exists_cons_of_ne_nil hne
    refine ⟨c, more ++ '.' :: fraction ++ tail, rfl, fun offset => ?_⟩
    have hsplit : c :: (more ++ '.' :: fraction ++ tail) =
        (c :: more) ++ '.' :: (fraction ++ tail) := by simp
    rw [read_digit (hwhole c List.mem_cons_self), hsplit, ofNumber_float hwhole hfraction hend]
    rfl
  | @string quote body content hquote hspells =>
    obtain ⟨hblank, halpha, hdigit, hslash⟩ := apart_of_isQuote hquote
    refine ⟨quote, body ++ quote :: tail, by simp, fun offset => ?_⟩
    rw [read, hblank, if_neg Bool.false_ne_true, halpha, if_neg Bool.false_ne_true, hdigit,
      if_neg Bool.false_ne_true, if_pos hquote, readLiteral_of_spells hslash hspells tail]
    simp
  | symbol hmem =>
    obtain ⟨c, rest, hsplit, hsymbol⟩ :=
      ofSymbol?_of_symbol hmem fun d hd => (continues_symbol hmem d).symm.trans (hend d hd)
    obtain ⟨c', more, rfl, hfirst⟩ := exists_cons_of_mem_symbols hmem
    obtain rfl : c' = c := (List.cons.inj hsplit).1
    obtain ⟨hblank, halpha, hdigit, hquote⟩ := apart_of_symbol hfirst
    refine ⟨c', rest, hsplit, fun offset => ?_⟩
    rw [read, hblank, if_neg Bool.false_ne_true, halpha, if_neg Bool.false_ne_true, hdigit,
      if_neg Bool.false_ne_true, hquote, if_neg Bool.false_ne_true, hsymbol]
    rfl

/-- Nothing is read only where no lexeme begins, or where a literal is not closed. -/
theorem error_of_read {offset : Nat} {c : Char} {rest : List Char} {e : LexError}
    (h : read offset c rest = .error e) :
    (¬ Opens c ∧ e = .unrecognizedCharacter c offset) ∨
      (isQuote c = true ∧ e = .unterminatedString offset ∧
        ∀ body content tail, Spells c body content → rest ≠ body ++ c :: tail) := by
  unfold read at h
  split at h
  · cases h
  rename_i hblank
  split at h
  · cases h
  rename_i halpha
  split at h
  · cases h
  rename_i hdigit
  split at h
  · rename_i hquote
    split at h
    · cases h
    · rename_i hnone
      cases h
      exact .inr ⟨hquote, rfl, (readLiteral_eq_none_iff (apart_of_isQuote hquote).2.2.2).mp hnone⟩
  rename_i hquote
  split at h
  · cases h
  · rename_i hnone
    cases h
    refine .inl ⟨?_, rfl⟩
    rintro (hopen | hopen | hopen | hopen | hopen)
    · exact hblank hopen
    · exact halpha hopen
    · exact hdigit hopen
    · exact hquote hopen
    · rw [not_symbol_of_ofSymbol? hnone] at hopen
      exact absurd hopen Bool.false_ne_true

theorem read_of_not_opens {c : Char} (h : ¬ Opens c) (offset : Nat) (rest : List Char) :
    read offset c rest = .error (.unrecognizedCharacter c offset) := by
  cases hread : read offset c rest with
  | ok x =>
    obtain ⟨raw, tail, hsplit, hforms, -, -⟩ := forms_of_read hread
    obtain ⟨d, more, rfl⟩ := List.exists_cons_of_ne_nil hforms.ne_nil
    obtain rfl : c = d := (List.cons.inj hsplit).1
    exact absurd hforms.opens h
  | error e =>
    rcases error_of_read hread with ⟨-, rfl⟩ | ⟨hquote, -⟩
    · rfl
    · exact absurd (.inr (.inr (.inr (.inl hquote)))) h

theorem read_of_unterminated {c : Char} {rest : List Char} (hquote : isQuote c = true)
    (h : ∀ body content tail, Spells c body content → rest ≠ body ++ c :: tail) (offset : Nat) :
    read offset c rest = .error (.unterminatedString offset) := by
  obtain ⟨hblank, halpha, hdigit, hslash⟩ := apart_of_isQuote hquote
  rw [read, hblank, if_neg Bool.false_ne_true, halpha, if_neg Bool.false_ne_true, hdigit,
    if_neg Bool.false_ne_true, if_pos hquote, (readLiteral_eq_none_iff hslash).mpr h]

end Lexeme

end ExprLang
