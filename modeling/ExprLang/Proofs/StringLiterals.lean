import ExprLang.Proofs.TokenStream
import ExprLang.Value.Render

/-!
# Literals of all strings

Every string has a literal that is read as that string and nothing more, whatever follows it: the one
that is written, between double quotes, with escapes for control characters; and, for each kind of quotes,
the one that only puts a backslash in front of each such quote and each backslash.

Main statement: `literal_reads`.
-/

namespace ExprLang

open Lexeme

namespace Text

/-- A character between two `quote`s. -/
def mask (quote c : Char) : List Char := if c = quote ∨ c = '\\' then ['\\', c] else [c]

/-- A string between two `quote`s, where each character that is not masked stands for itself. -/
def enclose (quote : Char) (s : String) : String :=
  String.ofList (quote :: s.toList.flatMap (mask quote) ++ [quote])

example : enclose '\x60' "\x60\\n\x22" = "\x60\\\x60\\\\n\x22\x60" := rfl

/-- The letters of escapes are no quotes. -/
theorem unescape_of_masked {quote c : Char} (hquote : isQuote quote = true)
    (h : c = quote ∨ c = '\\') : unescape c = c := by
  rcases h with rfl | rfl
  · have hall : ['\x22', '\x60', '\x27'].all fun c => unescape c == c := by
      decide
    exact eq_of_beq (List.all_eq_true.mp hall c (isQuote_iff.mp hquote))
  · rfl

theorem spells_mask {quote : Char} (hquote : isQuote quote = true) (c : Char) :
    Spells quote (mask quote c) [c] := by
  unfold mask
  by_cases h : c = quote ∨ c = '\\'
  · rw [if_pos h]
    have hspells : Spells quote ['\\', c] [unescape c] := .escaped .nil
    rwa [unescape_of_masked hquote h] at hspells
  · rw [if_neg h]
    exact .plain (fun hc => h (.inl hc)) (fun hc => h (.inr hc)) .nil

end Text

/-! ## Reading a literal -/

theorem TokenStream.next_of_forms {kind : TokenKind} {raw text tail : List Char}
    (h : Forms kind raw text) (hend : Ends kind raw tail) (offset : Nat) :
    (TokenStream.mk (raw ++ tail) offset false).next =
      (some (⟨kind, offset, String.ofList text⟩, none), ⟨tail, offset + raw.length, false⟩) := by
  obtain ⟨c, rest, hsplit, hread⟩ := read_of_forms h hend
  rw [next, if_neg Bool.false_ne_true]
  simp only [hsplit, hread]
  rw [← hsplit, List.drop_left]

/-- The source begins with a string literal for `s`, of some length, behind which `rest` is read. -/
structure ReadsString (source s : String) (length : Nat) (rest : String) : Prop where
  next : (TokenStream.ofSource source).next =
    (some (⟨.string, 0, s⟩, none), ⟨rest.toList, length, false⟩)
  scan : scan source =
    ⟨⟨.string, 0, s⟩ :: (scanFrom 0 length rest.toList).tokens,
      (scanFrom 0 length rest.toList).stop⟩

theorem readsString_of_forms {literal s : String} (h : Forms .string literal.toList s.toList)
    (rest : String) : ReadsString (literal ++ rest) s literal.length rest := by
  have hend : Ends .string literal.toList rest.toList := fun d _ => rfl
  have hlength : 0 + literal.toList.length = literal.length := by
    rw [Nat.zero_add, String.length_toList]
  constructor
  · have hnext := TokenStream.next_of_forms h hend 0
    rw [hlength, String.ofList_toList] at hnext
    rw [TokenStream.ofSource, String.toList_append, hnext]
  · have hscan := scanFrom_append 0 h hend
    rw [hlength, String.ofList_toList] at hscan
    rw [ExprLang.scan, String.toList_append, hscan]

theorem forms_enclose {quote : Char} (hquote : isQuote quote = true) (s : String) :
    Forms .string (Text.enclose quote s).toList s.toList := by
  unfold Text.enclose
  rw [String.toList_ofList]
  exact .string hquote (Text.spells_flatMap (Text.spells_mask hquote) s.toList)

/-- What is written for a string and what is enclosed by any quotes are read as the string. -/
theorem literal_reads {V : Vocabulary} (s rest : String) :
    (Expr.literal (.string s) : Expr V).render = Text.literal s ∧
    ReadsString (Text.literal s ++ rest) s (Text.literal s).length rest ∧
    ∀ quote ∈ ['\x22', '\x60', '\x27'],
      ReadsString (Text.enclose quote s ++ rest) s (Text.enclose quote s).length rest := by
  refine ⟨rfl, readsString_of_forms (forms_literal s) rest, fun quote hquote => ?_⟩
  exact readsString_of_forms (forms_enclose (isQuote_iff.mpr hquote) s) rest

/-- A quote, then a backslash in front of a letter that an escape could mean, then more source. -/
theorem literal_reads_backtick :
    '\x60' ∈ ['\x22', '\x60', '\x27'] ∧
      ReadsString (Text.enclose '\x60' "\x60\\n" ++ "\x60 + 1") "\x60\\n"
        (Text.enclose '\x60' "\x60\\n").length "\x60 + 1" := by
  have hmem : '\x60' ∈ ['\x22', '\x60', '\x27'] := by decide
  exact ⟨hmem, (literal_reads (V := Vocabulary.empty) _ _).2.2 _ hmem⟩

end ExprLang
