import ExprLang.Registry
import ExprLang.Token.Lexer

/-!
# Classes of characters

A lexeme is chosen by its first character, so what matters about the classes is which of them meet.
Blanks, alphabetic characters, digits, quotes and symbols are apart from each other, and digits and
the characters of function names may stand inside a word.

The classes are tables of ranges. Each fact is checked at the points of the smaller class.
-/

namespace ExprLang

namespace Text

def Ranges.points (rs : Ranges) : List Nat :=
  rs.flatMap fun range => List.range' range.1 (range.2 + 1 - range.1)

theorem Ranges.mem_points {rs : Ranges} {n : Nat} (h : rs.contains n = true) :
    n ∈ rs.points := by
  induction rs with
  | nil => simp [Ranges.contains] at h
  | cons range rest ih =>
    obtain ⟨low, high⟩ := range
    simp only [Ranges.contains, Bool.and_eq_true, Bool.or_eq_true, decide_eq_true_eq] at h
    obtain ⟨hlow, hhigh | hrest⟩ := h
    · refine List.mem_flatMap.mpr ⟨(low, high), List.mem_cons_self, ?_⟩
      exact List.mem_range'_1.mpr ⟨hlow, by omega⟩
    · obtain ⟨range, hmem, hn⟩ := List.mem_flatMap.mp (ih hrest)
      exact List.mem_flatMap.mpr ⟨range, List.mem_cons_of_mem _ hmem, hn⟩

theorem isAlphabetic_of_isBlank {c : Char} (h : isBlank c = true) : isAlphabetic c = false := by
  have hall : ∀ n ∈ blankRanges.points, alphabeticRanges.contains n = false := by
    decide +kernel
  exact hall _ (Ranges.mem_points h)

theorem isBlank_of_isAlphabetic {c : Char} (h : isAlphabetic c = true) : isBlank c = false := by
  cases hb : isBlank c with
  | false => rfl
  | true =>
    rw [isAlphabetic_of_isBlank hb] at h
    exact absurd h Bool.false_ne_true

theorem isNumeric_of_isBlank {c : Char} (h : isBlank c = true) : isNumeric c = false := by
  have hall : ∀ n ∈ blankRanges.points, numericRanges.contains n = false := by
    decide +kernel
  exact hall _ (Ranges.mem_points h)

theorem toNat_mem_of_isDigit {c : Char} (h : c.isDigit = true) :
    c.toNat ∈ List.range' 48 10 := by
  have hc : 48 ≤ c.toNat ∧ c.toNat ≤ 57 := Char.isDigit_iff_toNat.mp h
  exact List.mem_range'_1.mpr ⟨hc.1, by omega⟩

theorem isBlank_of_isDigit {c : Char} (h : c.isDigit = true) : isBlank c = false := by
  have hall : ∀ n ∈ List.range' 48 10, blankRanges.contains n = false := by
    decide
  exact hall _ (toNat_mem_of_isDigit h)

theorem isDigit_of_isBlank {c : Char} (h : isBlank c = true) : c.isDigit = false := by
  cases hd : c.isDigit with
  | false => rfl
  | true =>
    rw [isBlank_of_isDigit hd] at h
    cases h

theorem isAlphabetic_of_isDigit {c : Char} (h : c.isDigit = true) : isAlphabetic c = false := by
  have hall : ∀ n ∈ List.range' 48 10, alphabeticRanges.contains n = false := by
    decide
  exact hall _ (toNat_mem_of_isDigit h)

theorem isDigit_of_isAlphabetic {c : Char} (h : isAlphabetic c = true) : c.isDigit = false := by
  cases hd : c.isDigit with
  | false => rfl
  | true =>
    rw [isAlphabetic_of_isDigit hd] at h
    cases h

theorem isNumeric_of_isDigit {c : Char} (h : c.isDigit = true) : isNumeric c = true := by
  have hall : ∀ n ∈ List.range' 48 10, numericRanges.contains n = true := by
    decide
  exact hall _ (toNat_mem_of_isDigit h)

theorem toNat_of_isLower {c : Char} (h : c.isLower = true) : 97 ≤ c.toNat ∧ c.toNat ≤ 122 := by
  change (decide (c.val ≥ 97) && decide (c.val ≤ 122)) = true at h
  simp only [Bool.and_eq_true, decide_eq_true_eq, ge_iff_le, UInt32.le_iff_toNat_le] at h
  exact h

theorem toNat_of_isUpper {c : Char} (h : c.isUpper = true) : 65 ≤ c.toNat ∧ c.toNat ≤ 90 := by
  change decide (c.val ≥ 65 ∧ c.val ≤ 90) = true at h
  simp only [decide_eq_true_eq, ge_iff_le, UInt32.le_iff_toNat_le] at h
  exact h

theorem isAlphabetic_of_isLower {c : Char} (h : c.isLower = true) : isAlphabetic c = true := by
  have hall : ∀ n ∈ List.range' 97 26, alphabeticRanges.contains n = true := by
    decide
  obtain ⟨hlow, hhigh⟩ := toNat_of_isLower h
  exact hall c.toNat (List.mem_range'_1.mpr ⟨hlow, by omega⟩)

theorem isAlphabetic_of_isUpper {c : Char} (h : c.isUpper = true) : isAlphabetic c = true := by
  have hall : ∀ n ∈ List.range' 65 26, alphabeticRanges.contains n = true := by
    decide
  obtain ⟨hlow, hhigh⟩ := toNat_of_isUpper h
  exact hall c.toNat (List.mem_range'_1.mpr ⟨hlow, by omega⟩)

end Text

namespace Lexeme

open Text

theorem isWordPart_of_isAlphabetic {c : Char} (h : isAlphabetic c = true) :
    isWordPart c = true := by
  simp [isWordPart, h]

theorem isWordPart_of_isDigit {c : Char} (h : c.isDigit = true) : isWordPart c = true := by
  simp [isWordPart, isNumeric_of_isDigit h]

theorem isWordPart_of_isBlank {c : Char} (h : isBlank c = true) : isWordPart c = false := by
  have hline : c ≠ '_' := by
    rintro rfl
    cases h
  simp [isWordPart, hline, isAlphabetic_of_isBlank h, isNumeric_of_isBlank h]

/-- An identifier: an alphabetic character, then characters of a word. -/
def IsWord (cs : List Char) : Prop :=
  ∃ c rest, cs = c :: rest ∧ isAlphabetic c = true ∧ ∀ d ∈ rest, isWordPart d = true

/-- The words that stand for the truth values and name nothing. -/
def IsKeyword (cs : List Char) : Prop :=
  cs = ['t', 'r', 'u', 'e'] ∨ cs = ['f', 'a', 'l', 's', 'e']

instance (cs : List Char) : Decidable (IsKeyword cs) := inferInstanceAs (Decidable (_ ∨ _))

theorem IsWord.all_isWordPart {cs : List Char} (h : IsWord cs) :
    ∀ c ∈ cs, isWordPart c = true := by
  obtain ⟨c, rest, rfl, hc, hrest⟩ := h
  intro d hd
  rcases List.mem_cons.mp hd with rfl | hd
  · exact isWordPart_of_isAlphabetic hc
  · exact hrest d hd

theorem IsWord.ne_nil {cs : List Char} (h : IsWord cs) : cs ≠ [] := by
  obtain ⟨c, rest, rfl, -⟩ := h
  exact List.cons_ne_nil c rest

theorem IsKeyword.isWord {cs : List Char} (h : IsKeyword cs) : IsWord cs := by
  rcases h with rfl | rfl
  · exact ⟨_, _, rfl, by decide, List.all_eq_true.mp (by decide)⟩
  · exact ⟨_, _, rfl, by decide, List.all_eq_true.mp (by decide)⟩

/-- A name that can stand alone in a source. -/
def IsIdentifier (name : String) : Prop := IsWord name.toList ∧ ¬ IsKeyword name.toList

theorem isWord_of_isFunctionName {name : String} (h : isFunctionName name = true) :
    IsWord name.toList := by
  unfold isFunctionName at h
  split at h
  · exact absurd h (by simp)
  · rename_i c rest heq
    simp only [Bool.and_eq_true, List.all_eq_true] at h
    refine ⟨c, rest, heq, isAlphabetic_of_isLower h.1, fun d hd => ?_⟩
    have hd := h.2 d hd
    change (d.isUpper || d.isLower || d.isDigit || decide (d = '_')) = true at hd
    simp only [Bool.or_eq_true, decide_eq_true_eq] at hd
    rcases hd with ((hd | hd) | hd) | hd
    · exact isWordPart_of_isAlphabetic (isAlphabetic_of_isUpper hd)
    · exact isWordPart_of_isAlphabetic (isAlphabetic_of_isLower hd)
    · exact isWordPart_of_isDigit hd
    · simp [isWordPart, hd]

end Lexeme

end ExprLang
