import ExprLang.Proofs.Writing

/-!
# What messages tell

A message about a source that cannot be read names the reason, the character and the place. Each of them
can be told from the text, so errors with one message are one error.

Main statement: `LexError.message_injective`.
-/

namespace ExprLang

namespace Text

/-! ## Quoted characters -/

/-- The last digit stands behind those of the number without it. -/
theorem toDigits_sixteen (n : Nat) : Nat.toDigits 16 n =
    (if n < 16 then [] else Nat.toDigits 16 (n / 16)) ++ [(n % 16).digitChar] := by
  rw [Nat.toDigits_eq_if (by decide)]
  split
  · rename_i hn
    rw [Nat.mod_eq_of_lt hn, List.nil_append]
  · rfl

theorem toDigits_sixteen_injective : Function.Injective (Nat.toDigits 16) := by
  have hdigit : ∀ m < 16, ∀ n < 16, m.digitChar = n.digitChar → m = n := by
    decide
  intro m
  induction m using Nat.strongRecOn with
  | ind m ih =>
    intro n h
    rw [toDigits_sixteen m, toDigits_sixteen n, List.append_singleton_inj] at h
    obtain ⟨hhigh, hlast⟩ := h
    have hlast := hdigit _ (Nat.mod_lt m (by decide)) _ (Nat.mod_lt n (by decide)) hlast
    split at hhigh
    · rename_i hm
      split at hhigh
      · omega
      · exact absurd hhigh.symm Nat.toDigits_ne_nil
    · rename_i hm
      split at hhigh
      · exact absurd hhigh Nat.toDigits_ne_nil
      · have hhigh := ih (m / 16) (by omega) hhigh
        omega

/-- The characters that stand quoted as a mark behind a backslash. -/
def quoteMarks : List (Char × Char) :=
  [('\x00', '0'), ('\t', 't'), ('\r', 'r'), ('\n', 'n'), ('\\', '\\'), ('\x27', '\x27')]

/-- How the character `c` may stand in single quotes. -/
inductive Quotes (c : Char) : List Char → Prop where
  | plain : c ≠ '\\' → Quotes c [c]
  | marked {mark : Char} : (c, mark) ∈ quoteMarks → Quotes c ['\\', mark]
  | spelled : Quotes c (spellCodePoint c)

theorem quotes_quoteChar (c : Char) : Quotes c (quoteChar '\x27' c) := by
  unfold quoteChar
  split
  · rename_i hc
    exact .marked (by simp [hc, quoteMarks])
  split
  · rename_i hc
    exact .marked (by simp [hc, quoteMarks])
  split
  · rename_i hc
    exact .marked (by simp [hc, quoteMarks])
  split
  · rename_i hc
    exact .marked (by simp [hc, quoteMarks])
  split
  · rename_i hc
    rw [Bool.or_eq_true, decide_eq_true_eq, decide_eq_true_eq] at hc
    rcases hc with rfl | rfl
    · exact .marked (by decide)
    · exact .marked (by decide)
  rename_i hc
  split
  · exact .spelled
  · refine .plain ?_
    rintro rfl
    exact hc rfl

theorem spellCodePoint_injective : Function.Injective spellCodePoint := by
  intro c d h
  have h : Nat.toDigits 16 c.toNat = Nat.toDigits 16 d.toNat :=
    List.append_cancel_left (List.append_cancel_right h)
  exact Char.toNat_inj.mp (toDigits_sixteen_injective h)

theorem Quotes.eq {c d : Char} {shown shown' : List Char} (hc : Quotes c shown)
    (hd : Quotes d shown') (h : shown = shown') : c = d := by
  have hmarks : ∀ p ∈ quoteMarks, ∀ q ∈ quoteMarks, p.2 = q.2 → p.1 = q.1 := by
    decide
  cases hc with
  | plain =>
    cases hd with
    | plain => exact List.singleton_inj.mp h
    | marked | spelled => cases (List.cons.inj h).2
  | marked hmark =>
    cases hd with
    | plain => cases (List.cons.inj h).2
    | marked hmark' => exact hmarks _ hmark _ hmark' (by simpa using h)
    | spelled => cases (List.cons.inj (List.cons.inj h).2).2
  | spelled =>
    cases hd with
    | plain => cases (List.cons.inj h).2
    | marked => cases (List.cons.inj (List.cons.inj h).2).2
    | spelled => exact spellCodePoint_injective h

theorem quoteOne_injective : Function.Injective quoteOne := by
  intro c d h
  unfold quoteOne at h
  have h := String.ofList_injective h
  have h := List.append_cancel_right (List.cons.inj h).2
  exact (quotes_quoteChar c).eq (quotes_quoteChar d) h

end Text

/-! ## Messages -/

/-- A number at the end of a text can be told from it if no digit stands before it. -/
theorem append_toString_inj {cs cs' : List Char} {m n : Nat} (hcs : cs.getLast? = some ' ')
    (hcs' : cs'.getLast? = some ' ') (h : cs ++ (toString m).toList = cs' ++ (toString n).toList) :
    cs = cs' ∧ m = n := by
  -- Read from its end, a text is divided where the digits end.
  have hdivided {cs : List Char} (hcs : cs.getLast? = some ' ') (n : Nat) :
      ((toString n).toList.reverse ++ cs.reverse).takeWhile Char.isDigit =
          (toString n).toList.reverse ∧
        ((toString n).toList.reverse ++ cs.reverse).dropWhile Char.isDigit = cs.reverse := by
    refine Lexeme.takeWhile_append_of_ends
      (fun c hc => isDigit_toString n c (List.mem_reverse.mp hc)) fun d hd => ?_
    rw [List.head?_reverse, hcs] at hd
    cases hd
    rfl
  have hreverse := congrArg List.reverse h
  rw [List.reverse_append, List.reverse_append] at hreverse
  obtain ⟨hdigits, htext⟩ := hdivided hcs m
  obtain ⟨hdigits', htext'⟩ := hdivided hcs' n
  rw [hreverse] at hdigits htext
  refine ⟨List.reverse_inj.mp (htext.symm.trans htext'), ?_⟩
  have hsame : toString m = toString n :=
    String.toList_inj.mp (List.reverse_inj.mp (hdigits.symm.trans hdigits'))
  rw [← numeral_toString m, hsame, numeral_toString]

namespace LexError

theorem toList_unrecognizedCharacter (c : Char) (offset : Nat) :
    (unrecognizedCharacter c offset).message.toList =
      "unrecognized character ".toList ++ (Text.quoteOne c).toList ++ " at position ".toList ++
        (toString offset).toList := by
  show String.toList ("unrecognized character " ++ Text.quoteOne c ++ " at position " ++ _) = _
  rw [String.toList_append, String.toList_append, String.toList_append]

theorem toList_unterminatedString (offset : Nat) :
    (unterminatedString offset).message.toList =
      "unterminated string literal starting at position ".toList ++ (toString offset).toList :=
  String.toList_append

theorem toList_unreadable (reason : String) :
    (unreadable reason).message.toList = "error reading expression: ".toList ++ reason.toList :=
  String.toList_append

/-- The first characters of a message, which tell the reason. -/
def opening : LexError → List Char
  | unrecognizedCharacter _ _ => ['u', 'n', 'r']
  | unterminatedString _ => ['u', 'n', 't']
  | unreadable _ => ['e', 'r', 'r']

theorem take_message (e : LexError) : e.message.toList.take 3 = e.opening := by
  cases e with
  | unrecognizedCharacter c offset =>
    rw [toList_unrecognizedCharacter, List.append_assoc, List.append_assoc,
      List.take_append_of_le_length (by decide)]
    rfl
  | unterminatedString offset =>
    rw [toList_unterminatedString, List.take_append_of_le_length (by decide)]
    rfl
  | unreadable reason =>
    rw [toList_unreadable, List.take_append_of_le_length (by decide)]
    rfl

theorem message_injective : Function.Injective message := by
  intro e e' h
  have hopening : e.opening = e'.opening := by
    rw [← e.take_message, h, e'.take_message]
  have h := congrArg String.toList h
  cases e with
  | unrecognizedCharacter c offset =>
    cases e' with
    | unrecognizedCharacter c' offset' =>
      rw [toList_unrecognizedCharacter, toList_unrecognizedCharacter] at h
      obtain ⟨htext, rfl⟩ := append_toString_inj (by rw [List.getLast?_append]; rfl)
        (by rw [List.getLast?_append]; rfl) h
      have hquoted := List.append_cancel_left (List.append_cancel_right htext)
      rw [Text.quoteOne_injective (String.toList_inj.mp hquoted)]
    | unterminatedString | unreadable => cases hopening
  | unterminatedString offset =>
    cases e' with
    | unterminatedString offset' =>
      rw [toList_unterminatedString, toList_unterminatedString] at h
      rw [(append_toString_inj (by decide) (by decide) h).2]
    | unrecognizedCharacter | unreadable => cases hopening
  | unreadable reason =>
    cases e' with
    | unreadable reason' =>
      rw [toList_unreadable, toList_unreadable] at h
      rw [String.toList_inj.mp (List.append_cancel_left h)]
    | unrecognizedCharacter | unterminatedString => cases hopening

end LexError

end ExprLang
