import ExprLang.Proofs.ByteOrder
import ExprLang.Text.Bytes
import Mathlib.Order.Bounds.Basic

/-!
# Positions in a text

A position counts the bytes in front of it, and is usable where a character ends (`String.Pos.Raw.IsValid`).
Cutting a text at two such positions gives exactly the bytes between them. Searching goes from character
to character, and that is enough: the first byte of a character is no byte inside of another one, so that
the bytes of a text stand in another text only where its characters do.

Main statements: `exists_sliceBytes_iff`, `utf8_sliceBytes`, `occursAt_iff`, `findBytes_cases`.
-/

namespace ExprLang.Text

/-! ## Lengths -/

theorem byteLength_append (cs ds : List Char) :
    byteLength (cs ++ ds) = byteLength cs + byteLength ds := by
  induction cs with
  | nil => simp [byteLength]
  | cons c cs ih =>
    rw [List.cons_append, byteLength, byteLength, ih, Nat.add_assoc]

theorem byteLength_eq_zero_iff {cs : List Char} : byteLength cs = 0 ↔ cs = [] := by
  cases cs with
  | nil => exact iff_of_true rfl rfl
  | cons c cs =>
    have hpos := c.utf8Size_pos
    refine iff_of_false ?_ (List.cons_ne_nil _ _)
    rw [byteLength]
    omega

theorem length_flatMap_utf8EncodeChar (cs : List Char) :
    (cs.flatMap String.utf8EncodeChar).length = byteLength cs := by
  induction cs with
  | nil => rfl
  | cons c cs ih =>
    rw [List.flatMap_cons, List.length_append, ih, String.length_utf8EncodeChar, byteLength]

theorem length_utf8 (s : String) : (utf8 s).length = byteLength s.toList := by
  rw [utf8_eq_flatMap, length_flatMap_utf8EncodeChar]

theorem utf8_append (s t : String) : utf8 (s ++ t) = utf8 s ++ utf8 t := by
  simp only [utf8_eq_flatMap, String.toList_append, List.flatMap_append]

/-! ## Cutting -/

/-- The characters `ps` stand in `cs`, from a position on. -/
def StandsAt (ps cs : List Char) (n : Nat) : Prop :=
  ∃ before after, cs = before ++ (ps ++ after) ∧ byteLength before = n

theorem takeBytes_eq_some_iff {n : Nat} {cs taken : List Char} :
    takeBytes n cs = some taken ↔ taken <+: cs ∧ byteLength taken = n := by
  induction cs generalizing n taken with
  | nil =>
    rw [takeBytes, List.prefix_nil]
    constructor
    · intro h
      split at h
      · rename_i hn
        cases h
        exact ⟨rfl, hn.symm⟩
      · cases h
    · rintro ⟨rfl, rfl⟩
      rfl
  | cons c cs ih =>
    have hpos := c.utf8Size_pos
    rw [takeBytes]
    constructor
    · intro h
      split at h
      · rename_i hn
        cases h
        exact ⟨List.nil_prefix, hn.symm⟩
      · split at h
        · rename_i hle
          obtain ⟨taken, htaken, rfl⟩ := Option.map_eq_some_iff.mp h
          obtain ⟨hstarts, hlength⟩ := ih.mp htaken
          refine ⟨List.cons_prefix_cons.mpr ⟨rfl, hstarts⟩, ?_⟩
          rw [byteLength]
          omega
        · cases h
    · rintro ⟨hstarts, rfl⟩
      cases taken with
      | nil => rfl
      | cons d taken =>
        obtain ⟨rfl, htaken⟩ := List.cons_prefix_cons.mp hstarts
        rw [byteLength, if_neg (by omega), if_pos (by omega), Nat.add_sub_cancel_left,
          ih.mpr ⟨htaken, rfl⟩]
        rfl

theorem dropBytes_eq (n : Nat) (cs : List Char) :
    dropBytes n cs = (takeBytes n cs).map fun taken => cs.drop taken.length := by
  induction cs generalizing n with
  | nil =>
    rw [dropBytes, takeBytes]
    split <;> rfl
  | cons c cs ih =>
    rw [dropBytes, takeBytes]
    split
    · rfl
    · split
      · rw [ih, Option.map_map]
        rfl
      · rfl

theorem dropBytes_eq_some_iff {n : Nat} {cs rest : List Char} :
    dropBytes n cs = some rest ↔ ∃ before, cs = before ++ rest ∧ byteLength before = n := by
  rw [dropBytes_eq, Option.map_eq_some_iff]
  constructor
  · rintro ⟨before, hbefore, rfl⟩
    obtain ⟨⟨after, rfl⟩, hlength⟩ := takeBytes_eq_some_iff.mp hbefore
    exact ⟨before, by rw [List.drop_left], hlength⟩
  · rintro ⟨before, rfl, rfl⟩
    exact ⟨before, takeBytes_eq_some_iff.mpr ⟨List.prefix_append _ _, rfl⟩, List.drop_left⟩

theorem sliceBytes_eq_some_iff {start stop : Nat} {cs slice : List Char} :
    sliceBytes start stop cs = some slice ↔
      StandsAt slice cs start ∧ start + byteLength slice = stop := by
  unfold sliceBytes
  constructor
  · intro h
    split at h
    · rename_i hle
      obtain ⟨rest, hdrop, htake⟩ := Option.bind_eq_some_iff.mp h
      obtain ⟨before, rfl, hbefore⟩ := dropBytes_eq_some_iff.mp hdrop
      obtain ⟨⟨after, rfl⟩, hslice⟩ := takeBytes_eq_some_iff.mp htake
      exact ⟨⟨before, after, rfl, hbefore⟩, by omega⟩
    · cases h
  · rintro ⟨⟨before, after, rfl, rfl⟩, rfl⟩
    rw [if_pos (Nat.le_add_right _ _), Nat.add_sub_cancel_left,
      dropBytes_eq_some_iff.mpr ⟨before, rfl, rfl⟩, Option.bind_some]
    exact takeBytes_eq_some_iff.mpr ⟨List.prefix_append _ _, rfl⟩

theorem isValid_iff {s : String} {n : Nat} :
    String.Pos.Raw.IsValid s ⟨n⟩ ↔
      ∃ before after, s.toList = before ++ after ∧ byteLength before = n := by
  rw [String.Pos.Raw.isValid_iff_exists_append]
  constructor
  · rintro ⟨u, w, rfl, hn⟩
    refine ⟨u.toList, w.toList, String.toList_append, ?_⟩
    rw [← length_utf8]
    exact (congrArg String.Pos.Raw.byteIdx hn).symm
  · rintro ⟨before, after, hs, rfl⟩
    refine ⟨String.ofList before, String.ofList after, ?_, ?_⟩
    · rw [← String.ofList_append, ← hs, String.ofList_toList]
    · rw [← String.toList_ofList (l := before), ← length_utf8, String.toList_ofList]
      rfl

theorem exists_sliceBytes_iff {s : String} {start stop : Nat} :
    (∃ slice, sliceBytes start stop s.toList = some slice) ↔
      start ≤ stop ∧ String.Pos.Raw.IsValid s ⟨start⟩ ∧ String.Pos.Raw.IsValid s ⟨stop⟩ := by
  simp only [sliceBytes_eq_some_iff, isValid_iff]
  constructor
  · rintro ⟨slice, ⟨before, after, hs, rfl⟩, rfl⟩
    refine ⟨Nat.le_add_right _ _, ⟨before, _, hs, rfl⟩, before ++ slice, after, ?_, ?_⟩
    · rw [hs, List.append_assoc]
    · exact byteLength_append before slice
  · rintro ⟨hle, ⟨before, rest, hs, rfl⟩, upTo, after, hs', rfl⟩
    have hsplit := hs.symm.trans hs'
    rcases List.append_eq_append_iff.mp hsplit with ⟨slice, rfl, rfl⟩ | ⟨excess, rfl, -⟩
    · exact ⟨slice, ⟨before, after, hs, rfl⟩, (byteLength_append before slice).symm⟩
    · -- The end is not in front of the start, so nothing is between them.
      rw [byteLength_append] at hle
      obtain rfl : excess = [] := byteLength_eq_zero_iff.mp (by omega)
      rw [List.append_nil] at hs ⊢
      exact ⟨[], ⟨upTo, rest, hs, rfl⟩, rfl⟩

theorem utf8_sliceBytes {s : String} {start stop : Nat} {slice : List Char}
    (h : sliceBytes start stop s.toList = some slice) :
    utf8 (String.ofList slice) = (utf8 s).extract start stop := by
  obtain ⟨⟨before, after, hs, rfl⟩, rfl⟩ := sliceBytes_eq_some_iff.mp h
  rw [List.extract_eq_take_drop, utf8_eq_flatMap, utf8_eq_flatMap, hs, String.toList_ofList,
    List.flatMap_append, List.flatMap_append, ← length_flatMap_utf8EncodeChar before, List.drop_left,
    Nat.add_sub_cancel_left, ← length_flatMap_utf8EncodeChar slice, List.take_left]

/-! ## Occurrences -/

/-- The bytes of `t` stand in those of `s`, from a position on. -/
def OccursAt (t s : String) (n : Nat) : Prop :=
  ∃ before after, utf8 s = before ++ (utf8 t ++ after) ∧ before.length = n

theorem eq_nil_of_firstByte {c : Char} {before after : List UInt8} {b : UInt8}
    (hfirst : b.IsUTF8FirstByte) (h : String.utf8EncodeChar c = before ++ b :: after) :
    before = [] := by
  have hlt : before.length < (String.utf8EncodeChar c).length := by
    rw [h, List.length_append, List.length_cons]
    omega
  have hbyte : (String.utf8EncodeChar c)[before.length] = b := by
    simp only [h, List.getElem_append_right (Nat.le_refl _), Nat.sub_self, List.getElem_cons_zero]
  exact List.length_eq_zero_iff.mp
    (UInt8.isUTF8FirstByte_getElem_utf8EncodeChar.mp (hbyte ▸ hfirst))

theorem exists_firstByte (c : Char) :
    ∃ b after, String.utf8EncodeChar c = b :: after ∧ b.IsUTF8FirstByte := by
  have hfirst := UInt8.isUTF8FirstByte_getElem_zero_utf8EncodeChar (c := c)
  cases hbytes : String.utf8EncodeChar c with
  | nil => exact absurd hbytes String.utf8EncodeChar_ne_nil
  | cons b after =>
    simp only [hbytes, List.getElem_cons_zero] at hfirst
    exact ⟨b, after, rfl, hfirst⟩

/-- Characters whose bytes stand among the bytes of others stand among these others. -/
theorem standsAt_of_utf8 {cs : List Char} {p : Char} {ps : List Char}
    {before after : List UInt8}
    (h : cs.flatMap String.utf8EncodeChar =
      before ++ ((p :: ps).flatMap String.utf8EncodeChar ++ after)) :
    StandsAt (p :: ps) cs before.length := by
  obtain ⟨b, others, hp, hfirst⟩ := exists_firstByte p
  induction cs generalizing before with
  | nil =>
    rw [List.flatMap_nil, List.flatMap_cons, hp] at h
    simp at h
  | cons c cs ih =>
    by_cases hbefore : before = []
    · subst hbefore
      have hstarts : p :: ps <+: c :: cs := by
        refine List.isPrefix_of_utf8Encode_append_eq_utf8Encode after.toByteArray ?_
        rw [List.utf8Encode, List.utf8Encode, h, List.nil_append, List.toByteArray_append]
      obtain ⟨ws, hws⟩ := hstarts
      exact ⟨[], ws, hws.symm, rfl⟩
    · rw [List.flatMap_cons] at h
      -- The first byte of the pattern is not inside of `c`: all of `c` is in front of it.
      have hsplit : ∃ inner, before = String.utf8EncodeChar c ++ inner ∧
          cs.flatMap String.utf8EncodeChar =
            inner ++ ((p :: ps).flatMap String.utf8EncodeChar ++ after) := by
        rcases List.append_eq_append_iff.mp h with hsplit | ⟨_ | ⟨b', inner⟩, hc, hinner⟩
        · exact hsplit
        · rw [List.append_nil] at hc
          exact ⟨[], by rw [hc, List.append_nil], hinner.symm⟩
        · rw [List.flatMap_cons, hp, List.cons_append, List.cons_append, List.cons_append,
            List.cons.injEq] at hinner
          exact absurd (eq_nil_of_firstByte (hinner.1 ▸ hfirst) hc) hbefore
      obtain ⟨inner, rfl, hcs⟩ := hsplit
      obtain ⟨us, ws, rfl, hlength⟩ := ih hcs
      refine ⟨c :: us, ws, rfl, ?_⟩
      rw [byteLength, hlength, List.length_append, String.length_utf8EncodeChar]

/-- A text with a character in it occurs where its characters do, hence at usable positions only. -/
theorem occursAt_iff {t s : String} {n : Nat} (ht : t ≠ "") :
    OccursAt t s n ↔ StandsAt t.toList s.toList n := by
  cases hchars : t.toList with
  | nil => exact absurd (String.toList_eq_nil_iff.mp hchars) ht
  | cons p ps =>
    unfold OccursAt
    rw [utf8_eq_flatMap, utf8_eq_flatMap, hchars]
    constructor
    · rintro ⟨before, after, h, rfl⟩
      exact standsAt_of_utf8 h
    · rintro ⟨before, after, h, rfl⟩
      refine ⟨before.flatMap String.utf8EncodeChar, after.flatMap String.utf8EncodeChar, ?_,
        length_flatMap_utf8EncodeChar before⟩
      rw [h, List.flatMap_append, List.flatMap_append]

/-! ## Searching -/

theorem findBytes_cases (pattern cs : List Char) :
    (∃ n, findBytes pattern cs = some n ∧ IsLeast {m | StandsAt pattern cs m} n) ∨
      (findBytes pattern cs = none ∧ ∀ n, ¬ StandsAt pattern cs n) := by
  induction cs with
  | nil =>
    cases pattern with
    | nil => exact .inl ⟨0, rfl, ⟨[], [], rfl, rfl⟩, fun _ _ => Nat.zero_le _⟩
    | cons p ps =>
      refine .inr ⟨rfl, ?_⟩
      rintro n ⟨before, after, h, -⟩
      simp at h
  | cons c cs ih =>
    rw [findBytes]
    by_cases hstarts : pattern.isPrefixOf (c :: cs) = true
    · obtain ⟨after, hafter⟩ := List.isPrefixOf_iff_prefix.mp hstarts
      rw [if_pos hstarts]
      exact .inl ⟨0, rfl, ⟨[], after, hafter.symm, rfl⟩, fun _ _ => Nat.zero_le _⟩
    · rw [if_neg hstarts]
      -- Where the pattern stands, it stands behind `c`.
      have hbehind : ∀ n, StandsAt pattern (c :: cs) n →
          ∃ m, StandsAt pattern cs m ∧ n = m + c.utf8Size := by
        rintro n ⟨_ | ⟨d, before⟩, after, h, rfl⟩
        · exact absurd (List.isPrefixOf_iff_prefix.mpr ⟨after, h.symm⟩) hstarts
        · rw [List.cons_append, List.cons.injEq] at h
          exact ⟨_, ⟨before, after, h.2, rfl⟩, by rw [byteLength, h.1, Nat.add_comm]⟩
      rcases ih with ⟨n, hfind, ⟨before, after, rfl, rfl⟩, hleast⟩ | ⟨hfind, hnot⟩
      · refine .inl ⟨byteLength before + c.utf8Size, by rw [hfind]; rfl,
          ⟨c :: before, after, rfl, Nat.add_comm _ _⟩, fun n hn => ?_⟩
        obtain ⟨m, hm, rfl⟩ := hbehind n hn
        exact Nat.add_le_add_right (hleast hm) _
      · refine .inr ⟨by rw [hfind]; rfl, fun n hn => ?_⟩
        obtain ⟨m, hm, -⟩ := hbehind n hn
        exact hnot m hm

end ExprLang.Text
