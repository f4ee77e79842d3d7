import ExprLang.Proofs.Addition
import ExprLang.Proofs.BytePositions
import ExprLang.Proofs.ModularArithmetic

/-!
# Cutting and searching strings

The built-in function `substring` gives the bytes between two positions, where both are usable, and fails
otherwise. So a string that can be cut in two is put together again by `concat`. The built-in function
`instring` gives the first position at which the bytes of one string stand in another one, and there
`substring` finds them.

Main statements: `invoke_substring`, `invoke_instring`.
-/

namespace ExprLang

variable {V : Vocabulary} {host : Host V} {stamp : Nat}

/-! ## Positions -/

namespace Text

theorem utf8_injective : Function.Injective utf8 := by
  intro s t h
  exact String.toByteArray_inj.mp (ByteArray.ext (Array.toList_inj.mp h))

/-- The bytes of a string from one position up to another can be had. -/
structure Cuts (s : String) (start stop : Int) : Prop where
  nonneg : 0 ≤ start
  ordered : start ≤ stop
  inside : stop ≤ (utf8 s).length
  valid_start : String.Pos.Raw.IsValid s ⟨start.toNat⟩
  valid_stop : String.Pos.Raw.IsValid s ⟨stop.toNat⟩

theorem length_of_isValid {s : String} {n : Nat} (h : String.Pos.Raw.IsValid s ⟨n⟩) :
    n ≤ (utf8 s).length :=
  h.le_utf8ByteSize

theorem cuts_iff {s : String} {start stop : Int} (hstart : 0 ≤ start) (hstop : 0 ≤ stop) :
    Cuts s start stop ↔ ∃ slice, sliceBytes start.toNat stop.toNat s.toList = some slice := by
  rw [exists_sliceBytes_iff]
  constructor
  · intro h
    have hordered := h.ordered
    exact ⟨by omega, h.valid_start, h.valid_stop⟩
  · rintro ⟨hle, hvalid, hvalid'⟩
    have hinside := length_of_isValid hvalid'
    exact ⟨hstart, by omega, by omega, hvalid, hvalid'⟩

/-- A position from which the rest of a string can be had is one up to which its front can be had. -/
theorem cuts_front_iff_cuts_back {s : String} {n : Int} (hn : 0 ≤ n) :
    Cuts s 0 n ↔ Cuts s n (utf8 s).length := by
  constructor
  · intro h
    exact ⟨hn, h.inside, Int.le_refl _, h.valid_stop, String.Pos.Raw.isValid_rawEndPos⟩
  · intro h
    exact ⟨Int.le_refl 0, hn, h.ordered, String.Pos.Raw.isValid_zero, h.valid_start⟩

end Text

/-! ## Cutting -/

namespace Strings

/-- Where a cut ends; an end below one stands for the end of the string. -/
def cutEnd (s : String) (stop : Int) : Int := if stop < 1 then (Text.utf8 s).length else stop

theorem cutEnd_nonneg (s : String) (stop : Int) : 0 ≤ cutEnd s stop := by
  unfold cutEnd
  split <;> omega

/-- Why nothing can be cut out between two positions. -/
def outOfRange (s : String) (start stop : Integer .int64) : String :=
  "substring: slice bounds [" ++ start.text ++ ":" ++ toString (cutEnd s stop.val) ++
    "] out of range for string of length " ++ toString (Text.utf8 s).length

theorem substring_eq (s : String) (start stop : Integer .int64) :
    substring s start stop =
      (if 0 ≤ start.val then
        Text.sliceBytes start.val.toNat (cutEnd s stop.val).toNat s.toList else none).elim
        (.error (outOfRange s start stop)) fun slice => .ok (String.ofList slice) := by
  unfold substring outOfRange cutEnd
  rw [Text.length_utf8]
  dsimp only
  split
  · rename_i hslice
    rw [hslice, Option.elim_some]
  · rename_i hslice
    rw [hslice, Option.elim_none]

theorem substring_of_cuts {s : String} {start stop : Integer .int64}
    (h : Text.Cuts s start.val (cutEnd s stop.val)) :
    ∃ t, substring s start stop = .ok t ∧
      Text.utf8 t = (Text.utf8 s).extract start.val.toNat (cutEnd s stop.val).toNat := by
  obtain ⟨slice, hslice⟩ := (Text.cuts_iff h.nonneg (cutEnd_nonneg s stop.val)).mp h
  refine ⟨String.ofList slice, ?_, Text.utf8_sliceBytes hslice⟩
  rw [substring_eq, if_pos h.nonneg, hslice]
  rfl

theorem substring_of_not_cuts {s : String} {start stop : Integer .int64}
    (h : ¬ Text.Cuts s start.val (cutEnd s stop.val)) :
    substring s start stop = .error (outOfRange s start stop) := by
  rw [substring_eq]
  by_cases hstart : 0 ≤ start.val
  · rw [Text.cuts_iff hstart (cutEnd_nonneg s stop.val), ← Option.isSome_iff_exists,
      Bool.not_eq_true, Option.isSome_eq_false_iff, Option.isNone_iff_eq_none] at h
    rw [if_pos hstart, h]
    rfl
  · rw [if_neg hstart]
    rfl

/-- Also where a length is no int64, the lengths of the parts add up. -/
theorem len_append_represents (u w : String) :
    (len (u ++ w)).Represents ((len u).val + (len w).val) := by
  have hlength : (Text.byteLength (u ++ w).toList : Int) =
      Text.byteLength u.toList + Text.byteLength w.toList := by
    rw [String.toList_append, Text.byteLength_append, Int.natCast_add]
  have hu : (len u).Represents (Text.byteLength u.toList) := Integer.wrap_represents _ _
  have hw : (len w).Represents (Text.byteLength w.toList) := Integer.wrap_represents _ _
  have huw : (len (u ++ w)).Represents (Text.byteLength (u ++ w).toList) :=
    Integer.wrap_represents _ _
  rw [hlength] at huw
  exact huw.trans (hu.add hw).symm

end Strings

/-! ## Calls -/

namespace Builtin

theorem invoke_substring_eq (s : String) (start stop : Integer .int64) :
    (substring.toFunction stamp).invoke host [.string s, .int64 start, .int64 stop] =
      (Outcome.ofExcept ((Strings.substring s start stop).map .string)).toExcept :=
  rfl

theorem gives_len (s : String) : len.Gives host stamp [.string s] (.int64 (Strings.len s)) := rfl

theorem gives_instring (s t : String) :
    instring.Gives host stamp [.string s, .string t] (.int64 (Strings.instring s t)) := rfl

theorem gives_concat (host : Host V) (stamp : Nat) (strings : List String) :
    concat.Gives host stamp (strings.map .string) (.string (String.join strings)) := by
  have hconcat := gives_concat_ofText host stamp (strings.map some)
  rw [List.map_map, List.map_map] at hconcat
  have hid : ((fun t : Option String => t.getD "") ∘ some) = id := rfl
  rw [hid, List.map_id] at hconcat
  exact hconcat

/-- A string is cut in two at a position: what is in front of it and what is behind it. -/
structure Splits (host : Host V) (stamp : Nat) (s : String) (k : Integer .int64) (u w : String) :
    Prop where
  front : substring.Gives host stamp [.string s, .int64 (.wrap _ 0), .int64 k] (.string u)
  back : substring.Gives host stamp [.string s, .int64 k, .int64 (.wrap _ 0)] (.string w)
  joined : concat.Gives host stamp [.string u, .string w] (.string s)
  lengths : (Text.utf8 u).length + (Text.utf8 w).length = (Text.utf8 s).length
  added : ∃ m n l : Value V, len.Gives host stamp [.string u] m ∧ len.Gives host stamp [.string w] n ∧
    len.Gives host stamp [.string s] l ∧ (arithmetic .add).Gives host stamp [m, n] l

/-- Nothing is cut out, and the call says why. -/
def FailsToCut (host : Host V) (stamp : Nat) (s : String) (start stop : Integer .int64) : Prop :=
  (substring.toFunction stamp).invoke host [.string s, .int64 start, .int64 stop] =
    .error (.failed (Strings.outOfRange s start stop))

theorem gives_substring_of_cuts (host : Host V) (stamp : Nat) {s : String}
    {start stop : Integer .int64} (h : Text.Cuts s start.val (Strings.cutEnd s stop.val)) :
    ∃ t, substring.Gives host stamp [.string s, .int64 start, .int64 stop] (.string t) ∧
      Text.utf8 t = (Text.utf8 s).extract start.val.toNat (Strings.cutEnd s stop.val).toNat := by
  obtain ⟨t, ht, hbytes⟩ := Strings.substring_of_cuts h
  refine ⟨t, ?_, hbytes⟩
  rw [Gives, invoke_substring_eq, ht]
  rfl

theorem failsToCut_of_not_cuts {s : String} {start stop : Integer .int64}
    (h : ¬ Text.Cuts s start.val (Strings.cutEnd s stop.val)) :
    FailsToCut host stamp s start stop := by
  rw [FailsToCut, invoke_substring_eq, Strings.substring_of_not_cuts h]
  rfl

theorem splits_of_utf8 {s u w : String} {k : Integer .int64}
    (hfront : substring.Gives host stamp [.string s, .int64 (.wrap _ 0), .int64 k] (.string u))
    (hback : substring.Gives host stamp [.string s, .int64 k, .int64 (.wrap _ 0)] (.string w))
    (hbytes : Text.utf8 u ++ Text.utf8 w = Text.utf8 s) : Splits host stamp s k u w := by
  have hs : u ++ w = s := by
    apply Text.utf8_injective
    rw [Text.utf8_append, hbytes]
  subst hs
  have hlengths : (Text.utf8 u).length + (Text.utf8 w).length = (Text.utf8 (u ++ w)).length := by
    rw [Text.utf8_append, List.length_append]
  refine ⟨hfront, hback, ?_, hlengths, _, _, _, gives_len u, gives_len w, gives_len (u ++ w), ?_⟩
  · have hconcat := gives_concat host stamp [u, w]
    rw [String.join_cons, String.join_cons, String.join_nil, String.append_empty] at hconcat
    exact hconcat
  · exact gives_arithmetic_iff.mpr ⟨nofun, _, rfl, Strings.len_append_represents u w⟩

theorem splits_or_fails (s : String) {k : Integer .int64} (hk : 1 ≤ k.val) :
    (∃ u w, Splits host stamp s k u w) ∨
      (FailsToCut host stamp s (.wrap _ 0) k ∧ FailsToCut host stamp s k (.wrap _ 0)) := by
  have hend : Strings.cutEnd s k.val = k.val := if_neg (by omega)
  have hcuts : Text.Cuts s (Integer.wrap .int64 0).val (Strings.cutEnd s k.val) ↔
      Text.Cuts s k.val (Strings.cutEnd s (Integer.wrap .int64 0).val) := by
    rw [hend]
    exact Text.cuts_front_iff_cuts_back (by omega)
  by_cases hfront : Text.Cuts s (Integer.wrap .int64 0).val (Strings.cutEnd s k.val)
  · obtain ⟨u, hu, hubytes⟩ := gives_substring_of_cuts host stamp hfront
    obtain ⟨w, hw, hwbytes⟩ := gives_substring_of_cuts host stamp (hcuts.mp hfront)
    refine .inl ⟨u, w, splits_of_utf8 hu hw ?_⟩
    have hzero : (Integer.wrap .int64 0).val.toNat = 0 := rfl
    have hlength : Strings.cutEnd s (Integer.wrap .int64 0).val = (Text.utf8 s).length := rfl
    rw [hubytes, hwbytes, hend, hzero, hlength, Int.toNat_natCast, List.extract_eq_take_drop,
      List.extract_eq_take_drop, List.drop_zero, Nat.sub_zero, ← List.length_drop, List.take_length,
      List.take_append_drop]
  · exact .inr ⟨failsToCut_of_not_cuts hfront, failsToCut_of_not_cuts (hcuts.not.mp hfront)⟩

end Builtin

/-- A part is had exactly if there is one between the two positions, and it consists of the bytes there.
A string is cut in two at a position, or neither part can be had. -/
theorem invoke_substring (host : Host V) (stamp : Nat) (s : String) :
    (∀ start stop : Integer .int64,
      (Text.Cuts s start.val (Strings.cutEnd s stop.val) →
        ∃ t, Builtin.substring.Gives host stamp [.string s, .int64 start, .int64 stop] (.string t) ∧
          Text.utf8 t = (Text.utf8 s).extract start.val.toNat (Strings.cutEnd s stop.val).toNat) ∧
      (¬ Text.Cuts s start.val (Strings.cutEnd s stop.val) →
        Builtin.FailsToCut host stamp s start stop)) ∧
    ∀ k : Integer .int64, 1 ≤ k.val →
      (∃ u w, Builtin.Splits host stamp s k u w) ∨
        (Builtin.FailsToCut host stamp s (.wrap _ 0) k ∧
          Builtin.FailsToCut host stamp s k (.wrap _ 0)) :=
  ⟨fun _ _ => ⟨Builtin.gives_substring_of_cuts host stamp, Builtin.failsToCut_of_not_cuts⟩,
    fun _ => Builtin.splits_or_fails s⟩

/-- The second character takes two bytes. -/
theorem invoke_substring_accent :
    Text.Cuts "né" 1 (Strings.cutEnd "né" 0) ∧
      ∃ t, Builtin.substring.Gives (V := .empty) .empty 0
          [.string "né", .int64 (.wrap _ 1), .int64 (.wrap _ 0)] (.string t) ∧
        Text.utf8 t = [0xC3, 0xA9] := by
  have hcuts : Text.Cuts "né" 1 (Strings.cutEnd "né" 0) :=
    ⟨by decide, by decide, by decide, by decide, by decide⟩
  have hbytes : (Text.utf8 "né").extract 1 (Strings.cutEnd "né" 0).toNat = [0xC3, 0xA9] := by
    decide
  refine ⟨hcuts, ?_⟩
  rw [← hbytes]
  exact ((invoke_substring .empty 0 "né").1 (.wrap _ 1) (.wrap _ 0)).1 hcuts

/-! ## Searching -/

/-- The length of the string is a 64-bit integer. No string in memory is longer. -/
def Text.IsMeasured (s : String) : Prop := IntKind.int64.Holds (Text.utf8 s).length

instance (s : String) : Decidable (Text.IsMeasured s) :=
  inferInstanceAs (Decidable (IntKind.int64.Holds _))

theorem Text.StandsAt.add_length_le {ps cs : List Char} {n : Nat} (h : Text.StandsAt ps cs n) :
    n + Text.byteLength ps ≤ Text.byteLength cs := by
  obtain ⟨before, after, rfl, rfl⟩ := h
  rw [byteLength_append, byteLength_append]
  omega

theorem Text.IsMeasured.val_wrap {s : String} (hs : Text.IsMeasured s) {n : Nat}
    (h : n ≤ Text.byteLength s.toList) : (Integer.wrap .int64 n).val = n := by
  rw [← length_utf8] at h
  have hlower : IntKind.int64.lower ≤ 0 := by decide
  have hupper := hs.2
  exact Integer.val_wrap_eq_iff.mpr ⟨by omega, by omega⟩

namespace Strings

theorem instring_cases {s : String} (hs : Text.IsMeasured s) (t : String) :
    (∃ n : Nat, (instring s t).val = n ∧ IsLeast {m | Text.StandsAt t.toList s.toList m} n) ∨
      ((instring s t).val = -1 ∧ ∀ n, ¬ Text.StandsAt t.toList s.toList n) := by
  unfold instring
  rcases Text.findBytes_cases t.toList s.toList with ⟨n, hfind, hleast⟩ | ⟨hfind, hnot⟩
  · have hlength := hleast.1.add_length_le
    rw [hfind]
    exact .inl ⟨n, hs.val_wrap (by omega), hleast⟩
  · rw [hfind]
    exact .inr ⟨rfl, hnot⟩

theorem instring_empty (s : String) : instring s "" = .wrap .int64 0 := by
  rw [instring]
  cases s.toList with
  | nil => rfl
  | cons c cs => rfl

theorem substring_of_standsAt {s t : String} {start stop : Integer .int64} {n : Nat}
    (h : Text.StandsAt t.toList s.toList n) (ht : t ≠ "") (hstart : start.val = n)
    (hstop : stop.val = n + Text.byteLength t.toList) : substring s start stop = .ok t := by
  have hpos : Text.byteLength t.toList ≠ 0 := fun hzero =>
    ht (String.toList_eq_nil_iff.mp (Text.byteLength_eq_zero_iff.mp hzero))
  have hend : cutEnd s stop.val = ((n + Text.byteLength t.toList : Nat) : Int) := by
    rw [cutEnd, if_neg (by omega), hstop, Int.natCast_add]
  rw [substring_eq, hend, hstart, if_pos (Int.natCast_nonneg n), Int.toNat_natCast,
    Int.toNat_natCast, Text.sliceBytes_eq_some_iff.mpr ⟨h, rfl⟩]
  exact congrArg Except.ok String.ofList_toList

end Strings

/-- A position is where `t` stands first in `s`, and there it can be cut out of `s`. -/
structure Builtin.FirstAt (host : Host V) (stamp : Nat) (t s : String) (i : Integer .int64) : Prop where
  nonneg : 0 ≤ i.val
  least : IsLeast {n | Text.OccursAt t s n} i.val.toNat
  found : ∃ l j : Integer .int64, len.Gives host stamp [.string t] (.int64 l) ∧
    (arithmetic .add).Gives host stamp [.int64 i, .int64 l] (.int64 j) ∧
    substring.Gives host stamp [.string s, .int64 i, .int64 j] (.string t)

namespace Builtin

theorem firstAt_of_isLeast {s t : String} (hs : Text.IsMeasured s) (ht : t ≠ "")
    {i : Integer .int64} {n : Nat} (hi : i.val = n)
    (hleast : IsLeast {m | Text.StandsAt t.toList s.toList m} n) : FirstAt host stamp t s i := by
  have hwithin := hleast.1.add_length_le
  have hlen : (Strings.len t).val = Text.byteLength t.toList := hs.val_wrap (by omega)
  have hsum : i.val + (Strings.len t).val = ((n + Text.byteLength t.toList : Nat) : Int) := by
    rw [hi, hlen, Int.natCast_add]
  refine ⟨by omega, ?_, Strings.len t, .wrap _ (i.val + (Strings.len t).val), gives_len t, ?_, ?_⟩
  · rw [hi, Int.toNat_natCast]
    simpa only [Text.occursAt_iff ht] using hleast
  · exact gives_arithmetic_iff.mpr ⟨nofun, _, rfl, Integer.wrap_represents _ _⟩
  · rw [Gives, invoke_substring_eq, Strings.substring_of_standsAt hleast.1 ht hi]
    · rfl
    · rw [hsum, hs.val_wrap hwithin, Int.natCast_add]

end Builtin

/-- A search answers -1 where the string does not occur, and else the first position at which it does,
where it can be cut out. The empty string is found at once, and what was put into a string is found no
later than where it was put. -/
theorem invoke_instring (host : Host V) (stamp : Nat) :
    (∀ s t, Text.IsMeasured s → t ≠ "" →
      ∃ i : Integer .int64, Builtin.instring.Gives host stamp [.string s, .string t] (.int64 i) ∧
        ((i.val = -1 ∧ ∀ n, ¬ Text.OccursAt t s n) ∨ Builtin.FirstAt host stamp t s i)) ∧
    (∀ s, Builtin.instring.Gives host stamp [.string s, .string ""] (.int64 (.wrap _ 0))) ∧
    ∀ a t b, Text.IsMeasured (a ++ t ++ b) →
      ∃ (s : String) (i l : Integer .int64),
        Builtin.concat.Gives host stamp [.string a, .string t, .string b] (.string s) ∧
        Builtin.instring.Gives host stamp [.string s, .string t] (.int64 i) ∧
        Builtin.len.Gives host stamp [.string a] (.int64 l) ∧ 0 ≤ i.val ∧ i.val ≤ l.val := by
  refine ⟨fun s t hs ht => ?_, fun s => ?_, fun a t b hs => ?_⟩
  · refine ⟨_, Builtin.gives_instring s t, ?_⟩
    rcases Strings.instring_cases hs t with ⟨n, hn, hleast⟩ | ⟨hval, hnot⟩
    · exact .inr (Builtin.firstAt_of_isLeast hs ht hn hleast)
    · refine .inl ⟨hval, fun n hn => hnot n ((Text.occursAt_iff ht).mp hn)⟩
  · rw [← Strings.instring_empty s]
    exact Builtin.gives_instring s ""
  · have hconcat := Builtin.gives_concat host stamp [a, t, b]
    have hjoin : String.join [a, t, b] = a ++ t ++ b := by
      rw [String.join_cons, String.join_cons, String.join_cons, String.join_nil,
        String.append_empty, String.append_assoc]
    rw [hjoin] at hconcat
    have hstands : Text.StandsAt t.toList (a ++ t ++ b).toList (Text.byteLength a.toList) :=
      ⟨a.toList, b.toList, by simp only [String.toList_append, List.append_assoc], rfl⟩
    have hlen : (Strings.len a).val = Text.byteLength a.toList :=
      hs.val_wrap (Nat.le_of_add_right_le hstands.add_length_le)
    refine ⟨_, _, _, hconcat, Builtin.gives_instring _ t, Builtin.gives_len a, ?_⟩
    rcases Strings.instring_cases hs t with ⟨n, hn, hleast⟩ | ⟨-, hnot⟩
    · have hle := hleast.2 hstands
      omega
    · exact absurd hstands (hnot _)

/-- Positions count bytes: the first character takes two. -/
theorem invoke_instring_accent :
    (Text.IsMeasured "élan" ∧ "an" ≠ "") ∧
      ∃ i : Integer .int64,
        Builtin.instring.Gives (V := .empty) .empty 0 [.string "élan", .string "an"] (.int64 i) ∧
        ((i.val = -1 ∧ ∀ n, ¬ Text.OccursAt "an" "élan" n) ∨
          Builtin.FirstAt (V := .empty) .empty 0 "an" "élan" i) := by
  have hmeasured : Text.IsMeasured "élan" := by decide
  exact ⟨⟨hmeasured, by decide⟩,
    (invoke_instring .empty 0).1 "élan" "an" hmeasured (by decide)⟩

end ExprLang
