import Mathlib.Data.List.Lex
import Mathlib.Data.String.Basic

/-!
# The order of texts by bytes

Texts are in the order of their bytes in UTF-8 exactly if they are in the order of their characters. The
bytes of a smaller character are below those of a greater one before either of them ends, so whatever
follows has no say.

Main statement: `lt_iff_utf8_lt`.
-/

namespace ExprLang.Text

def utf8 (s : String) : List UInt8 := s.toUTF8.data.toList

theorem utf8_eq_flatMap (s : String) : utf8 s = s.toList.flatMap String.utf8EncodeChar := by
  have hbytes : s.toUTF8 = s.toList.utf8Encode := by
    rw [String.toUTF8_eq_toByteArray, ← String.toByteArray_ofList, String.ofList_toList]
  rw [utf8, hbytes]
  simp [List.utf8Encode]

/-- The first byte at which two sequences differ is smaller in the first one, and both have it. -/
inductive Below : List UInt8 → List UInt8 → Prop where
  | head {a b : UInt8} (u w : List UInt8) : a < b → Below (a :: u) (b :: w)
  | tail (a : UInt8) {u w : List UInt8} : Below u w → Below (a :: u) (a :: w)

theorem Below.append_lt {u w : List UInt8} (h : Below u w) (x y : List UInt8) :
    u ++ x < w ++ y := by
  induction h with
  | head u w hlt => exact .rel hlt
  | tail a _ ih => exact .cons ih

theorem below_ofNat {m n : Nat} {u w : List UInt8} (hn : n < 256) (hle : m ≤ n)
    (htail : m = n → Below u w) : Below (UInt8.ofNat m :: u) (UInt8.ofNat n :: w) := by
  rcases Nat.eq_or_lt_of_le hle with heq | hlt
  · subst heq
    exact .tail _ (htail rfl)
  · refine .head u w ?_
    rw [UInt8.lt_iff_toNat_lt, UInt8.toNat_ofNat', UInt8.toNat_ofNat']
    omega

/-- Characters that take one, two, three or four bytes differ in the first one. Those that take equally
many are numbers of so many digits, the highest digit first. -/
theorem below_utf8EncodeChar {c d : Char} (h : c < d) :
    Below (String.utf8EncodeChar c) (String.utf8EncodeChar d) := by
  have hlt : c.val.toNat < d.val.toNat := UInt32.lt_iff_toNat_lt.mp h
  have hmax : d.val.toNat < 1114112 := by
    have hvalid := d.valid
    unfold UInt32.isValidChar Nat.isValidChar at hvalid
    omega
  simp only [String.utf8EncodeChar]
  generalize c.val.toNat = m at hlt
  generalize d.val.toNat = n at hlt hmax
  by_cases h₁ : m ≤ 127
  · simp only [if_pos h₁]
    split_ifs <;> exact below_ofNat (by omega) (by omega) (by omega)
  · by_cases h₂ : m ≤ 2047
    · simp only [if_neg h₁, if_pos h₂]
      split_ifs
      · omega
      · refine below_ofNat (by omega) (by omega) fun _ => ?_
        exact below_ofNat (by omega) (by omega) (by omega)
      all_goals exact below_ofNat (by omega) (by omega) (by omega)
    · by_cases h₃ : m ≤ 65535
      · simp only [if_neg h₁, if_neg h₂, if_pos h₃]
        split_ifs
        · omega
        · omega
        · refine below_ofNat (by omega) (by omega) fun _ => ?_
          refine below_ofNat (by omega) (by omega) fun _ => ?_
          exact below_ofNat (by omega) (by omega) (by omega)
        · exact below_ofNat (by omega) (by omega) (by omega)
      · simp only [if_neg h₁, if_neg h₂, if_neg h₃]
        split_ifs
        · omega
        · omega
        · omega
        · refine below_ofNat (by omega) (by omega) fun _ => ?_
          refine below_ofNat (by omega) (by omega) fun _ => ?_
          refine below_ofNat (by omega) (by omega) fun _ => ?_
          exact below_ofNat (by omega) (by omega) (by omega)

theorem flatMap_lt_flatMap {cs ds : List Char} (h : cs < ds) :
    cs.flatMap String.utf8EncodeChar < ds.flatMap String.utf8EncodeChar := by
  induction h with
  | @nil d ds =>
    rw [List.flatMap_nil, List.flatMap_cons]
    cases hbytes : String.utf8EncodeChar d with
    | nil => exact absurd hbytes String.utf8EncodeChar_ne_nil
    | cons a u => exact .nil
  | cons _ ih =>
    rw [List.flatMap_cons, List.flatMap_cons]
    exact List.append_left_lt ih
  | rel hlt =>
    rw [List.flatMap_cons, List.flatMap_cons]
    exact (below_utf8EncodeChar hlt).append_lt _ _

theorem lt_iff_utf8_lt {s t : String} : s < t ↔ utf8 s < utf8 t := by
  have hmono : ∀ {s t : String}, s < t → utf8 s < utf8 t := by
    intro s t h
    rw [utf8_eq_flatMap, utf8_eq_flatMap]
    exact flatMap_lt_flatMap (String.lt_iff_toList_lt.mp h)
  constructor
  · exact hmono
  · intro h
    rcases lt_trichotomy s t with hlt | rfl | hgt
    · exact hlt
    · exact absurd h (List.lt_irrefl _)
    · exact absurd (hmono hgt) (List.lt_asymm h)

end ExprLang.Text
