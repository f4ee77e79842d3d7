import ExprLang.Proofs.Rounding
import ExprLang.Value.Render

/-!
# Floating-point literals

The literal of a finite positive number is digits, a point and digits, and it reads back as the number.
The shortest decimal is only taken if it reads back, and the search ends with the exact one, so this
holds wherever a number that is a whole count of units is nearest to itself. So the text of a number
also tells which number it is.

Main statements: `text_injective`, `literal_finite`.
-/

namespace ExprLang

variable {f : Format}

/-! ## The search for a decimal -/

namespace Format

theorem readsAs_decimalFrom {units : Nat} (hprecision : 0 < f.precision) (h : f.Represents units)
    (exponent : Int) (places : Nat) :
    f.readsAs units (f.decimalFrom units exponent places) = true := by
  induction places generalizing exponent with
  | zero =>
    have hexact : f.nearest (10 ^ f.scale * units) (10 ^ f.scale * 1) = units := by
      rw [nearest_mul_left (Nat.pow_pos (by decide)), nearest_of_represents hprecision h]
    have hnum : Decimal.num f ⟨units * 5 ^ f.scale, -f.scale⟩ = 10 ^ f.scale * units := by
      have hten : 10 ^ f.scale = 5 ^ f.scale * 2 ^ f.scale := by
        rw [← Nat.mul_pow]
      simp only [Decimal.num, Int.toNat_neg_natCast, Nat.pow_zero, Nat.mul_one, hten]
      rw [Nat.mul_assoc, Nat.mul_comm]
    have hden : Decimal.den ⟨units * 5 ^ f.scale, -f.scale⟩ = 10 ^ f.scale * 1 := by
      simp [Decimal.den]
    unfold readsAs decimalFrom
    rw [hnum, hden, hexact]
    exact decide_eq_true rfl
  | succ places ih =>
    rw [decimalFrom]
    split
    · rename_i d hd
      simp only [decimalAt?] at hd
      split at hd
      · exact List.find?_some hd
      · exact List.find?_some hd
    · exact ih (exponent - 1)

theorem nearest_shortest {units : Nat} (hprecision : 0 < f.precision) (h : f.Represents units) :
    f.nearest ((f.shortest units).num f) (f.shortest units).den = units :=
  of_decide_eq_true (readsAs_decimalFrom hprecision h _ _)

end Format

/-! ## The digits of a decimal -/

namespace Decimal

/-- A decimal as digits, a point and digits. -/
structure Shows (cs whole fraction : List Char) : Prop where
  text : cs = whole ++ '.' :: fraction
  ne_nil : whole ≠ []
  whole : ∀ c ∈ whole, c.isDigit = true
  fraction : ∀ c ∈ fraction, c.isDigit = true

theorem ofText_append {whole fraction : List Char} (h : ∀ c ∈ whole, c.isDigit = true) :
    ofText (whole ++ '.' :: fraction) =
      ⟨Nat.ofDigitChars 10 (whole ++ fraction) 0, -fraction.length⟩ := by
  have hpoint : ∀ c ∈ whole, (decide (c ≠ '.')) = true := by
    intro c hc
    refine decide_eq_true ?_
    rintro rfl
    exact absurd (h _ hc) (by decide)
  unfold ofText
  rw [List.takeWhile_append_of_pos hpoint, List.dropWhile_append_of_pos hpoint]
  simp

variable {d : Decimal}

theorem text_of_whole (hplaces : (-d.exponent).toNat = 0) :
    (∀ c ∈ d.text, c.isDigit = true) ∧ d.text ≠ [] ∧
      Nat.ofDigitChars 10 d.text 0 = 10 ^ d.exponent.toNat * d.coefficient := by
  have htext : d.text =
      Nat.toDigits 10 d.coefficient ++ List.replicate d.exponent.toNat '0' := if_pos hplaces
  rw [htext]
  refine ⟨fun c hc => ?_, ?_, ?_⟩
  · rcases List.mem_append.mp hc with hc | hc
    · exact Nat.isDigit_of_mem_toDigits (by decide) (by decide) hc
    · rw [List.eq_of_mem_replicate hc]
      rfl
  · exact List.append_ne_nil_of_left_ne_nil Nat.toDigits_ne_nil _
  · rw [Nat.ofDigitChars_append, Nat.ofDigitChars_ten_toDigits, Nat.ofDigitChars_replicate_zero]

theorem text_of_places (hplaces : (-d.exponent).toNat ≠ 0) :
    ∃ whole fraction, Shows d.text whole fraction ∧ fraction.length = (-d.exponent).toNat ∧
      Nat.ofDigitChars 10 (whole ++ fraction) 0 = d.coefficient := by
  obtain ⟨digits, hdigits⟩ : ∃ digits, digits =
      List.replicate ((-d.exponent).toNat + 1 - (Nat.toDigits 10 d.coefficient).length) '0' ++
        Nat.toDigits 10 d.coefficient := ⟨_, rfl⟩
  have htext : d.text = digits.take (digits.length - (-d.exponent).toNat) ++
      '.' :: digits.drop (digits.length - (-d.exponent).toNat) := by
    rw [hdigits]
    exact if_neg hplaces
  have hlength : (-d.exponent).toNat + 1 ≤ digits.length := by
    rw [hdigits, List.length_append, List.length_replicate]
    omega
  have hall : ∀ c ∈ digits, c.isDigit = true := by
    intro c hc
    rcases List.mem_append.mp (hdigits ▸ hc) with hc | hc
    · rw [List.eq_of_mem_replicate hc]
      rfl
    · exact Nat.isDigit_of_mem_toDigits (by decide) (by decide) hc
  refine ⟨_, _, ⟨htext, ?_, ?_, ?_⟩, ?_, ?_⟩
  · refine List.ne_nil_of_length_pos ?_
    rw [List.length_take]
    omega
  · exact fun c hc => hall c (List.mem_of_mem_take hc)
  · exact fun c hc => hall c (List.mem_of_mem_drop hc)
  · rw [List.length_drop]
    omega
  · rw [List.take_append_drop, hdigits, Nat.ofDigitChars_append, Nat.ofDigitChars_replicate_zero,
      Nat.mul_zero, Nat.ofDigitChars_ten_toDigits]

/-- The text of a decimal, with a point and a zero if it has no point. -/
def pointed (d : Decimal) : List Char := if '.' ∈ d.text then d.text else d.text ++ ['.', '0']

/-- A decimal with a point is digits, a point and digits, and means what the decimal means. -/
theorem shows_pointed (d : Decimal) :
    ∃ whole fraction, Shows d.pointed whole fraction ∧
      ∀ f : Format, f.nearest ((ofText (whole ++ '.' :: fraction)).num f)
        (ofText (whole ++ '.' :: fraction)).den = f.nearest (d.num f) d.den := by
  by_cases hplaces : (-d.exponent).toNat = 0
  · -- The zero behind the point expands the fraction by ten.
    obtain ⟨hall, hne, hvalue⟩ := d.text_of_whole hplaces
    have hpoint : '.' ∉ d.text := fun hc => absurd (hall _ hc) (by decide)
    refine ⟨d.text, ['0'], ⟨if_neg hpoint, hne, hall, by simp⟩, fun f => ?_⟩
    have hzero : Nat.ofDigitChars 10 (d.text ++ ['0']) 0 =
        10 * (10 ^ d.exponent.toNat * d.coefficient) := by
      rw [Nat.ofDigitChars_append, hvalue]
      exact Nat.ofDigitChars_replicate_zero (n := 1)
    have hnum : (ofText (d.text ++ '.' :: ['0'])).num f = 10 * d.num f := by
      rw [ofText_append hall]
      simp only [num, hzero]
      simp [Nat.mul_comm, Nat.mul_left_comm]
    have hden : (ofText (d.text ++ '.' :: ['0'])).den = 10 * d.den := by
      rw [ofText_append hall]
      simp [den, hplaces]
    rw [hnum, hden, Format.nearest_mul_left (by decide)]
  · obtain ⟨whole, fraction, hshows, hlength, hvalue⟩ := d.text_of_places hplaces
    have hpoint : '.' ∈ d.text := by
      rw [hshows.text]
      simp
    have hpointed : d.pointed = d.text := if_pos hpoint
    refine ⟨whole, fraction, hpointed ▸ hshows, fun f => ?_⟩
    have hnum : (ofText (whole ++ '.' :: fraction)).num f = d.num f := by
      have hexponent : d.exponent.toNat = 0 := by omega
      rw [ofText_append hshows.whole]
      simp [num, hvalue, hexponent]
    have hden : (ofText (whole ++ '.' :: fraction)).den = d.den := by
      rw [ofText_append hshows.whole]
      simp only [den, hlength, Int.neg_neg, Int.toNat_natCast]
    rw [hnum, hden]

theorem digit_mem_text (d : Decimal) : (∃ c ∈ d.text, c.isDigit = true) ∧ '-' ∉ d.text := by
  by_cases hplaces : (-d.exponent).toNat = 0
  · obtain ⟨hall, hne, -⟩ := d.text_of_whole hplaces
    obtain ⟨c, hc⟩ := List.exists_mem_of_ne_nil _ hne
    exact ⟨⟨c, hc, hall c hc⟩, fun hsign => absurd (hall _ hsign) (by decide)⟩
  · obtain ⟨whole, fraction, hshows, -⟩ := d.text_of_places hplaces
    obtain ⟨c, hc⟩ := List.exists_mem_of_ne_nil _ hshows.ne_nil
    rw [hshows.text]
    refine ⟨⟨c, List.mem_append_left _ hc, hshows.whole c hc⟩, fun hsign => ?_⟩
    rcases List.mem_append.mp hsign with hsign | hsign
    · exact absurd (hshows.whole _ hsign) (by decide)
    · rcases List.mem_cons.mp hsign with hsign | hsign
      · exact absurd hsign (by decide)
      · exact absurd (hshows.fraction _ hsign) (by decide)

end Decimal

/-! ## Texts -/

/-- The count of units can be read off the digits of its shortest decimal. -/
theorem Format.eq_of_text_shortest {units units' : Nat} (hprecision : 0 < f.precision)
    (h : f.Represents units) (h' : f.Represents units')
    (htext : (f.shortest units).text = (f.shortest units').text) : units = units' := by
  obtain ⟨whole, fraction, hshows, hnearest⟩ := (f.shortest units).shows_pointed
  obtain ⟨whole', fraction', hshows', hnearest'⟩ := (f.shortest units').shows_pointed
  have hsame : whole ++ '.' :: fraction = whole' ++ '.' :: fraction' := by
    rw [← hshows.text, ← hshows'.text]
    simp only [Decimal.pointed, htext]
  calc
    units = f.nearest ((f.shortest units).num f) (f.shortest units).den :=
      (nearest_shortest hprecision h).symm
    _ = f.nearest ((Decimal.ofText (whole ++ '.' :: fraction)).num f)
        (Decimal.ofText (whole ++ '.' :: fraction)).den := (hnearest f).symm
    _ = f.nearest ((f.shortest units').num f) (f.shortest units').den := by
      rw [hsame, hnearest' f]
    _ = units' := nearest_shortest hprecision h'

namespace Binary

theorem toList_text (negative : Bool) {units : Nat} (h : f.Represents units) :
    (text (.finite negative units h)).toList =
      if negative then '-' :: (f.shortest units).text else (f.shortest units).text :=
  String.toList_ofList

theorem any_isDigit_text (x : Binary f) : x.text.toList.any Char.isDigit = x.isFinite := by
  cases x with
  | nan =>
    show "NaN".toList.any Char.isDigit = false
    decide
  | infinite negative =>
    show (if negative then "-inf" else "inf").toList.any Char.isDigit = false
    decide +revert
  | finite negative units h =>
    obtain ⟨⟨c, hc, hdigit⟩, -⟩ := (f.shortest units).digit_mem_text
    refine List.any_eq_true.mpr ⟨c, ?_, hdigit⟩
    rw [toList_text]
    split
    · exact List.mem_cons_of_mem _ hc
    · exact hc

theorem eq_of_text_finite (hprecision : 0 < f.precision) {negative negative' : Bool}
    {units units' : Nat} {h : f.Represents units} {h' : f.Represents units'}
    (htext : text (.finite negative units h) = text (.finite negative' units' h')) :
    (.finite negative units h : Binary f) = .finite negative' units' h' := by
  have hlists := congrArg String.toList htext
  rw [toList_text, toList_text] at hlists
  have hsign := (f.shortest units).digit_mem_text.2
  have hsign' := (f.shortest units').digit_mem_text.2
  have hsame : negative = negative' ∧ (f.shortest units).text = (f.shortest units').text := by
    cases negative with
    | true =>
      cases negative' with
      | true => exact ⟨rfl, List.tail_eq_of_cons_eq hlists⟩
      | false =>
        have hlists : '-' :: (f.shortest units).text = (f.shortest units').text := hlists
        exact absurd (hlists ▸ List.mem_cons_self) hsign'
    | false =>
      cases negative' with
      | true =>
        have hlists : (f.shortest units).text = '-' :: (f.shortest units').text := hlists
        exact absurd (hlists ▸ List.mem_cons_self) hsign
      | false => exact ⟨rfl, hlists⟩
  obtain ⟨rfl, hdigits⟩ := hsame
  obtain rfl := Format.eq_of_text_shortest hprecision h h' hdigits
  rfl

/-- Different floats are shown differently, the two zeros included. -/
theorem text_injective (hprecision : 0 < f.precision) :
    Function.Injective (text : Binary f → String) := by
  intro x y htext
  -- what is not finite is shown without a digit
  have hfinite : x.isFinite = y.isFinite := by
    rw [← any_isDigit_text, ← any_isDigit_text, htext]
  cases x with
  | nan =>
    cases y with
    | nan => rfl
    | infinite negative => cases negative <;> simp [text] at htext
    | finite => cases hfinite
  | infinite negative =>
    cases y with
    | nan => cases negative <;> simp [text] at htext
    | infinite negative' => cases negative <;> cases negative' <;> simp [text] at htext ⊢
    | finite => cases hfinite
  | finite negative units h =>
    cases y with
    | nan => cases hfinite
    | infinite => cases hfinite
    | finite negative' units' h' => exact eq_of_text_finite hprecision htext

end Binary

/-! ## Literals -/

namespace Binary

theorem ofDecimal_of_nearest {d : Decimal} {units : Nat} (h : f.Represents units)
    (hnearest : f.nearest (d.num f) d.den = units) : ofDecimal d = .finite false units h := by
  subst hnearest
  exact dif_pos h.1

theorem toList_literal {units : Nat} (h : Format.double.Represents units) :
    (literal (.finite false units h)).toList = (Format.double.shortest units).pointed := by
  have htext : (text (.finite false units h)).toList = (Format.double.shortest units).text :=
    (toList_text false h).trans (if_neg Bool.false_ne_true)
  simp only [literal, isFinite, htext, Decimal.pointed, Bool.true_and, Bool.not_eq_true',
    List.contains_eq_mem, decide_eq_false_iff_not]
  by_cases hpoint : '.' ∈ (Format.double.shortest units).text
  · rw [if_neg (fun hnot => hnot hpoint), if_pos hpoint, htext]
  · rw [if_pos hpoint, if_neg hpoint, String.toList_append, htext]
    rfl

theorem literal_finite {units : Nat} (h : Format.double.Represents units) :
    ∃ whole fraction,
      Decimal.Shows (literal (.finite false units h)).toList whole fraction ∧
        ofDecimal (.ofText (whole ++ '.' :: fraction)) = .finite false units h := by
  obtain ⟨whole, fraction, hshows, hnearest⟩ := (Format.double.shortest units).shows_pointed
  rw [toList_literal]
  refine ⟨whole, fraction, hshows, ofDecimal_of_nearest h ?_⟩
  rw [hnearest]
  exact Format.nearest_shortest (by decide) h

end Binary

end ExprLang
