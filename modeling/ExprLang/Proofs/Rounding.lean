import ExprLang.Number.Binary

/-!
# Rounding

What is nearest to a quotient does not depend on how the quotient is written, is the quotient itself
where a number of the format is there, and keeps the order of quotients: rounding may join numbers, but
it never turns them around. Where the numbers of a format are further apart for the larger quotient, a
power of two lies between the two results; otherwise both are rounded to multiples of the same number.
A number of a format is left as it is by a wider one.

Main statements: `Format.nearest_of_represents`, `Format.nearest_mono`, `Binary.isFinite_convert`.
-/

namespace ExprLang

variable {f : Format}

/-! ## Whole quotients -/

theorem roundDiv_mul_left {c : Nat} (hc : 0 < c) (num den : Nat) :
    roundDiv (c * num) (c * den) = roundDiv num den := by
  have hlt : 2 * (c * (num % den)) < c * den ↔ 2 * (num % den) < den := by
    rw [Nat.mul_left_comm]
    exact Nat.mul_lt_mul_left hc
  have heq : 2 * (c * (num % den)) = c * den ↔ 2 * (num % den) = den := by
    rw [Nat.mul_left_comm]
    exact Nat.mul_left_cancel_iff hc
  simp only [roundDiv, Nat.mul_div_mul_left _ _ hc, Nat.mul_mod_mul_left, hlt, heq]

theorem div_le_roundDiv (num den : Nat) : num / den ≤ roundDiv num den := by
  simp only [roundDiv]
  split <;> omega

theorem roundDiv_mono {num num' : Nat} (h : num ≤ num') (den : Nat) :
    roundDiv num den ≤ roundDiv num' den := by
  have hquotients : num / den ≤ num' / den := Nat.div_le_div_right h
  rcases Nat.lt_or_eq_of_le hquotients with hlt | heq
  · calc
      roundDiv num den ≤ num / den + 1 := roundDiv_le num den
      _ ≤ num' / den := hlt
      _ ≤ roundDiv num' den := div_le_roundDiv num' den
  · have hrests : num % den ≤ num' % den := by
      have hnum := Nat.div_add_mod num den
      have hnum' := Nat.div_add_mod num' den
      rw [heq] at hnum
      omega
    simp only [roundDiv, heq]
    split
    · split <;> omega
    · split <;> omega

namespace Format

/-! ## Numbers of a format -/

theorem nearest_mul_left {c : Nat} (hc : 0 < c) (num den : Nat) :
    f.nearest (c * num) (c * den) = f.nearest num den := by
  simp only [nearest, Nat.mul_div_mul_left _ _ hc, Nat.mul_assoc, roundDiv_mul_left hc]

/-- A number of the format is a multiple of the distance between numbers near it. -/
theorem two_pow_gap_dvd {units : Nat} (hprecision : 0 < f.precision) (h : f.Represents units) :
    2 ^ f.gap units ∣ units := by
  obtain ⟨-, m, k, hm, rfl⟩ := h
  rcases Nat.eq_zero_or_pos m with rfl | hpos
  · rw [Nat.zero_mul]
    exact Nat.dvd_zero _
  rcases Nat.lt_or_eq_of_le hm with hlt | rfl
  · -- The digits of `m` fit, so the numbers near it are at most `2 ^ k` apart.
    have hlog : (m * 2 ^ k).log2 + 1 ≤ f.precision + k := by
      refine (Nat.log2_lt (Nat.ne_of_gt (Nat.mul_pos hpos (Nat.two_pow_pos k)))).mpr ?_
      rw [Nat.pow_add]
      exact Nat.mul_lt_mul_of_pos_right hlt (Nat.two_pow_pos k)
    refine Nat.dvd_trans (Nat.pow_dvd_pow 2 ?_) (Nat.dvd_mul_left _ m)
    unfold gap
    omega
  · -- A power of two that is one digit too long ends in a zero.
    rw [← Nat.pow_add]
    refine Nat.pow_dvd_pow 2 ?_
    unfold gap
    rw [Nat.log2_two_pow]
    omega

theorem nearest_of_represents {units : Nat} (hprecision : 0 < f.precision)
    (h : f.Represents units) : f.nearest units 1 = units := by
  obtain ⟨q, hq⟩ := two_pow_gap_dvd hprecision h
  have hpos := Nat.two_pow_pos (f.gap units)
  have hround : roundDiv units (2 ^ f.gap units) = q := by
    unfold roundDiv
    rw [show units / 2 ^ f.gap units = q from Nat.div_eq_of_eq_mul_right hpos hq,
      show units % 2 ^ f.gap units = 0 from Nat.mod_eq_zero_of_dvd ⟨q, hq⟩]
    simp [hpos]
  simp only [nearest, Nat.div_one, Nat.one_mul, hround]
  rw [Nat.mul_comm]
  exact hq.symm

/-! ## Order -/

theorem gap_mono {units units' : Nat} (h : units ≤ units') : f.gap units ≤ f.gap units' := by
  have hlog : units.log2 ≤ units'.log2 := by
    rcases Nat.eq_zero_or_pos units with rfl | hpos
    · rw [Nat.log2_zero]
      exact Nat.zero_le _
    · rw [Nat.le_log2 (by omega)]
      exact Nat.le_trans (Nat.log2_self_le (by omega)) h
  unfold gap
  omega

theorem nearest_le (f : Format) (num den : Nat) :
    f.nearest num den ≤ 2 ^ (f.precision + f.gap (num / den)) := by
  rw [Nat.pow_add]
  exact Nat.mul_le_mul_right _ (f.roundDiv_gap_le num den)

/-- Where the numbers of a format are apart, what is nearest has all its digits. -/
theorem le_nearest (hprecision : 0 < f.precision) {num den : Nat} (hgap : 0 < f.gap (num / den)) :
    2 ^ (f.precision - 1 + f.gap (num / den)) ≤ f.nearest num den := by
  have hlog : f.precision - 1 + f.gap (num / den) = (num / den).log2 := by
    unfold gap at hgap ⊢
    omega
  have hne : num / den ≠ 0 := by
    intro hzero
    rw [hzero] at hgap
    unfold gap at hgap
    rw [Nat.log2_zero] at hgap
    omega
  have hquotient : 2 ^ (f.precision - 1) ≤ num / den / 2 ^ f.gap (num / den) := by
    rw [Nat.le_div_iff_mul_le (Nat.two_pow_pos _), ← Nat.pow_add, hlog]
    exact Nat.log2_self_le hne
  rw [Nat.div_div_eq_div_mul] at hquotient
  rw [Nat.pow_add]
  exact Nat.mul_le_mul_right _ (Nat.le_trans hquotient (div_le_roundDiv _ _))

theorem nearest_mono (hprecision : 0 < f.precision) {num num' : Nat} (h : num ≤ num') (den : Nat) :
    f.nearest num den ≤ f.nearest num' den := by
  have hgap : f.gap (num / den) ≤ f.gap (num' / den) := gap_mono (Nat.div_le_div_right h)
  rcases Nat.lt_or_eq_of_le hgap with hlt | heq
  · calc
      f.nearest num den ≤ 2 ^ (f.precision + f.gap (num / den)) := f.nearest_le num den
      _ ≤ 2 ^ (f.precision - 1 + f.gap (num' / den)) :=
        Nat.pow_le_pow_right (by decide) (by omega)
      _ ≤ f.nearest num' den := le_nearest hprecision (Nat.lt_of_le_of_lt (Nat.zero_le _) hlt)
  · simp only [nearest, heq]
    exact Nat.mul_le_mul_right _ (roundDiv_mono h _)

end Format

/-! ## Wider formats -/

namespace Format

variable {g : Format}

/-- Every number of one format is a number of the other, which may have a smaller unit. -/
structure Within (f g : Format) : Prop where
  precision : f.precision ≤ g.precision
  scale : f.scale ≤ g.scale
  span : f.span + (g.scale - f.scale) ≤ g.span

theorem single_within_double : single.Within double := ⟨by decide, by decide, by decide⟩

theorem Represents.mul_two_pow {units : Nat} (h : f.Represents units) (hfg : f.Within g) :
    g.Represents (units * 2 ^ (g.scale - f.scale)) := by
  obtain ⟨hlt, m, k, hm, rfl⟩ := h
  refine ⟨?_, m, k + (g.scale - f.scale), ?_, ?_⟩
  · calc
      m * 2 ^ k * 2 ^ (g.scale - f.scale) < 2 ^ f.span * 2 ^ (g.scale - f.scale) :=
        Nat.mul_lt_mul_of_pos_right hlt (Nat.two_pow_pos _)
      _ = 2 ^ (f.span + (g.scale - f.scale)) := (Nat.pow_add 2 _ _).symm
      _ ≤ 2 ^ g.span := Nat.pow_le_pow_right (by decide) hfg.span
  · exact Nat.le_trans hm (Nat.pow_le_pow_right (by decide) hfg.precision)
  · rw [Nat.pow_add, Nat.mul_assoc]

theorem Represents.nearest_convert {units : Nat} (h : f.Represents units) (hfg : f.Within g)
    (hprecision : 0 < g.precision) :
    g.nearest (units * 2 ^ g.scale) (2 ^ f.scale) = units * 2 ^ (g.scale - f.scale) := by
  have hnum : units * 2 ^ g.scale = 2 ^ f.scale * (units * 2 ^ (g.scale - f.scale)) := by
    rw [Nat.mul_left_comm, ← Nat.pow_add, Nat.add_sub_cancel' hfg.scale]
  calc
    g.nearest (units * 2 ^ g.scale) (2 ^ f.scale) =
        g.nearest (2 ^ f.scale * (units * 2 ^ (g.scale - f.scale))) (2 ^ f.scale * 1) := by
      rw [hnum, Nat.mul_one]
    _ = g.nearest (units * 2 ^ (g.scale - f.scale)) 1 := nearest_mul_left (Nat.two_pow_pos _) _ 1
    _ = units * 2 ^ (g.scale - f.scale) :=
      nearest_of_represents hprecision (h.mul_two_pow hfg)

end Format

namespace Binary

theorem isFinite_convert {g : Format} (hfg : f.Within g) (hprecision : 0 < g.precision)
    (x : Binary f) : (x.convert : Binary g).isFinite = x.isFinite := by
  cases x with
  | nan => rfl
  | infinite => rfl
  | finite negative units hunits =>
    have hlt : g.nearest (units * 2 ^ g.scale) (2 ^ f.scale) < 2 ^ g.span := by
      rw [hunits.nearest_convert hfg hprecision]
      exact (hunits.mul_two_pow hfg).1
    rw [convert, round, dif_pos hlt]
    rfl

end Binary

end ExprLang
