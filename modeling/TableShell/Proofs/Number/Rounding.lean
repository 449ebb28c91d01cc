import TableShell.Proofs.Number.Fraction

/-!
# Rounding to a floating-point number

The numbers that are rounded to a floating-point number are those of an interval around it
(`Number.Binary64.Nearest`). Different numbers have intervals with nothing in common, and behind the
last one numbers are too large: the intervals decide what a fraction is rounded to
(`Number.Binary64.nearest?_rounds`, `Number.Binary64.Rounds.eq_some_iff`).
-/

namespace TableShell.Number

namespace Binary64

variable {x y : Binary64} {f : Fraction} {negative : Bool} {q : ℚ}

/-- The significand has 53 bits. -/
theorem significandBound_eq : significandBound = 9007199254740992 := rfl

/-- A number of the format: the significand has 53 bits, or fewer if the exponent is the least. -/
structure Canonical (x : Binary64) : Prop where
  significand_lt : x.significand < significandBound
  minExponent_le : minExponent ≤ x.exponent
  exponent_le : x.exponent ≤ maxExponent
  normal : minExponent < x.exponent → significandBound ≤ 2 * x.significand

/-- The number without its sign. -/
def magnitude (x : Binary64) : ℚ := x.significand * 2 ^ x.exponent

/-- The first number of the interval around the floating-point number. -/
def low (x : Binary64) : ℚ := x.fourfold.2.1.value

/-- The last number of the interval around the floating-point number. -/
def high (x : Binary64) : ℚ := x.fourfold.2.2.value

/-- A number without sign is one of those that are rounded to the floating-point number. The ends of
the interval are rounded to the even significand. -/
def Nearest (x : Binary64) (q : ℚ) : Prop := Within (x.significand % 2 = 0) x.low x.high q

/-! ## The interval around a number -/

/-- The fractions of the interval are quarters of the significand, scaled by the exponent. -/
theorem value_step (k : Nat) (exponent : Int) :
    ((Fraction.mk k 4).scale 2 exponent).value = k / 4 * 2 ^ exponent := by
  rw [Fraction.value_scale _ (by norm_num)]
  simp [Fraction.value]

/-- The first of the three fractions is the number itself. -/
theorem fourfold_value (x : Binary64) : x.fourfold.1.value = x.magnitude := by
  change ((Fraction.mk (4 * x.significand) 4).scale 2 x.exponent).value = _
  rw [value_step, magnitude]
  push_cast
  ring

/-- The interval ends half a step above the number. -/
theorem high_eq (x : Binary64) : x.high = (x.significand + 1 / 2) * 2 ^ x.exponent := by
  change ((Fraction.mk (4 * x.significand + 2) 4).scale 2 x.exponent).value = _
  rw [value_step]
  push_cast
  ring

/-- Below the least number with an exponent the grid is finer. -/
theorem low_eq_of_least (h : 2 * x.significand = significandBound) (he : minExponent < x.exponent) :
    x.low = (x.significand - 1 / 4) * 2 ^ x.exponent := by
  have hpos : 1 ≤ 4 * x.significand := by
    rw [significandBound_eq] at h
    omega
  rw [low, fourfold]
  simp only [if_pos (And.intro h he), value_step, Nat.cast_sub hpos]
  push_cast
  ring

/-- The interval starts half a step below the number, unless the step below is a finer one. -/
theorem low_eq (h : ¬ (2 * x.significand = significandBound ∧ minExponent < x.exponent))
    (hne : x.significand ≠ 0) : x.low = (x.significand - 1 / 2) * 2 ^ x.exponent := by
  have hpos : 2 ≤ 4 * x.significand := by omega
  rw [low, fourfold]
  simp only [if_neg h, value_step, Nat.cast_sub hpos]
  push_cast
  ring

/-- The interval around zero starts at zero. -/
theorem low_eq_of_zero (h : x.significand = 0) : x.low = 0 := by
  rw [low, fourfold]
  simp [h, value_step, significandBound_eq]

/-- A power of two is positive. -/
theorem two_zpow_pos (e : Int) : (0 : ℚ) < 2 ^ e := zpow_pos two_pos e

/-- The interval starts no more than half a step below the number. -/
theorem sub_half_le_low (x : Binary64) : (x.significand - 1 / 2) * 2 ^ x.exponent ≤ x.low := by
  have hpos := two_zpow_pos x.exponent
  by_cases hzero : x.significand = 0
  · rw [low_eq_of_zero hzero, hzero]
    norm_num
    positivity
  by_cases h : 2 * x.significand = significandBound ∧ minExponent < x.exponent
  · rw [low_eq_of_least h.1 h.2]
    gcongr
    norm_num
  · rw [low_eq h hzero]

/-- The interval starts at least a quarter of a step below a number that is not zero. -/
theorem low_le_sub_quarter (h : x.significand ≠ 0) :
    x.low ≤ (x.significand - 1 / 4) * 2 ^ x.exponent := by
  have hpos := two_zpow_pos x.exponent
  by_cases hleast : 2 * x.significand = significandBound ∧ minExponent < x.exponent
  · rw [low_eq_of_least hleast.1 hleast.2]
  · rw [low_eq hleast h]
    gcongr
    norm_num

/-- The interval is at most one step wide. -/
theorem high_sub_low_le (x : Binary64) : x.high - x.low ≤ 2 ^ x.exponent := by
  have hlow := x.sub_half_le_low
  rw [high_eq]
  linarith

/-- A number is rounded to itself. -/
theorem nearest_magnitude (x : Binary64) : x.Nearest x.magnitude := by
  have hpos := two_zpow_pos x.exponent
  refine ⟨?_, .inl ?_⟩
  · by_cases hzero : x.significand = 0
    · exact .inr ⟨by simp [hzero], by rw [low_eq_of_zero hzero, magnitude, hzero]; simp⟩
    · refine .inl (lt_of_le_of_lt (low_le_sub_quarter hzero) ?_)
      rw [magnitude]
      gcongr
      norm_num
  · rw [magnitude, high_eq]
    gcongr
    norm_num

/-! ## Different numbers have different intervals -/

/-- The interval around a number with more than the least exponent starts above all numbers with a
lesser exponent. -/
theorem least_le_low (hy : y.Canonical) (he : minExponent < y.exponent) :
    (4503599627370496 - 1 / 4) * 2 ^ y.exponent ≤ y.low := by
  have hpos := two_zpow_pos y.exponent
  have hnormal := hy.normal he
  rw [significandBound_eq] at hnormal
  by_cases hleast : 2 * y.significand = significandBound
  · have hm : y.significand = 4503599627370496 := by
      rw [significandBound_eq] at hleast
      omega
    rw [low_eq_of_least hleast he, hm]
    norm_num
  · have hm : 4503599627370497 ≤ y.significand := by
      rw [significandBound_eq] at hleast
      omega
    have hm : (4503599627370497 : ℚ) ≤ y.significand := by exact_mod_cast hm
    rw [low_eq (fun h => hleast h.1) (by omega)]
    exact mul_le_mul_of_nonneg_right (by linarith) hpos.le

/-- No number is rounded both to a number and to one with a greater exponent. -/
theorem not_nearest_of_exponent_lt (hx : x.Canonical) (hy : y.Canonical)
    (h : x.exponent < y.exponent) (hqx : x.Nearest q) : ¬ y.Nearest q := by
  intro hqy
  have hpos := two_zpow_pos x.exponent
  have hlow := (least_le_low hy (hx.minExponent_le.trans_lt h)).trans hqy.low_le
  have hstep : 2 * (2 : ℚ) ^ x.exponent ≤ 2 ^ y.exponent := by
    rw [← zpow_one_add₀ two_ne_zero, add_comm]
    exact zpow_le_zpow_right₀ one_le_two h
  have hbound : (9007199254740992 - 1 / 2) * 2 ^ x.exponent ≤ q := by linarith
  have hhigh := hqx.le_high
  have hlt := hx.significand_lt
  rw [high_eq] at hhigh
  rw [significandBound_eq] at hlt
  have hm : (9007199254740991 : ℚ) ≤ x.significand := by
    have := le_of_mul_le_mul_right (hbound.trans hhigh) hpos
    linarith
  have hm : x.significand = 9007199254740991 := by
    have hm : 9007199254740991 ≤ x.significand := by exact_mod_cast hm
    omega
  obtain hq | ⟨heven, -⟩ := hqx.2
  · rw [high_eq, hm] at hq
    norm_num at hq hbound
    linarith
  · simp [hm] at heven

/-- No number is rounded both to a number and to one with the same exponent and a greater
significand. -/
theorem not_nearest_of_significand_lt (he : x.exponent = y.exponent)
    (h : x.significand < y.significand) (hqx : x.Nearest q) : ¬ y.Nearest q := by
  intro hqy
  have hpos := two_zpow_pos x.exponent
  have hlow := y.sub_half_le_low.trans hqy.low_le
  have hhigh := hqx.le_high
  rw [← he] at hlow
  rw [high_eq] at hhigh
  have hle := le_of_mul_le_mul_right (hlow.trans hhigh) hpos
  have hsucc : y.significand = x.significand + 1 := by
    have hle : (y.significand : ℚ) ≤ x.significand + 1 := by linarith
    have hle : y.significand ≤ x.significand + 1 := by exact_mod_cast hle
    omega
  have heq : (y.significand - 1 / 2 : ℚ) * 2 ^ x.exponent =
      (x.significand + 1 / 2) * 2 ^ x.exponent := by
    rw [hsucc]
    push_cast
    ring
  -- Both intervals would have to contain the same end, but only one significand is even.
  have hevenx : x.significand % 2 = 0 := by
    obtain hq | ⟨heven, -⟩ := hqx.2
    · rw [high_eq] at hq
      linarith
    · simpa using heven
  have heveny : y.significand % 2 = 0 := by
    obtain hq | ⟨heven, -⟩ := hqy.1
    · have hsub := y.sub_half_le_low
      rw [← he] at hsub
      linarith
    · simpa using heven
  omega

/-- A number is rounded to one number only. -/
theorem Canonical.eq_of_nearest (hx : x.Canonical) (hy : y.Canonical)
    (hsign : x.negative = y.negative) (hqx : x.Nearest q) (hqy : y.Nearest q) : x = y := by
  obtain hlt | heq | hgt := lt_trichotomy x.exponent y.exponent
  · exact absurd hqy (not_nearest_of_exponent_lt hx hy hlt hqx)
  · obtain hlt' | heq' | hgt' := lt_trichotomy x.significand y.significand
    · exact absurd hqy (not_nearest_of_significand_lt heq hlt' hqx)
    · cases x
      cases y
      simp_all
    · exact absurd hqx (not_nearest_of_significand_lt heq.symm hgt' hqy)
  · exact absurd hqx (not_nearest_of_exponent_lt hy hx hgt hqy)

/-! ## The exponent -/

/-- The exponent leaves 53 bits of the fraction in front of the point, or fewer if it is the least.
-/
theorem exponentFor_spec (hnum : f.num ≠ 0) (hden : f.den ≠ 0) :
    minExponent ≤ exponentFor f ∧ f.value < significandBound * 2 ^ exponentFor f ∧
      (minExponent < exponentFor f → significandBound * 2 ^ exponentFor f ≤ 2 * f.value) := by
  obtain ⟨hlow, hhigh⟩ := Fraction.value_between two_pos (Nat.log2_self_le hnum) Nat.lt_log2_self
    (Nat.log2_self_le hden) Nat.lt_log2_self
  obtain ⟨guess, hguess⟩ : ∃ guess : Int, guess = Nat.log2 f.num - Nat.log2 f.den - 53 := ⟨_, rfl⟩
  have hbound : (significandBound : ℚ) = 2 ^ (53 : Int) := by
    rw [significandBound_eq]
    norm_num
  have hscale (e : Int) : (significandBound : ℚ) * 2 ^ e = 2 ^ (53 + e) := by
    rw [hbound, ← zpow_add₀ two_ne_zero]
  -- The exponent before it is bounded from below.
  obtain ⟨free, hfree, hlt, hle⟩ : ∃ free, exponentFor f = max free minExponent ∧
      f.value < significandBound * 2 ^ free ∧ significandBound * 2 ^ free ≤ 2 * f.value := by
    have hdouble (e : Int) : (2 : ℚ) ^ (53 + (e + 1)) = 2 * 2 ^ (53 + e) := by
      rw [← zpow_one_add₀ two_ne_zero]
      congr 1
      ring
    rw [exponentFor, ← hguess]
    split_ifs with h
    · rw [Fraction.le_floor_scale_neg_iff two_pos] at h
      refine ⟨guess + 1, rfl, ?_, ?_⟩
      · rw [hscale, show 53 + (guess + 1) = (Nat.log2 f.num : Int) - Nat.log2 f.den + 1 by omega]
        exact_mod_cast hhigh
      · rw [hscale, hdouble, ← hscale]
        exact mul_le_mul_of_nonneg_left (by exact_mod_cast h) two_pos.le
    · rw [Fraction.le_floor_scale_neg_iff two_pos] at h
      refine ⟨guess, rfl, by exact_mod_cast not_le.1 h, ?_⟩
      rw [hscale, show 53 + guess = 53 + (guess - 1 + 1) by ring, hdouble]
      have hlow : (2 : ℚ) ^ (53 + (guess - 1)) < f.value := by
        rw [show 53 + (guess - 1) = (Nat.log2 f.num : Int) - Nat.log2 f.den - 1 by omega]
        exact_mod_cast hlow
      linarith
  rw [hfree]
  refine ⟨le_max_right _ _, ?_, fun h => ?_⟩
  · refine hlt.trans_le ?_
    rw [hscale, hscale]
    exact zpow_le_zpow_right₀ one_le_two (by omega)
  · rwa [max_eq_left (by omega)]

/-! ## Rounding -/

/-- From here on numbers are too large: this is half a unit above the greatest number. -/
def overflow : ℚ := (9007199254740992 - 1 / 2) * 2 ^ maxExponent

/-- What is rounded to a number of the format is not too large. -/
theorem Canonical.lt_overflow (hx : x.Canonical) (h : x.Nearest q) : q < overflow := by
  have hpos := two_zpow_pos x.exponent
  have hlt := hx.significand_lt
  have hpow : (2 : ℚ) ^ x.exponent ≤ 2 ^ maxExponent :=
    zpow_le_zpow_right₀ one_le_two hx.exponent_le
  rw [significandBound_eq] at hlt
  have hbound : (9007199254740992 - 1 / 2) * 2 ^ x.exponent ≤ overflow :=
    mul_le_mul_of_nonneg_left hpow (by norm_num)
  obtain hq | ⟨heven, hq⟩ := h.2
  · have hm : (x.significand : ℚ) ≤ 9007199254740991 := by exact_mod_cast Nat.le_of_lt_succ hlt
    have hhigh : x.high ≤ (9007199254740992 - 1 / 2) * 2 ^ x.exponent := by
      rw [high_eq]
      exact mul_le_mul_of_nonneg_right (by linarith) hpos.le
    linarith
  · have hm : x.significand ≤ 9007199254740990 := by
      have heven : x.significand % 2 = 0 := by simpa using heven
      omega
    have hm : (x.significand : ℚ) ≤ 9007199254740990 := by exact_mod_cast hm
    have hhigh : x.high ≤ (9007199254740991 - 1 / 2) * 2 ^ x.exponent := by
      rw [high_eq]
      exact mul_le_mul_of_nonneg_right (by linarith) hpos.le
    linarith

/-- A number that is not too small is rounded to a full significand. -/
theorem Canonical.full_of_nearest (hx : x.Canonical) (hq : x.Nearest q)
    (hle : (2 : ℚ) ^ (-1022 : Int) ≤ q) : significandBound ≤ 2 * x.significand := by
  obtain hlt | heq := hx.minExponent_le.lt_or_eq
  · exact hx.normal hlt
  have hpos := two_zpow_pos (-1074)
  have hhigh := hle.trans hq.le_high
  rw [high_eq, ← heq, minExponent, show (-1022 : Int) = 52 + -1074 by norm_num,
    zpow_add₀ two_ne_zero] at hhigh
  have hhigh := le_of_mul_le_mul_right hhigh hpos
  norm_num at hhigh
  have hhigh : (4503599627370496 : ℚ) < (x.significand + 1 : Nat) := by
    push_cast
    linarith
  have hhigh : 4503599627370496 < x.significand + 1 := by exact_mod_cast hhigh
  rw [significandBound_eq]
  omega

/-- What is rounded up beyond the significands is rounded to the least number with the next
exponent. -/
theorem nearest_least {e : Int} (he : minExponent ≤ e)
    (hlow : (9007199254740992 - 1 / 2) * 2 ^ e ≤ q) (hhigh : q < 9007199254740992 * 2 ^ e) :
    Nearest ⟨negative, significandBound / 2, e + 1⟩ q := by
  obtain ⟨x, hx⟩ : ∃ x : Binary64, x = ⟨negative, significandBound / 2, e + 1⟩ := ⟨_, rfl⟩
  have hm : x.significand = 4503599627370496 := by
    rw [hx]
    rfl
  have hexponent : (2 : ℚ) ^ x.exponent = 2 * 2 ^ e := by
    rw [hx, ← zpow_one_add₀ two_ne_zero, add_comm]
  have hlow' : x.low = (9007199254740992 - 1 / 2) * 2 ^ e := by
    have he : minExponent < x.exponent := by
      rw [hx]
      exact Int.lt_add_one_of_le he
    rw [low_eq_of_least (by rw [hm]; rfl) he, hexponent, hm]
    push_cast
    ring
  have hhigh' : x.high = (9007199254740992 + 1) * 2 ^ e := by
    rw [high_eq, hexponent, hm]
    push_cast
    ring
  rw [← hx]
  refine ⟨?_, .inl ?_⟩
  · rw [hlow']
    exact hlow.lt_or_eq.imp_right fun h => ⟨by simp [hm], h⟩
  · have hpos := two_zpow_pos e
    rw [hhigh']
    linarith

/-- A number is rounded to the significand that is nearest to it. -/
theorem nearest_of_within {m : Nat} {e : Int} (hnonneg : 0 ≤ q)
    (hq : minExponent < e → significandBound * 2 ^ e ≤ 2 * q)
    (h : Within (m % 2 = 0) ((m - 1 / 2) * 2 ^ e) ((m + 1 / 2) * 2 ^ e) q) :
    Nearest ⟨negative, m, e⟩ q := by
  obtain ⟨x, hx⟩ : ∃ x : Binary64, x = ⟨negative, m, e⟩ := ⟨_, rfl⟩
  obtain ⟨rfl, rfl⟩ : x.significand = m ∧ x.exponent = e := by simp [hx]
  rw [← hx]
  refine ⟨?_, ?_⟩
  · by_cases hzero : x.significand = 0
    · rw [low_eq_of_zero hzero]
      exact hnonneg.lt_or_eq.imp_right fun h => ⟨by simp [hzero], h⟩
    by_cases hleast : 2 * x.significand = significandBound ∧ minExponent < x.exponent
    · have hpos := two_zpow_pos x.exponent
      have hle := hq hleast.2
      rw [← hleast.1] at hle
      push_cast at hle
      rw [low_eq_of_least hleast.1 hleast.2]
      exact .inl (by linarith)
    · rw [low_eq hleast hzero]
      exact h.1
  · rw [high_eq]
    exact h.2

/-- Zero is a number of the format. -/
theorem canonical_zero (negative : Bool) : Canonical ⟨negative, 0, minExponent⟩ where
  significand_lt := by
    rw [significandBound_eq]
    norm_num
  minExponent_le := le_rfl
  exponent_le := by
    dsimp only
    decide
  normal := fun h => absurd h (lt_irrefl _)

/-- Zero is rounded to zero. -/
theorem nearest_zero (negative : Bool) : Nearest ⟨negative, 0, minExponent⟩ 0 := by
  have hzero := nearest_magnitude ⟨negative, 0, minExponent⟩
  simpa [magnitude] using hzero

/-- Only zero is what zero is rounded to. -/
theorem Canonical.significand_eq_zero (hx : x.Canonical) (h : x.Nearest 0) : x.significand = 0 := by
  rw [hx.eq_of_nearest (canonical_zero x.negative) rfl h (nearest_zero x.negative)]

/-- The least number with the full width of an exponent is one of the format. -/
theorem canonical_least {e : Int} (he : minExponent ≤ e) (he' : e < maxExponent) :
    Canonical ⟨negative, significandBound / 2, e + 1⟩ where
  significand_lt := by
    rw [significandBound_eq]
    norm_num
  minExponent_le := by
    dsimp only
    omega
  exponent_le := he'
  normal := fun _ => by
    rw [significandBound_eq]
    norm_num

/-- What a number without sign is rounded to: the floating-point number around which it lies, unless
it is too large. -/
def Rounds (negative : Bool) (q : ℚ) : Option Binary64 → Prop
  | some x => x.Canonical ∧ x.negative = negative ∧ x.Nearest q
  | none => overflow ≤ q

/-- The result of rounding is the one number of the format that the fraction is nearest to. -/
theorem Rounds.eq_some_iff {rounded : Option Binary64} (h : Rounds negative q rounded) :
    rounded = some x ↔ x.Canonical ∧ x.negative = negative ∧ x.Nearest q := by
  cases rounded with
  | none => exact ⟨nofun, fun ⟨hx, _, hq⟩ => absurd (hx.lt_overflow hq) (not_lt.2 h)⟩
  | some y =>
    obtain ⟨hy, hsign, hq⟩ := h
    constructor
    · rintro ⟨⟩
      exact ⟨hy, hsign, hq⟩
    · rintro ⟨hx, hsign', hq'⟩
      rw [hy.eq_of_nearest hx (hsign.trans hsign'.symm) hq hq']

/-- Rounding has no result exactly when the fraction is too large. -/
theorem Rounds.eq_none_iff {rounded : Option Binary64} (h : Rounds negative q rounded) :
    rounded = none ↔ overflow ≤ q := by
  cases rounded with
  | none => exact ⟨fun _ => h, fun _ => rfl⟩
  | some y => exact ⟨nofun, fun hover => absurd (h.1.lt_overflow h.2.2) (not_lt.2 hover)⟩

/-- The case of a significand that is rounded up to one bit too many. -/
theorem rounds_carry {e : Int} (hmin : minExponent ≤ e)
    (hlow : (9007199254740992 - 1 / 2) * 2 ^ e ≤ q) (hhigh : q < 9007199254740992 * 2 ^ e) :
    Rounds negative q
      (if maxExponent < e + 1 then none else some ⟨negative, significandBound / 2, e + 1⟩) := by
  split_ifs with hmax
  · have hpow : (2 : ℚ) ^ maxExponent ≤ 2 ^ e := zpow_le_zpow_right₀ one_le_two (by omega)
    exact (mul_le_mul_of_nonneg_left hpow (by norm_num)).trans hlow
  · exact ⟨canonical_least hmin (by omega), rfl, nearest_least hmin hlow hhigh⟩

/-- The case of a significand that fits. -/
theorem rounds_within {m : Nat} {e : Int} (hmin : minExponent ≤ e) (hm : m < significandBound)
    (hnonneg : 0 ≤ q) (hnormal : minExponent < e → significandBound * 2 ^ e ≤ 2 * q)
    (hwithin : Within (m % 2 = 0) ((m - 1 / 2) * 2 ^ e) ((m + 1 / 2) * 2 ^ e) q) :
    Rounds negative q (if maxExponent < e then none else some ⟨negative, m, e⟩) := by
  split_ifs with hmax
  · have hnormal := hnormal (lt_trans (by decide) hmax)
    have hpow : (2 : ℚ) * 2 ^ maxExponent ≤ 2 ^ e := by
      rw [← zpow_one_add₀ two_ne_zero]
      exact zpow_le_zpow_right₀ one_le_two (by omega)
    have hpos := two_zpow_pos maxExponent
    rw [significandBound_eq] at hnormal
    push_cast at hnormal
    change overflow ≤ q
    rw [overflow]
    linarith
  · have hfull (he : minExponent < e) : significandBound ≤ 2 * m := by
      have hhigh := (hnormal he).trans (mul_le_mul_of_nonneg_left hwithin.le_high two_pos.le)
      rw [← mul_assoc] at hhigh
      have hhigh := le_of_mul_le_mul_right hhigh (two_zpow_pos e)
      have hhigh : (significandBound : ℚ) ≤ (2 * m + 1 : Nat) := by
        push_cast
        linarith
      have hhigh : significandBound ≤ 2 * m + 1 := by exact_mod_cast hhigh
      rw [significandBound_eq] at hhigh ⊢
      omega
    exact ⟨⟨hm, hmin, not_lt.1 hmax, hfull⟩, rfl, nearest_of_within hnonneg hnormal hwithin⟩

/-- The computed result of rounding is the right one, for every fraction. -/
theorem nearest?_rounds (negative : Bool) (hden : f.den ≠ 0) :
    Rounds negative f.value (nearest? negative f) := by
  by_cases hnum : f.num = 0
  · have hvalue : f.value = 0 := by simp [Fraction.value, hnum]
    rw [nearest?, if_pos hnum, hvalue]
    exact ⟨canonical_zero negative, rfl, nearest_zero negative⟩
  obtain ⟨hmin, hlt, hnormal⟩ := exponentFor_spec hnum hden
  have hround := Fraction.within_round
    (Fraction.den_scale_pos (Nat.pos_of_ne_zero hden) two_pos (-exponentFor f))
  rw [nearest?, if_neg hnum]
  dsimp only
  generalize exponentFor f = e at *
  generalize (f.scale 2 (-e)).round = m at *
  have hpos := two_zpow_pos e
  have hwithin : Within (m % 2 = 0) ((m - 1 / 2) * 2 ^ e) ((m + 1 / 2) * 2 ^ e) f.value := by
    rw [Fraction.value_scale _ two_ne_zero, ← Within.mul_iff hpos, mul_assoc, Nat.cast_ofNat,
      ← zpow_add₀ two_ne_zero, neg_add_cancel, zpow_zero, mul_one] at hround
    exact hround
  have hle : m ≤ significandBound := by
    have hlow := lt_of_mul_lt_mul_right (hwithin.low_le.trans_lt hlt) hpos.le
    have hlow : (m : ℚ) < significandBound + 1 := by linarith
    have hlow : m < significandBound + 1 := by exact_mod_cast hlow
    omega
  by_cases hcarry : m = significandBound
  · simp only [if_pos hcarry]
    have hlow := hwithin.low_le
    rw [hcarry, significandBound_eq] at hlow
    rw [significandBound_eq] at hlt
    exact rounds_carry hmin (by exact_mod_cast hlow) (by exact_mod_cast hlt)
  · simp only [if_neg hcarry]
    exact rounds_within hmin (lt_of_le_of_ne hle hcarry) f.value_nonneg hnormal hwithin

end Binary64

end TableShell.Number
