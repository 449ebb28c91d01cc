import TableShell.Proofs.Number.Rounding

/-!
# The fewest digits

The digits that are written for a floating-point number are rounded to it
(`Number.Binary64.nearest_written`), and there are no more than 17 of them
(`Number.Binary64.hasDigits_written`). A number of 15 digits is written as it is unless it is too
small for a significand of 53 bits (`Number.Binary64.written_eq_of_nearest`): two numbers on its
decimal grid are further apart than the interval around the floating-point number is wide.
-/

namespace TableShell.Number

/-- The number without sign has at most the given number of digits from its first one other than
zero to its last. -/
def HasDigits (digits : Nat) (q : ℚ) : Prop :=
  ∃ (coefficient : Nat) (exponent : Int), coefficient < 10 ^ digits ∧
    q = coefficient * 10 ^ exponent

/-- A power of ten is positive. -/
theorem ten_zpow_pos (e : Int) : (0 : ℚ) < 10 ^ e := zpow_pos (by norm_num) e

/-- Digits of which the last one is not zero cannot be written with fewer. -/
theorem not_hasDigits {digits coefficient : Nat} {exponent : Int} (hlast : ¬ 10 ∣ coefficient)
    (hlong : 10 ^ digits ≤ coefficient) : ¬ HasDigits digits (coefficient * 10 ^ exponent) := by
  rintro ⟨c, e, hc, heq⟩
  obtain hle | hlt := le_or_gt e exponent
  · obtain ⟨k, rfl⟩ := Int.le.dest hle
    rw [zpow_add₀ (by norm_num), mul_left_comm, mul_comm (c : ℚ),
      mul_right_inj' (ten_zpow_pos e).ne', zpow_natCast] at heq
    have hcoefficient : coefficient * 10 ^ k = c := by exact_mod_cast heq
    have hle := Nat.le_mul_of_pos_right coefficient (Nat.pow_pos (n := k) (by norm_num : 0 < 10))
    omega
  · obtain ⟨k, rfl⟩ := Int.lt.dest hlt
    rw [zpow_add₀ (by norm_num), mul_left_comm, mul_comm (coefficient : ℚ),
      mul_right_inj' (ten_zpow_pos exponent).ne', zpow_natCast] at heq
    have hcoefficient : coefficient = c * 10 ^ (k + 1) := by exact_mod_cast heq
    exact hlast ⟨c * 10 ^ k, by rw [hcoefficient, pow_succ]; ring⟩

namespace Binary64

variable {x : Binary64} {grid : Int} {n : Nat} {q : ℚ}

/-- The number that is written for the floating-point number, without sign. -/
def written (x : Binary64) : ℚ := x.shortest.1 * 10 ^ x.shortest.2

/-- The number that is written has no sign. -/
theorem written_nonneg (x : Binary64) : 0 ≤ x.written :=
  mul_nonneg (Nat.cast_nonneg _) (ten_zpow_pos _).le

/-! ## Decimal grids -/

/-- The last point of a decimal grid that is no greater than the number. -/
def down (x : Binary64) (grid : Int) : Nat := (x.fourfold.1.scale 10 (-grid)).floor

/-- A number scaled to a decimal grid is counted in points of the grid. -/
theorem value_scaled (x : Binary64) (grid : Int) :
    (x.fourfold.1.scale 10 (-grid)).value = x.magnitude / 10 ^ grid := by
  rw [Fraction.value_scale _ (by norm_num), fourfold_value, zpow_neg, div_eq_mul_inv]
  norm_cast

/-- The point of the grid below a number is not above it. -/
theorem down_le (x : Binary64) (grid : Int) : x.down grid * 10 ^ grid ≤ x.magnitude := by
  have h := (x.fourfold.1.scale 10 (-grid)).floor_le
  rwa [value_scaled, le_div_iff₀ (ten_zpow_pos grid)] at h

/-- The number lies below the next point of the grid. -/
theorem lt_down_add_one (x : Binary64) (grid : Int) :
    x.magnitude < (x.down grid + 1 : Nat) * 10 ^ grid := by
  have h := (x.fourfold.1.scale 10 (-grid)).lt_floor_add_one
  rw [value_scaled, div_lt_iff₀ (ten_zpow_pos grid)] at h
  exact_mod_cast h

/-- A point of a grid as a fraction. -/
theorem value_point (n : Nat) (grid : Int) :
    ((Fraction.mk n 1).scale 10 grid).value = n * 10 ^ grid := by
  rw [Fraction.value_scale _ (by norm_num)]
  simp [Fraction.value]

/-- The points of a grid that `onGrid?` looks for are those that are rounded to the number. -/
theorem inside_iff (x : Binary64) (grid : Int) (n : Nat) :
    (x.fourfold.2.1.below (x.significand % 2 = 0) ((Fraction.mk n 1).scale 10 grid) &&
      ((Fraction.mk n 1).scale 10 grid).below (x.significand % 2 = 0) x.fourfold.2.2) = true ↔
        x.Nearest (n * 10 ^ grid) := by
  have hpoint : 0 < ((Fraction.mk n 1).scale 10 grid).den :=
    Fraction.den_scale_pos one_pos (by norm_num) grid
  have hlow : 0 < x.fourfold.2.1.den := Fraction.den_scale_pos (by norm_num) two_pos _
  have hhigh : 0 < x.fourfold.2.2.den := Fraction.den_scale_pos (by norm_num) two_pos _
  rw [Bool.and_eq_true, Fraction.below_iff hlow hpoint, Fraction.below_iff hpoint hhigh,
    value_point]
  exact Iff.rfl

/-- What is taken on a grid: one of the two neighbours, if one of them is rounded to the number, and
else neither is. -/
theorem onGrid?_spec (x : Binary64) (grid : Int) :
    (∃ n, x.onGrid? grid = some n ∧ x.Nearest (n * 10 ^ grid) ∧
      (n = x.down grid ∨ n = x.down grid + 1)) ∨
    (x.onGrid? grid = none ∧ ¬ x.Nearest (x.down grid * 10 ^ grid) ∧
      ¬ x.Nearest ((x.down grid + 1 : Nat) * 10 ^ grid)) := by
  have hdown := x.inside_iff grid (x.down grid)
  have hup := x.inside_iff grid (x.down grid + 1)
  have hround := (x.fourfold.1.scale 10 (-grid)).round_eq_or
  rw [← hdown, ← hup, onGrid?]
  dsimp only [down] at *
  split
  · next h h' =>
    obtain hround | hround := hround
    · exact .inl ⟨_, rfl, by rw [hround]; exact hdown.1 h, .inl hround⟩
    · exact .inl ⟨_, rfl, by rw [hround]; exact hup.1 h', .inr hround⟩
  · next h h' => exact .inl ⟨_, rfl, hdown.1 h, .inl rfl⟩
  · next h h' => exact .inl ⟨_, rfl, hup.1 h', .inr rfl⟩
  · next h h' => exact .inr ⟨rfl, by simp [h], by simp [h']⟩

/-- A point that is taken is rounded to the number and is one of its neighbours. -/
theorem onGrid?_eq_some (h : x.onGrid? grid = some n) :
    x.Nearest (n * 10 ^ grid) ∧ (n = x.down grid ∨ n = x.down grid + 1) := by
  obtain ⟨m, hm, hspec⟩ | ⟨hnone, -⟩ := x.onGrid?_spec grid
  · obtain rfl : m = n := by simpa [hm] using h
    exact hspec
  · rw [hnone] at h
    cases h

/-- If a grid has a point that is rounded to the number, a neighbour of the number is one. -/
theorem not_nearest_of_onGrid? (h : x.onGrid? grid = none) (n : Nat) :
    ¬ x.Nearest (n * 10 ^ grid) := by
  intro hn
  obtain ⟨m, hm, -⟩ | ⟨-, hdown, hup⟩ := x.onGrid?_spec grid
  · rw [hm] at h
    cases h
  have hpos := ten_zpow_pos grid
  by_cases hle : n ≤ x.down grid
  · have hle : (n : ℚ) ≤ x.down grid := by exact_mod_cast hle
    exact hdown (hn.convex x.nearest_magnitude (mul_le_mul_of_nonneg_right hle hpos.le)
      (x.down_le grid))
  · have hle : ((x.down grid + 1 : Nat) : ℚ) ≤ n := by exact_mod_cast not_le.1 hle
    exact hup (x.nearest_magnitude.convex hn (x.lt_down_add_one grid).le
      (mul_le_mul_of_nonneg_right hle hpos.le))

/-- The search stops at the first grid with a point that is rounded to the number, or at the last
grid. -/
theorem firstGrid_spec {count : Nat} {last : Int} (h : x.firstGrid count grid = (n, last)) :
    last ≤ grid ∧ grid - count ≤ last ∧ (n = x.down last ∨ n = x.down last + 1) ∧
      (∀ g, last < g → g ≤ grid → x.onGrid? g = none) ∧
      (x.onGrid? last = some n ∨
        (last = grid - count ∧ n = (x.fourfold.1.scale 10 (-last)).round)) := by
  induction count generalizing grid with
  | zero =>
    cases h
    exact ⟨le_rfl, by simp, Fraction.round_eq_or _, fun g hlt hle => absurd hle (not_le.2 hlt),
      .inr ⟨by simp, rfl⟩⟩
  | succ count ih =>
    rw [firstGrid] at h
    split at h
    · next m hm =>
      cases h
      exact ⟨le_rfl, by omega, (onGrid?_eq_some hm).2,
        fun g hlt hle => absurd hle (not_le.2 hlt), .inl hm⟩
    · next hnone =>
      obtain ⟨hle, hge, hn, hskipped, hlast⟩ := ih h
      refine ⟨by omega, by push_cast; omega, hn, fun g hlt hg => ?_, ?_⟩
      · obtain rfl | hg := hg.eq_or_lt
        · exact hnone
        · exact hskipped g hlt (by omega)
      · exact hlast.imp_right fun ⟨hgrid, hround⟩ => ⟨by push_cast; omega, hround⟩

/-- The zeros at the end do not count. -/
theorem dropZeros_value (fuel n : Nat) (e : Int) :
    ((dropZeros fuel n e).1 : ℚ) * 10 ^ (dropZeros fuel n e).2 = n * 10 ^ e := by
  induction fuel generalizing n e with
  | zero => rfl
  | succ fuel ih =>
    rw [dropZeros]
    split
    · next h =>
      have hn : (n : ℚ) = (n / 10 : Nat) * 10 := by
        exact_mod_cast (Nat.div_mul_cancel (Nat.dvd_of_mod_eq_zero h)).symm
      rw [ih, zpow_add_one₀ (by norm_num), hn]
      ring
    · rfl

/-! ## What is written -/

/-- Zero is written for zero. -/
theorem written_of_zero (h : x.significand = 0) : x.written = 0 := by
  simp [written, shortest, h]

/-- The leading digit of the number. -/
theorem magnitude_between (h : x.significand ≠ 0) :
    (10 : ℚ) ^ leadingExponent x.fourfold.1 ≤ x.magnitude ∧
      x.magnitude < 10 ^ (leadingExponent x.fourfold.1 + 1) := by
  rw [← fourfold_value]
  refine leadingExponent_spec ?_ (Fraction.den_scale_pos (by norm_num) two_pos _).ne'
  intro hnum
  have hzero : x.magnitude = 0 := by
    rw [← fourfold_value, Fraction.value, hnum]
    simp
  have hpos : 0 < x.magnitude :=
    mul_pos (Nat.cast_pos.2 (Nat.pos_of_ne_zero h)) (two_zpow_pos _)
  exact hpos.ne' hzero

/-- What is written for a number other than zero is what the search finds. -/
theorem exists_firstGrid_eq (h : x.significand ≠ 0) :
    ∃ n last, x.firstGrid 16 (leadingExponent x.fourfold.1) = (n, last) ∧
      x.written = n * 10 ^ last := by
  refine ⟨_, _, rfl, ?_⟩
  rw [written, shortest, if_neg h]
  exact dropZeros_value _ _ _

/-- On the last grid that is searched, the nearest point is rounded to the number. -/
theorem nearest_round (hx : x.Canonical) (h : x.significand ≠ 0)
    (hgrid : (10 : ℚ) ^ (grid + 16) ≤ x.magnitude)
    (hn : n = (x.fourfold.1.scale 10 (-grid)).round) : x.Nearest (n * 10 ^ grid) := by
  have hpos := two_zpow_pos x.exponent
  have hten := ten_zpow_pos grid
  have hround := Fraction.within_round (x := x.fourfold.1.scale 10 (-grid))
    (Fraction.den_scale_pos (Fraction.den_scale_pos (by norm_num) two_pos _) (by norm_num) _)
  rw [← hn, value_scaled] at hround
  have hbelow := hround.low_le
  have habove := hround.le_high
  rw [le_div_iff₀ hten, magnitude] at hbelow
  rw [div_le_iff₀ hten, magnitude] at habove
  rw [zpow_add₀ (by norm_num), magnitude] at hgrid
  norm_num at hgrid
  have hm : (x.significand : ℚ) ≤ 9007199254740991 := by
    have hlt := hx.significand_lt
    rw [significandBound_eq] at hlt
    exact_mod_cast Nat.le_of_lt_succ hlt
  have hbound := mul_le_mul_of_nonneg_right hm hpos.le
  refine ⟨.inl ?_, .inl ?_⟩
  · by_cases hleast : 2 * x.significand = significandBound ∧ minExponent < x.exponent
    · have hm : x.significand = 4503599627370496 := by
        have hleast := hleast.1
        rw [significandBound_eq] at hleast
        omega
      rw [low_eq_of_least hleast.1 hleast.2]
      rw [hm] at hgrid habove ⊢
      push_cast at hgrid habove ⊢
      linarith
    · rw [low_eq hleast h]
      linarith
  · rw [high_eq]
    linarith

/-- What is written for a number is rounded to it. -/
theorem nearest_written (hx : x.Canonical) : x.Nearest x.written := by
  by_cases h : x.significand = 0
  · have hzero := x.nearest_magnitude
    rwa [magnitude, h, Nat.cast_zero, zero_mul, ← written_of_zero h] at hzero
  obtain ⟨n, last, hfound, hwritten⟩ := exists_firstGrid_eq h
  obtain ⟨-, -, -, -, hsome | ⟨hlast, hround⟩⟩ := firstGrid_spec hfound
  · rw [hwritten]
    exact (onGrid?_eq_some hsome).1
  · rw [hwritten]
    refine nearest_round hx h ?_ hround
    rw [hlast, Nat.cast_ofNat, sub_add_cancel]
    exact (magnitude_between h).1

/-- No more than 17 digits are written. -/
theorem hasDigits_written (x : Binary64) : HasDigits 17 x.written := by
  by_cases h : x.significand = 0
  · exact ⟨0, 0, by norm_num, by simp [written_of_zero h]⟩
  obtain ⟨n, last, hfound, hwritten⟩ := exists_firstGrid_eq h
  obtain ⟨hle, hge, hn, -, -⟩ := firstGrid_spec hfound
  obtain ⟨k, hk⟩ : ∃ k : Nat, leadingExponent x.fourfold.1 + 1 = last + k :=
    ⟨(leadingExponent x.fourfold.1 + 1 - last).toNat, by omega⟩
  have hpos := ten_zpow_pos last
  have hdown : x.down last < 10 ^ k := by
    have hlt := (x.down_le last).trans_lt (magnitude_between h).2
    rw [hk, zpow_add₀ (by norm_num), mul_comm ((10 : ℚ) ^ last)] at hlt
    have hlt := lt_of_mul_lt_mul_right hlt hpos.le
    rw [zpow_natCast] at hlt
    exact_mod_cast hlt
  have hpow : 10 ^ k ≤ 10 ^ 17 := Nat.pow_le_pow_right (by norm_num) (by omega)
  obtain hlt | heq : n < 10 ^ k ∨ n = 10 ^ k := by omega
  · exact ⟨n, last, hlt.trans_le hpow, hwritten⟩
  · refine ⟨1, last + k, by norm_num, ?_⟩
    rw [hwritten, heq, zpow_add₀ (by norm_num), zpow_natCast]
    push_cast
    ring

/-- Two points of a grid that are rounded to the same number are the same if the interval around the
number is not as wide as the grid. -/
theorem eq_of_nearest_grid {m : Nat} (hm : x.Nearest (m * 10 ^ grid))
    (hn : x.Nearest (n * 10 ^ grid)) (hwide : (2 : ℚ) ^ x.exponent < 10 ^ grid) : m = n := by
  have hpos := ten_zpow_pos grid
  have hwidth := x.high_sub_low_le
  have hlt (a b : Nat) (ha : x.Nearest (a * 10 ^ grid)) (hb : x.Nearest (b * 10 ^ grid)) :
      a ≤ b := by
    have hdiff : (a - b : ℚ) * 10 ^ grid < 1 * 10 ^ grid := by
      have h := ha.le_high
      have h' := hb.low_le
      linarith
    have hdiff := lt_of_mul_lt_mul_right hdiff hpos.le
    have hdiff : (a : ℚ) < (b + 1 : Nat) := by
      push_cast
      linarith
    exact Nat.lt_succ_iff.1 (by exact_mod_cast hdiff)
  exact le_antisymm (hlt m n hm hn) (hlt n m hn hm)

/-- A point of a grid is one of every finer grid. -/
theorem exists_point_of_le {coarse : Int} (h : grid ≤ coarse) (n : Nat) :
    ∃ m : Nat, (n : ℚ) * 10 ^ coarse = m * 10 ^ grid := by
  obtain ⟨k, rfl⟩ := Int.le.dest h
  refine ⟨n * 10 ^ k, ?_⟩
  rw [zpow_add₀ (by norm_num), zpow_natCast]
  push_cast
  ring

/-- A full significand has 53 bits. -/
theorem unit_le_magnitude (hfull : significandBound ≤ 2 * x.significand) :
    4503599627370496 * 2 ^ x.exponent ≤ x.magnitude := by
  have hm : 4503599627370496 ≤ x.significand := by
    rw [significandBound_eq] at hfull
    omega
  have hm : (4503599627370496 : ℚ) ≤ x.significand := by exact_mod_cast hm
  exact mul_le_mul_of_nonneg_right hm (two_zpow_pos _).le

/-- A number of full width is at most twice what is rounded to it. -/
theorem magnitude_le_of_nearest (hfull : significandBound ≤ 2 * x.significand)
    (hq : x.Nearest q) : x.magnitude ≤ 2 * q := by
  have hpos := two_zpow_pos x.exponent
  have hunit := unit_le_magnitude hfull
  have hlow := x.sub_half_le_low.trans hq.low_le
  rw [magnitude] at hunit ⊢
  linarith

/-- The grid of the leading digit is wider than the interval around a number with a full
significand. -/
theorem unit_lt_ten_zpow (hfull : significandBound ≤ 2 * x.significand) :
    (2 : ℚ) ^ x.exponent < 10 ^ leadingExponent x.fourfold.1 := by
  have hne : x.significand ≠ 0 := by
    rw [significandBound_eq] at hfull
    omega
  have hunit := unit_le_magnitude hfull
  have hfirst := (magnitude_between hne).2
  have hpos := ten_zpow_pos (leadingExponent x.fourfold.1)
  rw [zpow_add_one₀ (by norm_num)] at hfirst
  linarith

/-- A number of 15 digits that is rounded to a number with a full significand is what is written for
it. -/
theorem written_eq_of_nearest (hfull : significandBound ≤ 2 * x.significand)
    (hdigits : HasDigits 15 q) (hq : x.Nearest q) : x.written = q := by
  obtain ⟨c, e, hc, rfl⟩ := hdigits
  have hne : x.significand ≠ 0 := by
    rw [significandBound_eq] at hfull
    omega
  have hunit := unit_le_magnitude hfull
  have hdouble := magnitude_le_of_nearest hfull hq
  have hleading := unit_lt_ten_zpow hfull
  have hcoefficient : (c : ℚ) * 10 ^ e ≤ 1000000000000000 * 10 ^ e := by
    have hc : (c : ℚ) ≤ 1000000000000000 := by exact_mod_cast hc.le
    exact mul_le_mul_of_nonneg_right hc (ten_zpow_pos e).le
  obtain ⟨hfirst, -⟩ := magnitude_between hne
  obtain ⟨n, last, hfound, hwritten⟩ := exists_firstGrid_eq hne
  obtain ⟨-, -, -, hskipped, hlast⟩ := firstGrid_spec hfound
  generalize leadingExponent x.fourfold.1 = E at *
  obtain ⟨k, hk⟩ := exists_point_of_le (min_le_left e E) c
  -- The search stops no later than on a grid of the number itself.
  have hreached : E - 16 < min e E := by
    have hten := ten_zpow_pos e
    have hlt : (10 : ℚ) ^ E < 10 ^ (16 + e) := by
      rw [zpow_add₀ (by norm_num)]
      norm_num
      linarith
    have hlt := (zpow_lt_zpow_iff_right₀ (by norm_num)).1 hlt
    omega
  have hstop : min e E ≤ last := by
    by_contra hlt
    rw [hk] at hq
    exact not_nearest_of_onGrid? (hskipped _ (not_le.1 hlt) (min_le_right e E)) k hq
  have hsome : x.onGrid? last = some n := by
    obtain hsome | ⟨hend, -⟩ := hlast
    · exact hsome
    · push_cast at hend
      omega
  have hwide : (2 : ℚ) ^ x.exponent < 10 ^ min e E := by
    obtain h | h := min_choice e E
    · rw [h]
      have hpos := two_zpow_pos x.exponent
      linarith
    · rwa [h]
  obtain ⟨l, hl⟩ := exists_point_of_le hstop n
  have hfoundNearest := (onGrid?_eq_some hsome).1
  rw [hl] at hfoundNearest
  rw [hk] at hq
  rw [hwritten, hl, hk, eq_of_nearest_grid hfoundNearest hq hwide]

end Binary64

end TableShell.Number
