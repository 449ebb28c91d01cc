import Mathlib.Algebra.Order.Floor.Semifield
import Mathlib.Data.Rat.Cast.Order
import Mathlib.Data.Rat.Floor
import Mathlib.Tactic.FieldSimp
import Mathlib.Tactic.Linarith
import Mathlib.Tactic.Positivity
import Mathlib.Tactic.Ring
import TableShell.Number.Binary64

/-!
# Fractions as rational numbers

What the operations on fractions do to the rational numbers that they stand for
(`Number.Fraction.value`), and the powers of two and of ten between which a fraction lies.
-/

namespace TableShell.Number

/-- The number lies between two others, and may be one of them where that is asked. -/
def Within (orEqual : Bool) (low high q : ℚ) : Prop :=
  (low < q ∨ (orEqual = true ∧ low = q)) ∧ (q < high ∨ (orEqual = true ∧ q = high))

namespace Within

variable {orEqual : Bool} {low high p q r : ℚ}

/-- What lies between two numbers is not below the lower one. -/
theorem low_le (h : Within orEqual low high q) : low ≤ q := h.1.elim le_of_lt fun h => h.2.le

/-- What lies between two numbers is not above the higher one. -/
theorem le_high (h : Within orEqual low high q) : q ≤ high := h.2.elim le_of_lt fun h => h.2.le

/-- What lies between two numbers of an interval lies in it. -/
theorem convex (hp : Within orEqual low high p) (hr : Within orEqual low high r) (hpq : p ≤ q)
    (hqr : q ≤ r) : Within orEqual low high q := by
  constructor
  · obtain h | ⟨h, rfl⟩ := hp.1
    · exact .inl (h.trans_le hpq)
    · exact hpq.lt_or_eq.imp_right fun heq => ⟨h, heq⟩
  · obtain h | ⟨h, rfl⟩ := hr.2
    · exact .inl (hqr.trans_lt h)
    · exact hqr.lt_or_eq.imp_right fun heq => ⟨h, heq⟩

/-- Scaling all three numbers keeps one between the others. -/
theorem mul_iff {c : ℚ} (hc : 0 < c) :
    Within orEqual (low * c) (high * c) (q * c) ↔ Within orEqual low high q := by
  simp only [Within, mul_lt_mul_iff_left₀ hc, mul_left_inj' hc.ne']

end Within

namespace Fraction

variable {x y : Fraction}

/-- The number that the fraction stands for. -/
def value (x : Fraction) : ℚ := x.num / x.den

/-- A fraction has no sign. -/
theorem value_nonneg (x : Fraction) : 0 ≤ x.value := by
  rw [value]
  positivity

/-- A scaled fraction is the fraction times the power. -/
theorem value_scale (x : Fraction) {base : Nat} (hbase : base ≠ 0) (exponent : Int) :
    (x.scale base exponent).value = x.value * (base : ℚ) ^ exponent := by
  have hbase : (base : ℚ) ≠ 0 := Nat.cast_ne_zero.2 hbase
  cases exponent with
  | ofNat n =>
    have hpow : ((base.pow n : Nat) : ℚ) = (base : ℚ) ^ n := Nat.cast_pow base n
    simp only [scale, value, Nat.cast_mul, hpow, Int.ofNat_eq_natCast, zpow_natCast]
    ring
  | negSucc n =>
    have hpow : ((base.pow (n + 1) : Nat) : ℚ) = (base : ℚ) ^ (n + 1) := Nat.cast_pow base (n + 1)
    simp only [scale, value, Nat.cast_mul, hpow, zpow_negSucc]
    rw [div_mul_eq_div_div, div_eq_mul_inv]

/-- Scaling keeps the denominator positive. -/
theorem den_scale_pos (hden : 0 < x.den) {base : Nat} (hbase : 0 < base) (exponent : Int) :
    0 < (x.scale base exponent).den := by
  cases exponent with
  | ofNat n => exact hden
  | negSucc n => exact Nat.mul_pos hden (Nat.pow_pos hbase)

/-- The quotient of the natural numbers is the floor of the fraction. -/
theorem floor_eq (x : Fraction) : x.floor = ⌊x.value⌋₊ := (Nat.floor_div_eq_div _ _).symm

/-- A natural number is at most the floor exactly when it is at most the fraction. -/
theorem le_floor_iff (x : Fraction) (n : Nat) : n ≤ x.floor ↔ (n : ℚ) ≤ x.value := by
  rw [floor_eq, Nat.le_floor_iff x.value_nonneg]

/-- The floor is at most the fraction. -/
theorem floor_le (x : Fraction) : (x.floor : ℚ) ≤ x.value := (x.le_floor_iff _).1 le_rfl

/-- The fraction lies below the number after its floor. -/
theorem lt_floor_add_one (x : Fraction) : x.value < x.floor + 1 := by
  rw [floor_eq]
  exact Nat.lt_floor_add_one _

/-- The comparison by cross products compares the fractions. -/
theorem below_iff (hx : 0 < x.den) (hy : 0 < y.den) (orEqual : Bool) :
    x.below orEqual y = true ↔ x.value < y.value ∨ (orEqual = true ∧ x.value = y.value) := by
  have hx : (0 : ℚ) < x.den := Nat.cast_pos.2 hx
  have hy : (0 : ℚ) < y.den := Nat.cast_pos.2 hy
  rw [below, value, value, div_lt_div_iff₀ hx hy, div_eq_div_iff hx.ne' hy.ne']
  norm_cast
  simp

/-! ## Rounding -/

/-- A fraction is rounded to its floor or to the number after it. -/
theorem round_eq_or (x : Fraction) : x.round = x.floor ∨ x.round = x.floor + 1 := by
  rw [round, floor]
  split_ifs <;> simp

/-- A fraction is no more than a half away from the number that it is rounded to, and exactly a half
only if that number is even. -/
theorem within_round (hx : 0 < x.den) :
    Within (x.round % 2 = 0) (x.round - 1 / 2) (x.round + 1 / 2) x.value := by
  have hden : (0 : ℚ) < x.den := Nat.cast_pos.2 hx
  obtain ⟨part, hpart⟩ : ∃ part : ℚ, part = (x.num % x.den : Nat) / x.den := ⟨_, rfl⟩
  have hvalue : x.value = (x.num / x.den : Nat) + part := by
    have hnum : (x.num : ℚ) = x.den * (x.num / x.den : Nat) + (x.num % x.den : Nat) := by
      exact_mod_cast (Nat.div_add_mod x.num x.den).symm
    rw [value, hpart, div_eq_iff hden.ne', add_mul, div_mul_cancel₀ _ hden.ne', hnum, mul_comm]
  have hnonneg : 0 ≤ part := by
    rw [hpart]
    positivity
  have hlt : part < 1 := by
    rw [hpart, div_lt_one hden]
    exact_mod_cast Nat.mod_lt _ hx
  have hhalf : part < 1 / 2 ↔ 2 * (x.num % x.den) < x.den := by
    rw [hpart, div_lt_div_iff₀ hden two_pos, one_mul, mul_comm]
    exact_mod_cast Iff.rfl
  have hhalf' : 1 / 2 < part ↔ x.den < 2 * (x.num % x.den) := by
    rw [hpart, div_lt_div_iff₀ two_pos hden, one_mul, mul_comm]
    exact_mod_cast Iff.rfl
  rw [hvalue, round]
  split_ifs with hdown hup heven
  · have hdown := hhalf.2 hdown
    exact ⟨.inl (by linarith), .inl (by linarith)⟩
  · have hup := hhalf'.2 hup
    push_cast
    exact ⟨.inl (by linarith), .inl (by linarith)⟩
  · have heq := le_antisymm (not_lt.1 (mt hhalf'.1 hup)) (not_lt.1 (mt hhalf.1 hdown))
    exact ⟨.inl (by linarith), .inr ⟨by simpa using heven, by rw [heq]⟩⟩
  · have heq := le_antisymm (not_lt.1 (mt hhalf'.1 hup)) (not_lt.1 (mt hhalf.1 hdown))
    push_cast
    exact ⟨.inr ⟨by simp; omega, by linarith⟩, .inl (by linarith)⟩

/-! ## Powers of a base -/

/-- A fraction lies between the powers that follow from those around its parts. -/
theorem value_between {base a b : Nat} (hbase : 0 < base) (hnum : base ^ a ≤ x.num)
    (hnum' : x.num < base ^ (a + 1)) (hden : base ^ b ≤ x.den) (hden' : x.den < base ^ (b + 1)) :
    (base : ℚ) ^ ((a : Int) - b - 1) < x.value ∧ x.value < (base : ℚ) ^ ((a : Int) - b + 1) := by
  have hbase : (0 : ℚ) < base := Nat.cast_pos.2 hbase
  have hpos : (0 : ℚ) < x.den := Nat.cast_pos.2 ((Nat.pow_pos (Nat.cast_pos.1 hbase)).trans_le hden)
  rw [value, lt_div_iff₀ hpos, div_lt_iff₀ hpos]
  have hnum : (base : ℚ) ^ (a : Int) ≤ x.num := by exact_mod_cast hnum
  have hnum' : (x.num : ℚ) < (base : ℚ) ^ ((a : Int) + 1) := by exact_mod_cast hnum'
  have hden : (base : ℚ) ^ (b : Int) ≤ x.den := by exact_mod_cast hden
  have hden' : (x.den : ℚ) < (base : ℚ) ^ ((b : Int) + 1) := by exact_mod_cast hden'
  constructor
  · calc (base : ℚ) ^ ((a : Int) - b - 1) * x.den
      _ < (base : ℚ) ^ ((a : Int) - b - 1) * (base : ℚ) ^ ((b : Int) + 1) :=
        mul_lt_mul_of_pos_left hden' (zpow_pos hbase _)
      _ = (base : ℚ) ^ (a : Int) := by rw [← zpow_add₀ hbase.ne']; congr 1; omega
      _ ≤ x.num := hnum
  · calc (x.num : ℚ)
      _ < (base : ℚ) ^ ((a : Int) + 1) := hnum'
      _ = (base : ℚ) ^ ((a : Int) - b + 1) * (base : ℚ) ^ (b : Int) := by
        rw [← zpow_add₀ hbase.ne']; congr 1; omega
      _ ≤ (base : ℚ) ^ ((a : Int) - b + 1) * x.den :=
        mul_le_mul_of_nonneg_left hden (zpow_pos hbase _).le

/-- What a power of the base times a number is at most, the fraction divided by that power shows. -/
theorem le_floor_scale_neg_iff {base n : Nat} (hbase : 0 < base) {e : Int} :
    n ≤ (x.scale base (-e)).floor ↔ (n : ℚ) * (base : ℚ) ^ e ≤ x.value := by
  have hbase' : (0 : ℚ) < base := Nat.cast_pos.2 hbase
  rw [le_floor_iff, value_scale _ hbase.ne', zpow_neg, ← div_eq_mul_inv,
    le_div_iff₀ (zpow_pos hbase' e)]

end Fraction

/-- A number has at most so many digits exactly when it lies below that power of ten. -/
theorem decimalLength_le_iff {n k : Nat} (hk : 0 < k) : decimalLength n ≤ k ↔ n < 10 ^ k :=
  Nat.length_toDigits_le_iff (by omega) hk

/-- A number that is not zero lies between the powers of ten that its length gives. -/
theorem exists_decimalLength_eq {n : Nat} (hn : n ≠ 0) :
    ∃ k, decimalLength n = k + 1 ∧ 10 ^ k ≤ n ∧ n < 10 ^ (k + 1) := by
  obtain ⟨k, hk⟩ : ∃ k, decimalLength n = k + 1 := Nat.exists_eq_add_one.2 Nat.length_toDigits_pos
  refine ⟨k, hk, ?_, (decimalLength_le_iff k.succ_pos).1 hk.le⟩
  cases k with
  | zero => exact Nat.pos_of_ne_zero hn
  | succ k =>
    have hlong : ¬ decimalLength n ≤ k + 1 := by omega
    exact not_lt.1 (mt (decimalLength_le_iff k.succ_pos).2 hlong)

/-- The leading digit of a fraction stands at its leading exponent. -/
theorem leadingExponent_spec {x : Fraction} (hnum : x.num ≠ 0) (hden : x.den ≠ 0) :
    (10 : ℚ) ^ leadingExponent x ≤ x.value ∧ x.value < (10 : ℚ) ^ (leadingExponent x + 1) := by
  obtain ⟨a, ha, hnum, hnum'⟩ := exists_decimalLength_eq hnum
  obtain ⟨b, hb, hden, hden'⟩ := exists_decimalLength_eq hden
  obtain ⟨hlow, hhigh⟩ := Fraction.value_between (by norm_num) hnum hnum' hden hden'
  have hguess : (decimalLength x.num : Int) - decimalLength x.den = a - b := by omega
  rw [leadingExponent, hguess]
  split_ifs with h
  · rw [Fraction.le_floor_scale_neg_iff (by norm_num)] at h
    exact ⟨by simpa using h, hhigh⟩
  · rw [Fraction.le_floor_scale_neg_iff (by norm_num)] at h
    refine ⟨hlow.le, ?_⟩
    simpa using h

end TableShell.Number
