import TableShell.Number.Decimal
import TableShell.Proofs.Lexeme
import TableShell.Proofs.Number.Shortest

/-!
# Numbers written in decimal

What a decimal text stands for (`Number.Decimal.value`). A floating-point number reads back as what
is written for it (`Number.Binary64.read?_text`), an integer as itself
(`Number.Decimal.read?_of_readInt`), and a decimal number is rounded to the floating-point number
around which it lies (`Number.Decimal.toBinary64?_eq_some_iff`).
-/

namespace TableShell.Number

/-! ## Digits -/

/-- A digit reader that starts at a number succeeds on digits only and gives the number they write
behind it. -/
theorem digitsFrom_eq_some_iff {n m : Nat} {cs : List Char} :
    digitsFrom n cs = some m ↔ (∀ c ∈ cs, c.isDigit = true) ∧ Nat.ofDigitChars 10 cs n = m := by
  induction cs generalizing n with
  | nil => simp [digitsFrom, Nat.ofDigitChars_nil]
  | cons c cs ih =>
    rw [digitsFrom]
    by_cases hc : c.isDigit = true
    · rw [if_pos hc, ih, Nat.ofDigitChars_cons]
      simp [hc]
    · rw [if_neg hc]
      simp [hc]

/-- A natural number is read from digits only, and from one of them at least. -/
theorem readDigits_eq_some_iff {m : Nat} {cs : List Char} :
    readDigits cs = some m ↔
      cs ≠ [] ∧ (∀ c ∈ cs, c.isDigit = true) ∧ Nat.ofDigitChars 10 cs 0 = m := by
  cases cs with
  | nil => exact ⟨nofun, fun h => absurd rfl h.1⟩
  | cons c cs =>
    rw [readDigits, digitsFrom_eq_some_iff]
    simp

/-- A minus in front of digits negates the number. -/
theorem readInt_minus {n : Nat} {cs : List Char} (h : readDigits cs = some n) :
    readInt ('-' :: cs) = some (-(n : Int)) := by
  simp [readInt, h]

/-- A plus in front of digits makes no difference. -/
theorem readInt_plus {n : Nat} {cs : List Char} (h : readDigits cs = some n) :
    readInt ('+' :: cs) = some (n : Int) := by
  simp [readInt, readNat, h]

/-- The digits of a number are digits. -/
theorem isDigit_of_mem_digits {n : Nat} {c : Char} (h : c ∈ Binary64.digits n) :
    c.isDigit = true :=
  Nat.isDigit_of_mem_toDigits (by norm_num) le_rfl h

namespace Decimal

variable {d : Decimal} {x : Binary64} {s whole places cs : List Char} {c : Char}

/-- The number without its sign. -/
def magnitude (d : Decimal) : ℚ := d.coefficient * 10 ^ d.exponent

/-- The number that the decimal stands for. -/
def value (d : Decimal) : ℚ := if d.negative then -d.magnitude else d.magnitude

/-- A decimal has no negative magnitude: its sign is apart. -/
theorem magnitude_nonneg (d : Decimal) : 0 ≤ d.magnitude :=
  mul_nonneg (Nat.cast_nonneg _) (zpow_nonneg (by norm_num) _)

/-- The magnitude of a decimal is its value without the sign. -/
theorem abs_value (d : Decimal) : |d.value| = d.magnitude := by
  rw [value]
  split
  · rw [abs_neg, abs_of_nonneg d.magnitude_nonneg]
  · exact abs_of_nonneg d.magnitude_nonneg

/-! ## Reading -/

/-- The number that a text without sign writes, with the given sign. -/
def readSigned (negative : Bool) (unsigned : List Char) : Option Decimal :=
  match readUnsigned? (unsigned.takeWhile fun c => !isMark c),
      (match unsigned.dropWhile fun c => !isMark c with
      | [] => some 0
      | _ :: cs => readInt cs) with
  | some (coefficient, places), some power => some ⟨negative, coefficient, places + power⟩
  | _, _ => none

/-- A text with a minus in front is read as a negative decimal. -/
theorem read?_minus (cs : List Char) : read? ('-' :: cs) = readSigned true cs := rfl

/-- A text with a plus in front is read as a decimal without it. -/
theorem read?_plus (cs : List Char) : read? ('+' :: cs) = readSigned false cs := rfl

/-- A text with a digit in front is read as a decimal without a sign. -/
theorem read?_digit (h : c.isDigit = true) (cs : List Char) :
    read? (c :: cs) = readSigned false (c :: cs) := by
  have hminus : c ≠ '-' := by
    rintro rfl
    exact absurd h (by decide)
  have hplus : c ≠ '+' := by
    rintro rfl
    exact absurd h (by decide)
  rw [read?]
  · rfl
  · simpa using hminus
  · simpa using hplus

/-- A digit is no point. -/
theorem ne_point_of_isDigit (h : c.isDigit = true) : (c != '.') = true := by
  rw [bne_iff_ne]
  rintro rfl
  exact absurd h (by decide)

/-- A digit does not start an exponent. -/
theorem not_isMark_of_isDigit (h : c.isDigit = true) : (!isMark c) = true := by
  rw [isMark, Bool.not_eq_true', Bool.or_eq_false_iff, beq_eq_false_iff_ne, beq_eq_false_iff_ne]
  constructor
  · rintro rfl
    exact absurd h (by decide)
  · rintro rfl
    exact absurd h (by decide)

/-- Places behind the point, and no point if there are none. -/
def pointed (places : List Char) : List Char :=
  match places with
  | [] => []
  | places => '.' :: places

/-- The number with its exponent counted from the end of the places. -/
theorem readUnsigned?_pointed (hwhole : ∀ c ∈ whole, c.isDigit = true)
    (hplaces : ∀ c ∈ places, c.isDigit = true) (hne : whole ≠ []) :
    readUnsigned? (whole ++ pointed places) =
      some (Nat.ofDigitChars 10 (whole ++ places) 0, -(places.length : Int)) := by
  have hwhole' : whole.all (· != '.') = true :=
    List.all_eq_true.2 fun c hc => ne_point_of_isDigit (hwhole c hc)
  have hpoint : (pointed places).head?.any (· != '.') = false := by
    cases places with
    | nil => rfl
    | cons c places => rfl
  obtain ⟨htake, hdrop⟩ := Lexeme.takeWhile_append_of_head hwhole' hpoint
  have hplaces' : (pointed places).drop 1 = places := by
    cases places with
    | nil => rfl
    | cons c places => rfl
  have hdigits : readDigits (whole ++ places) = some (Nat.ofDigitChars 10 (whole ++ places) 0) :=
    readDigits_eq_some_iff.2 ⟨by simp [hne], List.forall_mem_append.2 ⟨hwhole, hplaces⟩, rfl⟩
  rw [readUnsigned?, htake, hdrop, hplaces', hdigits]
  rfl

/-- The exponent behind a mark, or nothing. -/
def powered : Option Int → List Char
  | none => []
  | some power =>
    'e' :: (if power < 0 then '-' else '+') :: Binary64.digits power.natAbs

/-- An exponent is read back from its sign and its digits. -/
theorem readInt_sign_digits (power : Int) :
    readInt ((if power < 0 then '-' else '+') :: Binary64.digits power.natAbs) = some power := by
  have hdigits : readDigits (Binary64.digits power.natAbs) = some power.natAbs :=
    readDigits_eq_some_iff.2 ⟨Nat.toDigits_ne_nil, fun _ => isDigit_of_mem_digits,
      Nat.ofDigitChars_ten_toDigits⟩
  split
  · next h =>
    rw [readInt_minus hdigits]
    congr 1
    omega
  · next h =>
    rw [readInt_plus hdigits]
    congr 1
    omega

/-- Digits with a point among them and an exponent behind them are read as they are. -/
theorem readSigned_pointed (negative : Bool) (power : Option Int)
    (hwhole : ∀ c ∈ whole, c.isDigit = true) (hplaces : ∀ c ∈ places, c.isDigit = true)
    (hne : whole ≠ []) :
    readSigned negative (whole ++ pointed places ++ powered power) =
      some ⟨negative, Nat.ofDigitChars 10 (whole ++ places) 0,
        -(places.length : Int) + power.getD 0⟩ := by
  have hmark : (whole ++ pointed places).all (fun c => !isMark c) = true := by
    refine List.all_eq_true.2 (List.forall_mem_append.2 ⟨fun c hc => ?_, ?_⟩)
    · exact not_isMark_of_isDigit (hwhole c hc)
    · cases places with
      | nil => exact nofun
      | cons c places =>
        exact List.forall_mem_cons.2 ⟨by decide, fun c hc => not_isMark_of_isDigit (hplaces c hc)⟩
  have hpowered : (powered power).head?.any (fun c => !isMark c) = false := by
    cases power with
    | none => rfl
    | some power => rfl
  obtain ⟨htake, hdrop⟩ := Lexeme.takeWhile_append_of_head hmark hpowered
  have hpower : (match powered power with
      | [] => some 0
      | _ :: cs => readInt cs) = some (power.getD 0) := by
    cases power with
    | none => rfl
    | some power => exact readInt_sign_digits power
  rw [readSigned, htake, hdrop, readUnsigned?_pointed hwhole hplaces hne, hpower]

/-- A text of digits is read as the decimal with that coefficient. -/
theorem readSigned_of_readDigits (negative : Bool) {m : Nat} (h : readDigits cs = some m) :
    readSigned negative cs = some ⟨negative, m, 0⟩ := by
  obtain ⟨hne, hdigits, rfl⟩ := readDigits_eq_some_iff.1 h
  have hread : readSigned negative (cs ++ pointed [] ++ powered none) = _ :=
    readSigned_pointed negative none hdigits nofun hne
  simpa [pointed, powered] using hread

/-- An integer is read as itself. -/
theorem read?_of_readInt {n : Int} (h : readInt s = some n) :
    ∃ d, read? s = some d ∧ d.value = n := by
  cases s with
  | nil => cases h
  | cons c cs =>
    by_cases hminus : c = '-'
    · subst hminus
      obtain ⟨m, hm, hn⟩ : ∃ m, readDigits cs = some m ∧ -(m : Int) = n := by
        simpa [readInt, Option.bind_eq_some_iff] using h
      refine ⟨_, by rw [read?_minus, readSigned_of_readDigits true hm], ?_⟩
      simp [value, magnitude, ← hn]
    by_cases hplus : c = '+'
    · subst hplus
      obtain ⟨m, hm, hn⟩ : ∃ m, readDigits cs = some m ∧ (m : Int) = n := by
        simpa [readInt, readNat, Option.map_eq_some_iff] using h
      refine ⟨_, by rw [read?_plus, readSigned_of_readDigits false hm], ?_⟩
      simp [value, magnitude, ← hn]
    · obtain ⟨m, hm, hn⟩ : ∃ m, readDigits (c :: cs) = some m ∧ (m : Int) = n := by
        simpa [readInt, readNat, hminus, hplus, Option.map_eq_some_iff] using h
      have hdigit := (readDigits_eq_some_iff.1 hm).2.1 c List.mem_cons_self
      refine ⟨_, by rw [read?_digit hdigit, readSigned_of_readDigits false hm], ?_⟩
      simp [value, magnitude, ← hn]

/-! ## Rounding -/

/-- A decimal lies below the power of ten that follows its first digit. -/
theorem magnitude_lt (hd : d.coefficient ≠ 0) : d.magnitude < 10 ^ (d.firstExponent + 1) := by
  obtain ⟨k, hk, -, hlt⟩ := exists_decimalLength_eq hd
  have hlt : (d.coefficient : ℚ) < 10 ^ ((k : Int) + 1) := by exact_mod_cast hlt
  have hfirst : d.firstExponent + 1 = k + 1 + d.exponent := by
    rw [firstExponent, hk]
    push_cast
    ring
  rw [magnitude, hfirst, zpow_add₀ (by norm_num) _ d.exponent]
  exact mul_lt_mul_of_pos_right hlt (ten_zpow_pos _)

/-- A decimal that is not zero lies at or above the power of ten of its first digit. -/
theorem le_magnitude (hd : d.coefficient ≠ 0) : 10 ^ d.firstExponent ≤ d.magnitude := by
  obtain ⟨k, hk, hle, -⟩ := exists_decimalLength_eq hd
  have hle : (10 : ℚ) ^ (k : Int) ≤ d.coefficient := by exact_mod_cast hle
  have hfirst : d.firstExponent = k + d.exponent := by
    rw [firstExponent, hk]
    push_cast
    ring
  rw [magnitude, hfirst, zpow_add₀ (by norm_num)]
  exact mul_le_mul_of_nonneg_right hle (ten_zpow_pos _).le

/-- Three binary places fit into a decimal one. -/
theorem two_zpow_le_ten_zpow (n : Nat) : (2 : ℚ) ^ (3 * n : Int) ≤ 10 ^ (n : Int) := by
  rw [zpow_mul, zpow_natCast, zpow_natCast]
  exact pow_le_pow_left₀ (by norm_num) (by norm_num) n

/-- A number this small is rounded to zero. -/
theorem lt_high_zero (negative : Bool) :
    (10 : ℚ) ^ (-400 : Int) < Binary64.high ⟨negative, 0, Binary64.minExponent⟩ := by
  have hle := inv_anti₀ (Binary64.two_zpow_pos _) (two_zpow_le_ten_zpow 400)
  have hlt : (2 : ℚ) ^ (-1200 : Int) < 2 ^ (-1075 : Int) :=
    zpow_lt_zpow_right₀ one_lt_two (by norm_num)
  have hhigh : Binary64.high ⟨negative, 0, Binary64.minExponent⟩ = 2 ^ (-1075 : Int) := by
    rw [Binary64.high_eq, Binary64.minExponent, show (-1075 : Int) = -1 + -1074 by norm_num,
      zpow_add₀ two_ne_zero]
    norm_num
  rw [hhigh]
  rw [← zpow_neg, ← zpow_neg] at hle
  exact lt_of_le_of_lt hle hlt

/-- A number this great is too large. -/
theorem overflow_le : Binary64.overflow ≤ (10 : ℚ) ^ (400 : Int) := by
  have hpos := Binary64.two_zpow_pos Binary64.maxExponent
  calc Binary64.overflow
    _ ≤ 2 ^ (53 : Int) * 2 ^ Binary64.maxExponent := by
      rw [Binary64.overflow]
      norm_num
      linarith
    _ = 2 ^ (1024 : Int) := (zpow_add₀ two_ne_zero 53 971).symm
    _ ≤ 2 ^ (3 * 400 : Int) := zpow_le_zpow_right₀ one_le_two (by norm_num)
    _ ≤ 10 ^ (400 : Int) := two_zpow_le_ten_zpow 400

/-- A decimal number is rounded to the floating-point number around which it lies: the shortcuts for
very small and very great numbers change nothing. -/
theorem toBinary64?_rounds (d : Decimal) :
    Binary64.Rounds d.negative d.magnitude d.toBinary64? := by
  rw [toBinary64?]
  split_ifs with hsmall hgreat
  · refine ⟨Binary64.canonical_zero _, rfl, ?_, .inl ?_⟩
    · rw [Binary64.low_eq_of_zero rfl]
      exact d.magnitude_nonneg.lt_or_eq.imp_right fun h => ⟨rfl, h⟩
    · refine lt_of_le_of_lt ?_ (lt_high_zero _)
      by_cases hd : d.coefficient = 0
      · rw [magnitude, hd, Nat.cast_zero, zero_mul]
        exact (ten_zpow_pos _).le
      · exact (magnitude_lt hd).le.trans (zpow_le_zpow_right₀ (by norm_num) (by omega))
  · rw [not_or] at hsmall
    exact overflow_le.trans ((zpow_le_zpow_right₀ (by norm_num) hgreat.le).trans
      (le_magnitude hsmall.1))
  · rw [magnitude, ← Binary64.value_point]
    exact Binary64.nearest?_rounds _ (Fraction.den_scale_pos one_pos (by norm_num) _).ne'

/-- A decimal is rounded to the one floating-point number of its sign that it is nearest to. -/
theorem toBinary64?_eq_some_iff :
    d.toBinary64? = some x ↔ x.Canonical ∧ x.negative = d.negative ∧ x.Nearest d.magnitude :=
  d.toBinary64?_rounds.eq_some_iff

/-- A decimal has no floating-point number exactly when it is too large for all of them. -/
theorem toBinary64?_eq_none_iff : d.toBinary64? = none ↔ Binary64.overflow ≤ d.magnitude :=
  d.toBinary64?_rounds.eq_none_iff

/-! ## Writing -/

/-- A text without sign writes a number: digits with a point among them, and an exponent behind
them. -/
def Writes (text : List Char) (q : ℚ) : Prop :=
  ∃ whole places power, text = whole ++ pointed places ++ powered power ∧ whole ≠ [] ∧
    (∀ c ∈ whole, c.isDigit = true) ∧ (∀ c ∈ places, c.isDigit = true) ∧
      (Nat.ofDigitChars 10 (whole ++ places) 0 : ℚ) *
        10 ^ (-(places.length : Int) + power.getD 0) = q

/-- A text that writes a number is read as a decimal of that magnitude, with a minus in front or
not. -/
theorem Writes.exists_read? {text : List Char} {q : ℚ} (h : Writes text q) (negative : Bool) :
    ∃ d, read? (if negative then '-' :: text else text) = some d ∧ d.negative = negative ∧
      d.magnitude = q := by
  obtain ⟨whole, places, power, rfl, hne, hwhole, hplaces, hq⟩ := h
  have hread := readSigned_pointed negative power hwhole hplaces hne
  refine ⟨⟨negative, Nat.ofDigitChars 10 (whole ++ places) 0,
    -(places.length : Int) + power.getD 0⟩, ?_, rfl, hq⟩
  cases negative with
  | true => exact hread
  | false =>
    obtain ⟨c, whole, rfl⟩ := List.exists_cons_of_ne_nil hne
    exact (read?_digit (hwhole c List.mem_cons_self) _).trans hread

/-- Zeros are digits. -/
theorem isDigit_of_mem_zeros {k : Nat} (h : c ∈ List.replicate k '0') : c.isDigit = true := by
  rw [List.eq_of_mem_replicate h]
  rfl

/-- Digits with a point before the last of them. -/
theorem writes_cut {ds : List Char} (hds : ∀ c ∈ ds, c.isDigit = true) {n : Nat}
    (hlength : n + 1 < ds.length) :
    Writes (ds.take (ds.length - (n + 1)) ++ '.' :: ds.drop (ds.length - (n + 1)))
      (Nat.ofDigitChars 10 ds 0 * 10 ^ (Int.negSucc n)) := by
  have hplaces : (ds.drop (ds.length - (n + 1))).length = n + 1 := by
    rw [List.length_drop]
    omega
  obtain ⟨c, places, hcons⟩ : ∃ c places, ds.drop (ds.length - (n + 1)) = c :: places :=
    List.exists_cons_of_length_pos (by omega)
  refine ⟨ds.take (ds.length - (n + 1)), ds.drop (ds.length - (n + 1)), none, ?_, ?_,
    fun c hc => hds c (List.mem_of_mem_take hc), fun c hc => hds c (List.mem_of_mem_drop hc), ?_⟩
  · rw [hcons]
    simp [pointed, powered]
  · refine List.ne_nil_of_length_pos ?_
    rw [List.length_take]
    omega
  · rw [List.take_append_drop, hplaces, Option.getD_none, add_zero, Int.negSucc_eq]
    push_cast
    rfl

/-- Digits written with a point at any place write the number they stand for. -/
theorem writes_positional {ds : List Char} (hds : ∀ c ∈ ds, c.isDigit = true) (hne : ds ≠ [])
    (last : Int) :
    Writes (Binary64.positional ds last) (Nat.ofDigitChars 10 ds 0 * 10 ^ last) := by
  cases last with
  | ofNat n =>
    have hzero : ∀ c ∈ ['0'], c.isDigit = true := List.forall_mem_singleton.2 rfl
    refine ⟨ds ++ List.replicate n '0', ['0'], none, ?_, by simp [hne],
      List.forall_mem_append.2 ⟨hds, fun _ => isDigit_of_mem_zeros⟩, hzero, ?_⟩
    · simp [Binary64.positional, pointed, powered]
    · have hdigits : Nat.ofDigitChars 10 (ds ++ List.replicate n '0' ++ ['0']) 0 =
          10 * (10 ^ n * Nat.ofDigitChars 10 ds 0) := by
        rw [Nat.ofDigitChars_append, Nat.ofDigitChars_append, Nat.ofDigitChars_replicate_zero]
        rfl
      rw [hdigits]
      push_cast
      simp
      ring
  | negSucc n =>
    obtain ⟨padded, hpadded⟩ :
        ∃ padded, padded = List.replicate (n + 1 + 1 - ds.length) '0' ++ ds := ⟨_, rfl⟩
    have hlength : n + 1 < padded.length := by
      rw [hpadded, List.length_append, List.length_replicate]
      omega
    have hdigits : ∀ c ∈ padded, c.isDigit = true := by
      rw [hpadded]
      exact List.forall_mem_append.2 ⟨fun _ => isDigit_of_mem_zeros, hds⟩
    have hvalue : Nat.ofDigitChars 10 padded 0 = Nat.ofDigitChars 10 ds 0 := by
      rw [hpadded, Nat.ofDigitChars_append, Nat.ofDigitChars_replicate_zero, Nat.mul_zero]
    have hcut := writes_cut hdigits hlength
    rw [hvalue, hpadded] at hcut
    exact hcut

/-- Digits written with an exponent write the number they stand for. -/
theorem writes_scientific {ds : List Char} (hds : ∀ c ∈ ds, c.isDigit = true) (hne : ds ≠ [])
    (last : Int) :
    Writes (Binary64.scientific ds (last + ds.length - 1))
      (Nat.ofDigitChars 10 ds 0 * 10 ^ last) := by
  obtain ⟨c, ds, rfl⟩ := List.exists_cons_of_ne_nil hne
  obtain ⟨hc, hds⟩ := List.forall_mem_cons.1 hds
  refine ⟨[c], ds, some (last + (c :: ds).length - 1), ?_, List.cons_ne_nil _ _,
    List.forall_mem_singleton.2 hc, hds, ?_⟩
  · cases ds with
    | nil => rfl
    | cons c' ds => rfl
  · rw [List.singleton_append, Option.getD_some, List.length_cons]
    congr 2
    push_cast
    ring

end Decimal

/-- What is written for a floating-point number is read back. -/
theorem Binary64.read?_text (x : Binary64) :
    ∃ d, Decimal.read? x.text = some d ∧ d.negative = x.negative ∧ d.magnitude = x.written := by
  have hdigits : ∀ c ∈ digits x.shortest.1, c.isDigit = true := fun _ => isDigit_of_mem_digits
  have hne : digits x.shortest.1 ≠ [] := Nat.toDigits_ne_nil
  have hwritten : x.written =
      Nat.ofDigitChars 10 (digits x.shortest.1) 0 * 10 ^ x.shortest.2 := by
    have hvalue : Nat.ofDigitChars 10 (digits x.shortest.1) 0 = x.shortest.1 :=
      Nat.ofDigitChars_ten_toDigits
    rw [hvalue, written]
  have hwrites : Decimal.Writes (if -5 ≤ x.shortest.2 + (digits x.shortest.1).length - 1 ∧
      x.shortest.2 + (digits x.shortest.1).length - 1 < 16
      then positional (digits x.shortest.1) x.shortest.2
      else scientific (digits x.shortest.1) (x.shortest.2 + (digits x.shortest.1).length - 1))
      x.written := by
    rw [hwritten]
    split
    · exact Decimal.writes_positional hdigits hne _
    · exact Decimal.writes_scientific hdigits hne _
  exact hwrites.exists_read? x.negative

end TableShell.Number
