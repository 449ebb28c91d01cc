import Mathlib.Data.Nat.Digits.Defs
import Mathlib.Tactic.Ring
import TableShell.Number.Integer
import TableShell.Proofs.Lexeme

/-!
# Decimal numerals

A numeral is what a reader of integers takes for a number: a minus sign or none, and digits, the
first of which may be zero. It is read as the number that its digits stand for
(`Number.Numeral.readInt_text`), and it is a word.
-/

namespace TableShell.Number

/-- The characters of digits, the highest digit first. -/
def digitChars (digits : List (Fin 10)) : List Char := digits.map fun d => Nat.digitChar d.val

/-- A decimal numeral without a plus sign. -/
structure Numeral where
  negative : Bool
  /-- The digits, the highest digit first. -/
  digits : List (Fin 10)
  ne_nil : digits ≠ []

namespace Numeral

/-- The numeral as it is written. -/
def text (n : Numeral) : String :=
  String.ofList ((if n.negative then ['-'] else []) ++ digitChars n.digits)

/-- The number that the digits stand for. -/
def magnitude (n : Numeral) : Nat := Nat.ofDigits 10 (n.digits.reverse.map Fin.val)

/-- The number that the numeral stands for. -/
def value (n : Numeral) : Int := if n.negative then -n.magnitude else n.magnitude

end Numeral

/-- The character of a digit is a digit and stands for it. -/
theorem isDigit_digitChar : ∀ d : Fin 10,
    (Nat.digitChar d).isDigit = true ∧ (Nat.digitChar d).toNat - '0'.toNat = d := by
  decide

/-- Digits continue the number that was written before them. -/
theorem digitsFrom_digitChars (n : Nat) (digits : List (Fin 10)) :
    digitsFrom n (digitChars digits) =
      some (n * 10 ^ digits.length + Nat.ofDigits 10 (digits.reverse.map Fin.val)) := by
  induction digits generalizing n with
  | nil => simp [digitChars, digitsFrom]
  | cons d digits ih =>
    obtain ⟨hdigit, hvalue⟩ := isDigit_digitChar d
    change digitsFrom n (Nat.digitChar d :: digitChars digits) = _
    rw [digitsFrom, if_pos hdigit, hvalue, ih, List.reverse_cons, List.map_append,
      Nat.ofDigits_append, List.length_map, List.length_reverse, List.length_cons]
    simp only [List.map_cons, List.map_nil, Nat.ofDigits_singleton]
    congr 1
    ring

/-- A text that starts with a digit has no sign. -/
theorem readInt_digit_cons (d : Fin 10) (cs : List Char) :
    readInt (Nat.digitChar d :: cs) = (digitsFrom 0 (Nat.digitChar d :: cs)).map Int.ofNat := by
  obtain ⟨hminus, hplus⟩ : Nat.digitChar d ≠ '-' ∧ Nat.digitChar d ≠ '+' := by
    revert d
    decide
  simp [readInt, readNat, readDigits, hminus, hplus]

namespace Numeral

/-- A numeral is read as the number that it stands for. -/
theorem readInt_text (n : Numeral) : readInt n.text.toList = some n.value := by
  obtain ⟨negative, digits, hne⟩ := n
  obtain ⟨d, digits, rfl⟩ := List.exists_cons_of_ne_nil hne
  have hread := digitsFrom_digitChars 0 (d :: digits)
  rw [Nat.zero_mul, Nat.zero_add] at hread
  rw [text, String.toList_ofList]
  cases negative with
  | true =>
    change (digitsFrom 0 (digitChars (d :: digits))).map (fun n => -(n : Int)) = _
    rw [hread]
    rfl
  | false =>
    change readInt (Nat.digitChar d :: digitChars digits) = _
    rw [readInt_digit_cons]
    change (digitsFrom 0 (digitChars (d :: digits))).map Int.ofNat = _
    rw [hread]
    rfl

/-- A numeral is read as its value exactly when the value has 32 bits, with zeros in front or not.
-/
theorem readInt32_text (n : Numeral) :
    readInt32 n.text.toList =
      if -0x80000000 ≤ n.value ∧ n.value ≤ 0x7FFFFFFF then some n.value else none := by
  rw [readInt32, readIntIn, readInt_text]
  simp [Option.filter]

/-- A numeral is a word of a statement. -/
theorem isWord_text (n : Numeral) : Lexeme.IsWord n.text.toList := by
  obtain ⟨negative, digits, hne⟩ := n
  have hdigits : (digitChars digits).all Lexeme.isWordChar = true := by
    refine List.all_eq_true.2 fun c hc => ?_
    obtain ⟨d, -, rfl⟩ := List.mem_map.1 hc
    simp [Lexeme.isWordChar, Char.isAlphanum, (isDigit_digitChar d).1]
  rw [text, String.toList_ofList]
  refine ⟨by simp [digitChars, hne], ?_⟩
  rw [List.all_append, hdigits, Bool.and_true]
  cases negative <;> rfl

end Numeral

end TableShell.Number
