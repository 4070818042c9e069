import Httpfs.Text.Core
import Httpfs.Word64.Core

/-!
# Decimal numbers

How the standard library reads an unsigned number of 64 bits from a text.
-/

namespace Httpfs.Text

open Word64

/-- The sign in front of a number, and what follows it. -/
def cutSign : Text → Bool × Text
  | '-' :: rest => (true, rest)
  | '+' :: rest => (false, rest)
  | digits => (false, digits)

/-- `std::stoull`: blanks, a sign, and digits, after which anything may follow.
`none` when it throws; a minus sign negates modulo `2^64`. -/
def stoull (text : Text) : Option Nat :=
  let (negative, rest) := cutSign (text.dropWhile isSpace)
  let digits := rest.takeWhile Char.isDigit
  let value := Nat.ofDigitChars 10 digits 0
  if digits.isEmpty then none
  else if modulus ≤ value then none
  else some (if negative then (modulus - value) % modulus else value)

theorem isSpace_of_isDigit {byte : Char} (digit : byte.isDigit = true) : isSpace byte = false := by
  rw [Char.isDigit_iff_toNat] at digit
  rw [isSpace, ← Bool.not_eq_true, List.contains_eq_mem, decide_eq_true_eq]
  intro blank
  simp only [List.mem_cons, List.not_mem_nil, or_false] at blank
  rcases blank with rfl | rfl | rfl | rfl | rfl | rfl
  all_goals exact absurd digit (by decide)

theorem cutSign_of_isDigit {byte : Char} (digit : byte.isDigit = true) (rest : Text) :
    cutSign (byte :: rest) = (false, byte :: rest) := by
  unfold cutSign
  split
  · rename_i eq
    cases eq
    exact absurd digit (by decide)
  · rename_i eq
    cases eq
    exact absurd digit (by decide)
  · rfl

/-- A number that was written is read back. -/
theorem stoull_toDigits {number : Nat} (fits : number < modulus) :
    stoull (Nat.toDigits 10 number) = some number := by
  have allDigits : ∀ byte ∈ Nat.toDigits 10 number, byte.isDigit = true :=
    fun byte member => Nat.isDigit_of_mem_toDigits (by decide) (by decide) member
  cases digitsEq : Nat.toDigits 10 number with
  | nil => exact absurd digitsEq Nat.toDigits_ne_nil
  | cons first rest =>
      rw [digitsEq] at allDigits
      have firstDigit := allDigits first List.mem_cons_self
      have value : Nat.ofDigitChars 10 (first :: rest) 0 = number := by
        rw [← digitsEq, Nat.ofDigitChars_ten_toDigits]
      rw [stoull, List.dropWhile_cons_of_neg (by rw [isSpace_of_isDigit firstDigit]; decide),
        cutSign_of_isDigit firstDigit]
      dsimp only
      rw [List.takeWhile_eq_self_iff.mpr allDigits, value, if_neg (by simp),
        if_neg (by omega), if_neg (by simp)]

theorem stoull_toString {number : Nat} (fits : number < modulus) :
    stoull (toString number).toList = some number := by
  rw [Nat.toString_eq_ofList_toDigits, String.toList_ofList]
  exact stoull_toDigits fits

example : stoull " +42 bytes".toList = some 42 ∧ stoull "many".toList = none := by decide

end Httpfs.Text
