import Httpfs.Text.Core

/-!
# Length-prefixed sequences

A text behind its length can be told apart from what follows it, whatever its
bytes are, so a sequence of such texts has one reading.
-/

namespace Httpfs.Text

/-- A text as its decimal length, a colon, its bytes and a semicolon. -/
def lengthPrefixed (value : Text) : Text :=
  Nat.toDigits 10 value.length ++ ':' :: (value ++ [';'])

theorem toDigits_injective : Function.Injective (Nat.toDigits 10) := by
  intro left right same
  have decoded := congrArg (Nat.ofDigitChars 10 · 0) same
  simpa using decoded

theorem isDigit_of_mem_toDigits {number : Nat} {digit : Char}
    (member : digit ∈ Nat.toDigits 10 number) : digit.isDigit = true :=
  Nat.isDigit_of_mem_toDigits (by decide) (by decide) member

/-- The first text of a sequence is determined, and so is the rest. -/
theorem lengthPrefixed_append_inj {value other back rest : Text} :
    lengthPrefixed value ++ back = lengthPrefixed other ++ rest ↔ value = other ∧ back = rest := by
  constructor
  · intro same
    have noColon (number : Nat) : ':' ∉ Nat.toDigits 10 number := by
      intro member
      exact absurd (isDigit_of_mem_toDigits member) (by decide)
    simp only [lengthPrefixed, List.append_assoc, List.cons_append] at same
    rcases (append_cons_inj (noColon _) (noColon _)).mp same with ⟨lengths, bodies⟩
    have sameLength := toDigits_injective lengths
    rcases List.append_inj bodies sameLength with ⟨values, ends⟩
    exact ⟨values, (List.cons.inj ends).2⟩
  · rintro ⟨rfl, rfl⟩
    rfl

/-- A sequence of length-prefixed texts has one reading. -/
theorem flatMap_lengthPrefixed_injective :
    Function.Injective fun values : List Text => values.flatMap lengthPrefixed := by
  intro values
  induction values with
  | nil =>
      intro others same
      cases others with
      | nil => rfl
      | cons other others => simp [lengthPrefixed] at same
  | cons value values ih =>
      intro others same
      cases others with
      | nil => simp [lengthPrefixed] at same
      | cons other others =>
          simp only [List.flatMap_cons] at same
          rcases lengthPrefixed_append_inj.mp same with ⟨rfl, rest⟩
          rw [ih rest]

end Httpfs.Text
