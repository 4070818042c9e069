import Httpfs.Text.Core

/-!
# Percent encoding

URL encoding of byte strings: every byte that is not plain is written as `%`
and two hexadecimal digits.  Decoding reads a `+` as a space and copies what is
no escape.
-/

namespace Httpfs.Text.Percent

/-- The hexadecimal digit with a value below sixteen. -/
def hexDigit (value : Nat) : Char :=
  "0123456789ABCDEF".toList.getD value '0'

/-- The value of a hexadecimal digit. -/
def hexValue? (digit : Char) : Option Nat :=
  "0123456789ABCDEF".toList.findIdx? (· == digit.toUpper)

/-- Whether a byte is written as itself. -/
def isPlain (byte : Char) : Bool :=
  byte.isAlphanum || "/-_.~*".toList.contains byte || 256 ≤ byte.toNat

def encodeByte (byte : Char) : Text :=
  if isPlain byte then [byte]
  else ['%', hexDigit (byte.toNat / 16), hexDigit (byte.toNat % 16)]

def encode (text : Text) : Text :=
  text.flatMap encodeByte

def decode : Text → Text
  | [] => []
  | '%' :: high :: low :: rest =>
      match hexValue? high, hexValue? low with
      | some upper, some lower => Char.ofNat (16 * upper + lower) :: decode rest
      | _, _ => '%' :: decode (high :: low :: rest)
  | '+' :: rest => ' ' :: decode rest
  | byte :: rest => byte :: decode rest

theorem hexValue?_hexDigit {value : Nat} (small : value < 16) :
    hexValue? (hexDigit value) = some value := by
  have all : ∀ value < 16, hexValue? (hexDigit value) = some value := by decide
  exact all value small

theorem hexDigit_mem (value : Nat) : hexDigit value ∈ "0123456789ABCDEF".toList := by
  rw [hexDigit, List.getD_eq_getElem?_getD]
  cases digit : "0123456789ABCDEF".toList[value]? with
  | none => decide
  | some byte => exact List.mem_of_getElem? digit

/-- What the encoding of a byte is made of. -/
theorem mem_encodeByte {byte inside : Char} (member : inside ∈ encodeByte byte) :
    inside = byte ∨ isPlain byte = false ∧
      (inside = '%' ∨ inside ∈ "0123456789ABCDEF".toList) := by
  unfold encodeByte at member
  split at member
  · exact .inl (List.mem_singleton.mp member)
  · rename_i escaped
    right
    refine ⟨Bool.eq_false_iff.mpr escaped, ?_⟩
    rcases List.mem_cons.mp member with rfl | member
    · exact .inl rfl
    · rcases List.mem_cons.mp member with rfl | member
      · exact .inr (hexDigit_mem _)
      · rw [List.mem_singleton.mp member]
        exact .inr (hexDigit_mem _)

/-- A byte that starts no escape and is no `+` is copied. -/
theorem decode_cons {byte : Char} (noPercent : byte ≠ '%') (noPlus : byte ≠ '+') (rest : Text) :
    decode (byte :: rest) = byte :: decode rest := by
  rw [decode]
  · exact fun high low tail eq => absurd eq noPercent
  · exact fun eq => absurd eq noPlus

theorem decode_encodeByte_append (byte : Char) (rest : Text) :
    decode (encodeByte byte ++ rest) = byte :: decode rest := by
  unfold encodeByte
  split
  · rename_i plain
    have noPercent : byte ≠ '%' := by
      rintro rfl
      contradiction
    have noPlus : byte ≠ '+' := by
      rintro rfl
      contradiction
    exact decode_cons noPercent noPlus rest
  · rename_i escaped
    have small : byte.toNat < 256 := by
      simp only [isPlain, Bool.or_eq_true, decide_eq_true_eq, not_or] at escaped
      exact Nat.lt_of_not_le escaped.2
    have value : 16 * (byte.toNat / 16) + byte.toNat % 16 = byte.toNat :=
      Nat.div_add_mod byte.toNat 16
    simp only [List.cons_append, List.nil_append, decode,
      hexValue?_hexDigit (Nat.div_lt_of_lt_mul (show byte.toNat < 16 * 16 from small)),
      hexValue?_hexDigit (Nat.mod_lt byte.toNat (by decide)), value, Char.ofNat_toNat]

/-- Decoding inverts encoding. -/
theorem decode_encode (text : Text) : decode (encode text) = text := by
  induction text with
  | nil => rfl
  | cons byte rest inductionHypothesis =>
      rw [encode, List.flatMap_cons, decode_encodeByte_append]
      exact congrArg (byte :: ·) inductionHypothesis

end Httpfs.Text.Percent
