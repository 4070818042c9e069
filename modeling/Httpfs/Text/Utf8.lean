import Httpfs.Text.Core

/-!
# UTF-8 byte strings

The encoding of code points as byte strings, and the byte strings that encode
characters of a given kind.  An ASCII byte stands for itself and occurs in no
other encoding, so a byte string can be cut at it.
-/

namespace Httpfs.Text

/-- The UTF-8 encoding of a character. -/
def utf8Bytes (char : Char) : Text :=
  (String.utf8EncodeChar char).map fun byte => Char.ofNat byte.toNat

def utf8 (chars : List Char) : Text :=
  chars.flatMap utf8Bytes

@[simp]
theorem utf8_nil : utf8 [] = [] :=
  rfl

@[simp]
theorem utf8_cons (char : Char) (chars : List Char) :
    utf8 (char :: chars) = utf8Bytes char ++ utf8 chars :=
  rfl

theorem utf8_append (front back : List Char) : utf8 (front ++ back) = utf8 front ++ utf8 back :=
  List.flatMap_append

theorem utf8Bytes_ne_nil (char : Char) : utf8Bytes char ≠ [] := by
  simp [utf8Bytes]

/-- A byte value is the code of its character. -/
theorem toNat_ofNat_of_lt {value : Nat} (small : value < 256) :
    (Char.ofNat value).toNat = value := by
  have valid : value.isValidChar := Or.inl (by omega)
  rw [Char.ofNat, dif_pos valid]
  rfl

theorem utf8Bytes_of_ascii {char : Char} (ascii : char.toNat < 128) : utf8Bytes char = [char] := by
  have small : char.val.toNat ≤ 127 := Nat.le_of_lt_succ ascii
  rw [utf8Bytes, String.utf8EncodeChar]
  simp only [small, if_true, List.map_cons, List.map_nil, List.cons.injEq, and_true]
  have byte : (UInt8.ofNat char.val.toNat).toNat = char.toNat :=
    UInt8.toNat_ofNat_of_lt' (show char.toNat < 256 by omega)
  rw [byte, Char.ofNat_toNat]

/-- An ASCII byte is the encoding of itself only. -/
theorem utf8Bytes_eq_of_mem_ascii {char byte : Char} (member : byte ∈ utf8Bytes char)
    (ascii : byte.toNat < 128) : char = byte := by
  by_cases small : char.toNat < 128
  · rw [utf8Bytes_of_ascii small, List.mem_singleton] at member
    exact member.symm
  · exfalso
    obtain ⟨encoded, isByte, rfl⟩ := List.mem_map.mp member
    have large : ¬ char.val.toNat ≤ 127 := fun bound => small (Nat.lt_succ_of_le bound)
    have high : 128 ≤ encoded.toNat := by
      rw [String.utf8EncodeChar] at isByte
      simp only [large, if_false] at isByte
      split at isByte
      · rcases List.mem_cons.mp isByte with rfl | isByte
        · simp only [UInt8.toNat_ofNat']
          omega
        · rw [List.mem_singleton.mp isByte]
          simp only [UInt8.toNat_ofNat']
          omega
      · split at isByte
        · simp only [List.mem_cons, List.not_mem_nil, or_false] at isByte
          rcases isByte with rfl | rfl | rfl <;> simp only [UInt8.toNat_ofNat'] <;> omega
        · simp only [List.mem_cons, List.not_mem_nil, or_false] at isByte
          rcases isByte with rfl | rfl | rfl | rfl <;> simp only [UInt8.toNat_ofNat'] <;> omega
    rw [toNat_ofNat_of_lt encoded.toNat_lt] at ascii
    omega

/-! ## Byte arrays -/

/-- A byte string as an array of bytes. -/
def toBytes (text : Text) : ByteArray :=
  (text.map fun byte => UInt8.ofNat byte.toNat).toByteArray

theorem toBytes_append (front back : Text) :
    toBytes (front ++ back) = toBytes front ++ toBytes back := by
  rw [toBytes, List.map_append, List.toByteArray_append]
  rfl

private theorem ofNat_toNat_byte (byte : UInt8) :
    UInt8.ofNat (Char.ofNat byte.toNat).toNat = byte := by
  rw [toNat_ofNat_of_lt byte.toNat_lt, UInt8.ofNat_toNat]

theorem toBytes_utf8Bytes (char : Char) :
    toBytes (utf8Bytes char) = (String.utf8EncodeChar char).toByteArray := by
  rw [toBytes, utf8Bytes, List.map_map]
  congr 1
  conv_rhs => rw [← List.map_id (String.utf8EncodeChar char)]
  exact List.map_congr_left fun byte _ => ofNat_toNat_byte byte

theorem toBytes_utf8 (chars : List Char) : toBytes (utf8 chars) = chars.utf8Encode := by
  induction chars with
  | nil => rfl
  | cons char chars inductionHypothesis =>
      rw [utf8_cons, toBytes_append, inductionHypothesis, toBytes_utf8Bytes, List.utf8Encode,
        List.utf8Encode, List.flatMap_cons, List.toByteArray_append]

/-- A string of bytes is determined by its array. -/
theorem eq_of_toBytes_eq {text other : Text} (bytes : ∀ byte ∈ text, byte.toNat < 256)
    (otherBytes : ∀ byte ∈ other, byte.toNat < 256) (same : toBytes text = toBytes other) :
    text = other := by
  have restored : ∀ {text : Text}, (∀ byte ∈ text, byte.toNat < 256) →
      (text.map fun byte => UInt8.ofNat byte.toNat).map (fun byte => Char.ofNat byte.toNat) =
        text := by
    intro text bytes
    rw [List.map_map]
    conv_rhs => rw [← List.map_id text]
    apply List.map_congr_left
    intro byte member
    rw [Function.comp_apply, UInt8.toNat_ofNat_of_lt' (bytes byte member), Char.ofNat_toNat]
    rfl
  have lists := List.toByteArray_inj.mp same
  rw [← restored bytes, lists, restored otherBytes]

theorem toNat_lt_of_mem_utf8 {chars : List Char} {byte : Char} (member : byte ∈ utf8 chars) :
    byte.toNat < 256 := by
  obtain ⟨char, -, inChar⟩ := List.mem_flatMap.mp member
  obtain ⟨encoded, -, rfl⟩ := List.mem_map.mp inChar
  rw [toNat_ofNat_of_lt encoded.toNat_lt]
  exact encoded.toNat_lt

/-! ## Texts of characters -/

/-- The text is the encoding of characters that all have the property. -/
def Encodes (property : Char → Prop) (text : Text) : Prop :=
  ∃ chars, text = utf8 chars ∧ ∀ char ∈ chars, property char

variable {property : Char → Prop}

theorem encodes_nil : Encodes property [] :=
  ⟨[], rfl, by simp⟩

theorem Encodes.append {front back : Text} (left : Encodes property front)
    (right : Encodes property back) : Encodes property (front ++ back) := by
  obtain ⟨chars, rfl, every⟩ := left
  obtain ⟨others, rfl, everyOther⟩ := right
  refine ⟨chars ++ others, (utf8_append chars others).symm, ?_⟩
  intro char member
  rcases List.mem_append.mp member with first | second
  · exact every char first
  · exact everyOther char second

theorem encodes_ascii {text : Text} (ascii : ∀ byte ∈ text, byte.toNat < 128 ∧ property byte) :
    Encodes property text := by
  refine ⟨text, ?_, fun char member => (ascii char member).2⟩
  induction text with
  | nil => rfl
  | cons byte rest inductionHypothesis =>
      rw [utf8_cons, utf8Bytes_of_ascii (ascii byte List.mem_cons_self).1,
        ← inductionHypothesis fun other member => ascii other (List.mem_cons_of_mem _ member)]
      rfl

/-- A text of characters can be cut at an ASCII byte. -/
theorem Encodes.of_append_cons {front back : Text} {byte : Char} (ascii : byte.toNat < 128)
    (encodes : Encodes property (front ++ byte :: back)) :
    Encodes property front ∧ Encodes property back := by
  obtain ⟨chars, eq, every⟩ := encodes
  induction chars generalizing front with
  | nil => simp at eq
  | cons char chars inductionHypothesis =>
      rw [utf8_cons] at eq
      have later : ∀ other ∈ chars, property other :=
        fun other member => every other (List.mem_cons_of_mem _ member)
      rcases List.append_eq_append_iff.mp eq with ⟨middle, first, rest⟩ | ⟨middle, first, rest⟩
      · -- The first encoding reaches past the front.
        cases middle with
        | nil =>
            rw [List.append_nil] at first
            rw [List.nil_append] at rest
            obtain ⟨-, restEncodes⟩ := @inductionHypothesis [] (by simpa using rest) later
            refine ⟨⟨[char], ?_, ?_⟩, restEncodes⟩
            · simp [first]
            · simpa using every char List.mem_cons_self
        | cons head middle =>
            obtain ⟨rfl, rest⟩ := List.cons.inj rest
            have isByte := utf8Bytes_eq_of_mem_ascii
              (first ▸ List.mem_append_right front List.mem_cons_self) ascii
            subst isByte
            rw [utf8Bytes_of_ascii ascii] at first
            obtain ⟨rfl, rfl⟩ : front = [] ∧ middle = [] := by
              cases front with
              | nil => exact ⟨rfl, (List.cons.inj first).2.symm⟩
              | cons _ front => simp at first
            exact ⟨encodes_nil, chars, by simpa using rest, later⟩
      · obtain ⟨left, right⟩ := inductionHypothesis rest.symm later
        refine ⟨?_, right⟩
        rw [first]
        exact Encodes.append ⟨[char], by simp, by simpa using every char List.mem_cons_self⟩ left

end Httpfs.Text
