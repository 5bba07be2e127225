import Mathlib.Data.List.Basic
import Mathlib.Tactic.Common

/-! # Bytes that encode a text

A list of bytes is valid if it is the encoding of a text. A valid list may be cut before the
first byte of a character and nowhere else; an ASCII byte is a character of its own.
-/

namespace Utf8

/-- The bytes encode a text. -/
def Valid (s : List UInt8) : Prop := s.toByteArray.IsValidUTF8

instance (s : List UInt8) : Decidable (Valid s) :=
  inferInstanceAs (Decidable s.toByteArray.IsValidUTF8)

/-- The text of the bytes, if they encode one. -/
def decode (s : List UInt8) : Option String := String.fromUTF8? s.toByteArray

/-- No character has begun before these bytes. -/
def StartsCharacter (s : List UInt8) : Prop := ∀ c ∈ s.head?, c.IsUTF8FirstByte

instance (s : List UInt8) : Decidable (StartsCharacter s) :=
  inferInstanceAs (Decidable (∀ c ∈ s.head?, c.IsUTF8FirstByte))

theorem isSome_decode {s : List UInt8} : (decode s).isSome ↔ Valid s := by
  unfold decode String.fromUTF8? Valid
  split
  · simp_all
  · simp_all

theorem valid_nil : Valid [] := ByteArray.isValidUTF8_empty

theorem Valid.append {a b : List UInt8} (ha : Valid a) (hb : Valid b) : Valid (a ++ b) := by
  unfold Valid
  rw [List.toByteArray_append]
  exact ByteArray.IsValidUTF8.append ha hb

/-! ## Where a text may be cut -/

section Cut

variable {a b : List UInt8}

/-- The end of the first part, as a position in the text. -/
theorem isValid_position_iff (h : Valid (a ++ b)) :
    (String.Pos.Raw.mk a.length).IsValid (.ofByteArray (a ++ b).toByteArray h) ↔
      StartsCharacter b := by
  rw [String.Pos.Raw.isValid_iff_isUTF8FirstByte]
  unfold StartsCharacter
  rcases b with _ | ⟨c, b⟩
  · simp [String.Pos.Raw.ext_iff]
  · have hlt : a.length < (a.toByteArray ++ (c :: b).toByteArray).size := by simp
    have hbyte : (a.toByteArray ++ (c :: b).toByteArray)[a.length] = c := by
      rw [ByteArray.getElem_append_right (by simp)]
      simp
    simp [String.Pos.Raw.ext_iff, String.Pos.Raw.lt_iff, String.getUTF8Byte, hbyte]

/-- The first part of a text is a text exactly if no character has begun behind it. -/
theorem Valid.left_iff (h : Valid (a ++ b)) : Valid a ↔ StartsCharacter b := by
  rw [← isValid_position_iff h, String.Pos.Raw.isValid_iff_isValidUTF8_extract_zero]
  simp [Valid, String.Pos.Raw.le_iff, ByteArray.extract_append_eq_left]

/-- And so is the second part. -/
theorem Valid.right_iff (h : Valid (a ++ b)) : Valid b ↔ StartsCharacter b := by
  rw [← isValid_position_iff h, String.Pos.Raw.isValid_iff_isValidUTF8_extract_utf8ByteSize]
  simp [Valid, String.Pos.Raw.le_iff, ByteArray.extract_append_eq_right]

end Cut

/-! ## ASCII -/

/-- The byte of an ASCII character. -/
def IsAscii (c : UInt8) : Prop := c < 0x80

instance (c : UInt8) : Decidable (IsAscii c) := inferInstanceAs (Decidable (_ < _))

theorem IsAscii.utf8EncodeChar {c : UInt8} (hc : IsAscii c) :
    String.utf8EncodeChar (Char.ofUInt8 c) = [c] := by
  have hval : (Char.ofUInt8 c).val = c.toUInt32 := rfl
  have hle : (Char.ofUInt8 c).val.toNat ≤ 127 := by
    have hlt : c.toNat < 128 := UInt8.lt_iff_toNat_lt.1 hc
    rw [hval, UInt8.toNat_toUInt32]
    omega
  unfold String.utf8EncodeChar
  simp only [hle, if_true]
  simp [hval]

theorem IsAscii.valid {c : UInt8} (hc : IsAscii c) : Valid [c] := by
  unfold Valid
  rw [← hc.utf8EncodeChar]
  exact Char.isValidUTF8_toByteArray_utf8EncodeChar

theorem IsAscii.startsCharacter {c : UInt8} (hc : IsAscii c) (s : List UInt8) :
    StartsCharacter (c :: s) := by
  have hstarts := (hc.valid.right_iff (a := [])).1 hc.valid
  intro d hd
  exact hstarts d hd

theorem valid_of_ascii {s : List UInt8} (hs : ∀ c ∈ s, IsAscii c) : Valid s := by
  induction s with
  | nil => exact valid_nil
  | cons c s ih =>
      have hrest := ih fun c' hc' => hs c' (List.mem_cons_of_mem c hc')
      exact (hs c List.mem_cons_self).valid.append hrest

/-- An ASCII byte ends a text and begins one. -/
theorem valid_append_cons_iff {a b : List UInt8} {c : UInt8} (hc : IsAscii c) :
    Valid (a ++ c :: b) ↔ Valid a ∧ Valid b := by
  constructor
  · intro h
    have hcb : Valid ([c] ++ b) := h.right_iff.2 (hc.startsCharacter b)
    exact ⟨h.left_iff.2 (hc.startsCharacter b), hcb.right_iff.2 (hcb.left_iff.1 hc.valid)⟩
  · rintro ⟨ha, hb⟩
    exact ha.append (hc.valid.append hb)

end Utf8
