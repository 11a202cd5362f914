import Yvent.Misc.Bytes

/-!
# Words in bytes

A word of 32 bits lies in memory with its lowest byte first. Networks send the highest byte first;
`byteSwap` is what `htonl` and `ntohl` do on such a machine.
-/

namespace Yvent

/-- The word of four bytes, the lowest first. -/
def littleEndian (a b c d : BitVec 8) : BitVec 32 := d ++ c ++ b ++ a

/-- The bytes of a word with the lowest first. -/
def wordBytes (w : BitVec 32) : Bytes :=
  [.ofBitVec (w.extractLsb' 0 8), .ofBitVec (w.extractLsb' 8 8), .ofBitVec (w.extractLsb' 16 8),
    .ofBitVec (w.extractLsb' 24 8)]

/-- The word at the front of some memory. -/
def wordAt (bytes : Bytes) : BitVec 32 :=
  let byte (i : Nat) : BitVec 8 := (bytes.getD i 0).toBitVec
  littleEndian (byte 0) (byte 1) (byte 2) (byte 3)

/-- The word with its bytes in the opposite order. -/
def byteSwap (w : BitVec 32) : BitVec 32 :=
  littleEndian (w.extractLsb' 24 8) (w.extractLsb' 16 8) (w.extractLsb' 8 8) (w.extractLsb' 0 8)

variable {w : BitVec 32} {a b c d : BitVec 8} {bytes more : Bytes}

theorem extractLsb'_littleEndian :
    (littleEndian a b c d).extractLsb' 0 8 = a ∧ (littleEndian a b c d).extractLsb' 8 8 = b ∧
      (littleEndian a b c d).extractLsb' 16 8 = c ∧
      (littleEndian a b c d).extractLsb' 24 8 = d := by
  have second : (littleEndian a b c d).extractLsb' 8 8 = (d ++ c ++ b).extractLsb' 0 8 :=
    BitVec.extractLsb'_append_eq_of_le (Nat.le_refl 8)
  have third : (littleEndian a b c d).extractLsb' 16 8 = (d ++ c).extractLsb' 0 8 := by
    rw [littleEndian, BitVec.extractLsb'_append_eq_of_le (by decide),
      BitVec.extractLsb'_append_eq_of_le (by decide)]
  have fourth : (littleEndian a b c d).extractLsb' 24 8 = d.extractLsb' 0 8 := by
    rw [littleEndian, BitVec.extractLsb'_append_eq_of_le (by decide),
      BitVec.extractLsb'_append_eq_of_le (by decide),
      BitVec.extractLsb'_append_eq_of_le (by decide)]
  refine ⟨BitVec.extractLsb'_append_eq_right, ?_, ?_, ?_⟩
  · rw [second, BitVec.extractLsb'_append_eq_right]
  · rw [third, BitVec.extractLsb'_append_eq_right]
  · rw [fourth, BitVec.extractLsb'_eq_self]

theorem littleEndian_extractLsb' :
    littleEndian (w.extractLsb' 0 8) (w.extractLsb' 8 8) (w.extractLsb' 16 8)
      (w.extractLsb' 24 8) = w := by
  have upper : w.extractLsb' 24 8 ++ w.extractLsb' 16 8 = w.extractLsb' 16 16 :=
    BitVec.extractLsb'_append_extractLsb'_eq_extractLsb' rfl
  have rest : w.extractLsb' 16 16 ++ w.extractLsb' 8 8 = w.extractLsb' 8 24 :=
    BitVec.extractLsb'_append_extractLsb'_eq_extractLsb' rfl
  have whole : w.extractLsb' 8 24 ++ w.extractLsb' 0 8 = w.extractLsb' 0 32 :=
    BitVec.extractLsb'_append_extractLsb'_eq_extractLsb' rfl
  rw [littleEndian, upper, rest, whole, BitVec.extractLsb'_eq_self]

theorem length_wordBytes : (wordBytes w).length = 4 := rfl

theorem wordAt_wordBytes : wordAt (wordBytes w ++ bytes) = w := littleEndian_extractLsb'

/-- Only the first four bytes of the memory are looked at. -/
theorem wordAt_append (whole : 4 ≤ bytes.length) : wordAt (bytes ++ more) = wordAt bytes := by
  have byte : ∀ i < 4, (bytes ++ more).getD i 0 = bytes.getD i 0 := by
    intro i small
    rw [List.getD_eq_getElem?_getD, List.getD_eq_getElem?_getD,
      List.getElem?_append_left (Nat.lt_of_lt_of_le small whole)]
  simp only [wordAt, byte 0 (by decide), byte 1 (by decide), byte 2 (by decide),
    byte 3 (by decide)]

theorem byteSwap_byteSwap : byteSwap (byteSwap w) = w := by
  obtain ⟨first, second, third, fourth⟩ := extractLsb'_littleEndian
    (a := w.extractLsb' 24 8) (b := w.extractLsb' 16 8) (c := w.extractLsb' 8 8)
    (d := w.extractLsb' 0 8)
  rw [byteSwap, byteSwap, first, second, third, fourth, littleEndian_extractLsb']

end Yvent
