import RtpServer.Library.Mirror
import RtpServer.Source.Mgw

/-!
# Swapping the bytes of a field in place

The two pointers exchange one pair a round and meet in the middle, so the field is reversed;
and each of the word swaps, with one masked and shifted term an octet, puts every octet at the
mirrored place.
-/
namespace RtpServer.Verify.ByteSwap

open RtpServer.Source RtpServer.Source.Mgw RtpServer.Library.Mirror

theorem swapFieldFrom_mirrors {rounds m : Nat} {cells field : List Uint8}
    (h : Mirrored m cells field) (hroom : 2 * (m + rounds) ≤ cells.length) :
    ∃ result, swapFieldFrom rounds m (cells.length - m) field = some result ∧
      Mirrored (m + rounds) cells result := by
  induction rounds generalizing m field with
  | zero => exact ⟨field, rfl, h⟩
  | succ rounds ih =>
    have hlo := List.getElem?_eq_getElem (show m < cells.length by omega)
    have hhi := List.getElem?_eq_getElem (show cells.length - 1 - m < cells.length by omega)
    obtain ⟨hfieldLo, hfieldHi⟩ := h.pair (by omega)
    obtain ⟨result, hresult, hmirrored⟩ := ih (h.exchange (by omega) hlo hhi) (by omega)
    refine ⟨result, ?_, by rwa [show m + (rounds + 1) = m + 1 + rounds by omega]⟩
    rw [swapFieldFrom, show cells.length - m - 1 = cells.length - 1 - m by omega, hfieldHi, hhi, hfieldLo, hlo]
    rw [show cells.length - (m + 1) = cells.length - 1 - m by omega] at hresult
    exact hresult

/-- `sizeof_8`; a field has at most as many octets as its size parameter can say. -/
def sizeof8 (field : List Uint8) : Uint8 := BitVec.ofNat 8 field.length

theorem lMgwByteSwapField_reverses (field : List Uint8) (hsize : field.length ≤ 255) :
    lMgwByteSwapField field (sizeof8 field) = some field.reverse := by
  have hnat : (sizeof8 field).toNat = field.length := by
    rw [sizeof8, BitVec.toNat_ofNat]
    omega
  obtain ⟨result, hresult, hmirrored⟩ := @swapFieldFrom_mirrors (field.length / 2) 0 field field
    (Mirrored.start field) (by omega)
  rw [Nat.sub_zero] at hresult
  rw [lMgwByteSwapField, hnat, hresult, hmirrored.eq_reverse (by omega)]

theorem lMgwByteSwap16_eq_orMoved (x : Uint16) : lMgwByteSwap16 x = orMoved 2 x 2 := by
  simp only [orMoved, BitVec.zero_or]
  rfl

theorem lMgwByteSwap32_eq_orMoved (x : Uint32) : lMgwByteSwap32 x = orMoved 4 x 4 := by
  simp only [orMoved, BitVec.zero_or]
  rfl

theorem lMgwByteSwap64_eq_orMoved (x : Uint64) : lMgwByteSwap64 x = orMoved 8 x 8 := by
  simp only [orMoved, BitVec.zero_or]
  rfl

/-- What the swap of `field` leaves in its memory. -/
structure Swaps (field result : List Uint8) : Prop where
  size : result.length = field.length
  octet : ∀ i < field.length, result[i]? = field[field.length - 1 - i]?
  back : lMgwByteSwapField result (sizeof8 result) = some field
  word16 : ∀ order (x : Uint16), field = storage order 2 x →
    result = storage order 2 (lMgwByteSwap16 x)
  word32 : ∀ order (x : Uint32), field = storage order 4 x →
    result = storage order 4 (lMgwByteSwap32 x)
  word64 : ∀ order (x : Uint64), field = storage order 8 x →
    result = storage order 8 (lMgwByteSwap64 x)

theorem lMgwByteSwapField_swaps (field : List Uint8) (hsize : field.length ≤ 255) :
    ∃ result, lMgwByteSwapField field (sizeof8 field) = some result ∧ Swaps field result := by
  have hback := lMgwByteSwapField_reverses field.reverse (by rwa [List.length_reverse])
  refine ⟨field.reverse, lMgwByteSwapField_reverses field hsize, ?_⟩
  exact {
    size := List.length_reverse
    octet := fun i hi => List.getElem?_reverse hi
    back := by rw [hback, List.reverse_reverse]
    word16 := by
      rintro order x rfl
      rw [lMgwByteSwap16_eq_orMoved, storage_orMoved order x (Nat.le_refl 16)]
    word32 := by
      rintro order x rfl
      rw [lMgwByteSwap32_eq_orMoved, storage_orMoved order x (Nat.le_refl 32)]
    word64 := by
      rintro order x rfl
      rw [lMgwByteSwap64_eq_orMoved, storage_orMoved order x (Nat.le_refl 64)] }

/-- A 32-bit word in either octet order, and the field of its octets. -/
theorem lMgwByteSwapField_swaps_word :
    [0x01, 0x02, 0x03, 0x04].length ≤ 255 ∧ ∃ result,
      lMgwByteSwapField [0x01, 0x02, 0x03, 0x04] (sizeof8 [0x01, 0x02, 0x03, 0x04]) =
          some result ∧
        Swaps [0x01, 0x02, 0x03, 0x04] result :=
  ⟨by decide, lMgwByteSwapField_swaps [0x01, 0x02, 0x03, 0x04] (by decide)⟩

end RtpServer.Verify.ByteSwap
