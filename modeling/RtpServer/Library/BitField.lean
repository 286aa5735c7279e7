import Mathlib.Data.Nat.Bitwise
import RtpServer.Library.Bits

/-!
# Bit fields

A run of bits of a word array as a number, most significant bit first: which shifts and
masks read it, and what writing it changes. Two fields without a common bit do not disturb
each other.
-/
namespace RtpServer.Library.Bits

variable {w m : Nat} {ws mid result : List (BitVec w)} {first width : Nat}

def fieldValue (ws : List (BitVec w)) (first : Nat) : (width : Nat) → Nat
  | 0 => 0
  | width + 1 => Nat.bit (bitAt ws (first + width)) (fieldValue ws first width)

theorem testBit_fieldValue (ws : List (BitVec w)) (first width j : Nat) :
    (fieldValue ws first width).testBit j =
      (decide (j < width) && bitAt ws (first + (width - 1 - j))) := by
  induction width generalizing j with
  | zero => rw [fieldValue, Nat.zero_testBit, decide_eq_false (Nat.not_lt_zero j), Bool.false_and]
  | succ width ih =>
    rw [fieldValue]
    cases j with
    | zero => rw [Nat.testBit_bit_zero, decide_eq_true (Nat.succ_pos width), Bool.true_and]; rfl
    | succ j =>
      rw [Nat.testBit_bit_succ, ih, decide_eq_decide.2 (Nat.succ_lt_succ_iff (a := j)).symm,
        show width + 1 - 1 - (j + 1) = width - 1 - j by omega]

/-- The value of `x` is the field's. -/
def Reads (x : BitVec m) (ws : List (BitVec w)) (first width : Nat) : Prop :=
  ∀ j, x.getLsbD j = (decide (j < width) && bitAt ws (first + (width - 1 - j)))

theorem Reads.toNat_eq {x : BitVec m} (h : Reads x ws first width) :
    x.toNat = fieldValue ws first width := by
  apply Nat.eq_of_testBit_eq
  intro j
  rw [BitVec.testBit_toNat, h j, testBit_fieldValue]

theorem Reads.zero (ws : List (BitVec w)) (first : Nat) : Reads (0 : BitVec m) ws first 0 := by
  intro j
  rw [decide_eq_false (Nat.not_lt_zero j), Bool.false_and]
  exact BitVec.getLsbD_zero

theorem Reads.word (ws : List (BitVec w)) (i : Nat) : Reads (ws.getD i 0) ws (w * i) w := by
  intro j
  by_cases hj : j < w
  · rw [bitAt_word _ _ (show w - 1 - j < w by omega), BitVec.getMsbD_eq_getLsbD,
      decide_eq_true hj, decide_eq_true (show w - 1 - j < w by omega),
      show w - 1 - (w - 1 - j) = j by omega, Bool.true_and, Bool.true_and]
  · rw [BitVec.getLsbD_of_ge _ _ (Nat.not_lt.1 hj), decide_eq_false hj, Bool.false_and]

theorem Reads.setWidth {n : Nat} {x : BitVec m} (h : Reads x ws first width) (hn : width ≤ n) :
    Reads (x.setWidth n) ws first width := by
  intro j
  rw [BitVec.getLsbD_setWidth, h j]
  by_cases hj : j < width
  · rw [decide_eq_true hj, decide_eq_true (show j < n by omega), Bool.true_and]
  · rw [decide_eq_false hj, Bool.false_and, Bool.and_false]

/-- Two neighbours, the first one shifted over the second. -/
theorem Reads.join {x y : BitVec m} {lower : Nat} (hx : Reads x ws first width)
    (hy : Reads y ws (first + width) lower) (hm : width + lower ≤ m) :
    Reads (x <<< lower ||| y) ws first (width + lower) := by
  intro j
  rw [BitVec.getLsbD_or, BitVec.getLsbD_shiftLeft, hx, hy]
  by_cases hlow : j < lower
  · rw [decide_eq_true hlow, decide_eq_true (show j < width + lower by omega),
      show first + (width + lower - 1 - j) = first + width + (lower - 1 - j) by omega]
    simp
  · rw [decide_eq_false hlow,
      decide_eq_decide.2 (show j - lower < width ↔ j < width + lower by omega),
      show first + (width + lower - 1 - j) = first + (width - 1 - (j - lower)) by omega]
    by_cases hj : j < width + lower
    · rw [decide_eq_true (show j < m by omega)]
      simp
    · rw [decide_eq_false hj]
      simp

/-- A part of a field, shifted to the right end and masked. -/
theorem Reads.part {x : BitVec m} (hx : Reads x ws first width) {s n : Nat} (hn : s + n ≤ width)
    (hm : n ≤ m) :
    Reads (x >>> s &&& BitVec.ofNat m (2 ^ n - 1)) ws (first + (width - s - n)) n := by
  intro j
  rw [BitVec.getLsbD_and, BitVec.getLsbD_ushiftRight, hx, BitVec.getLsbD_ofNat,
    Nat.testBit_two_pow_sub_one]
  by_cases hj : j < n
  · rw [decide_eq_true hj, decide_eq_true (show j < m by omega),
      decide_eq_true (show s + j < width by omega),
      show first + (width - 1 - (s + j)) = first + (width - s - n) + (n - 1 - j) by omega]
    simp
  · rw [decide_eq_false hj]
    simp

/-- `result` is `ws` with the lower `width` bits of `v` in the field. -/
structure FieldSet (ws : List (BitVec w)) (first width v : Nat) (result : List (BitVec w)) :
    Prop where
  length : result.length = ws.length
  inside : ∀ k, first ≤ k → k < first + width →
    bitAt result k = v.testBit (first + width - 1 - k)
  outside : ∀ k, ¬ (first ≤ k ∧ k < first + width) → bitAt result k = bitAt ws k

namespace FieldSet

variable {v : Nat}

theorem congr {v' : Nat} (h : FieldSet ws first width v result)
    (hv : ∀ j < width, v.testBit j = v'.testBit j) : FieldSet ws first width v' result where
  length := h.length
  inside k hfirst hlast := (h.inside k hfirst hlast).trans (hv _ (by omega))
  outside := h.outside

theorem read_same (h : FieldSet ws first width v result) :
    fieldValue result first width = v % 2 ^ width := by
  apply Nat.eq_of_testBit_eq
  intro j
  rw [testBit_fieldValue, Nat.testBit_mod_two_pow]
  by_cases hj : j < width
  · rw [h.inside _ (Nat.le_add_right _ _) (by omega),
      show first + width - 1 - (first + (width - 1 - j)) = j by omega]
  · rw [decide_eq_false hj, Bool.false_and, Bool.false_and]

theorem read_disjoint (h : FieldSet ws first width v result) {first' width' : Nat}
    (hdisjoint : first' + width' ≤ first ∨ first + width ≤ first') :
    fieldValue result first' width' = fieldValue ws first' width' := by
  apply Nat.eq_of_testBit_eq
  intro j
  rw [testBit_fieldValue, testBit_fieldValue]
  by_cases hj : j < width'
  · rw [h.outside _ (by omega)]
  · rw [decide_eq_false hj, Bool.false_and, Bool.false_and]

/-- What is written is determined by the value modulo the width. -/
theorem unique {v' : Nat} {result' : List (BitVec w)} (h : FieldSet ws first width v result)
    (h' : FieldSet ws first width v' result') (hv : v % 2 ^ width = v' % 2 ^ width) :
    result = result' := by
  apply ext_of_bitAt (h.length.trans h'.length.symm)
  intro k _
  by_cases hk : first ≤ k ∧ k < first + width
  · have hbit := congrArg (Nat.testBit · (first + width - 1 - k)) hv
    simp only [Nat.testBit_mod_two_pow] at hbit
    rw [decide_eq_true (show first + width - 1 - k < width by omega)] at hbit
    rw [h.inside k hk.1 hk.2, h'.inside k hk.1 hk.2]
    exact hbit
  · rw [h.outside k hk, h'.outside k hk]

theorem word {i : Nat} (hi : i < ws.length) (x : BitVec w) :
    FieldSet ws (w * i) w x.toNat (ws.set i x) where
  length := List.length_set
  inside k hfirst hlast := by
    obtain ⟨j, rfl⟩ := Nat.exists_eq_add_of_le hfirst
    have hj : j < w := by omega
    rw [bitAt_word _ _ hj, List.getD_eq_getElem?_getD, List.getElem?_set_self hi,
      Option.getD_some, BitVec.testBit_toNat, BitVec.getMsbD_eq_getLsbD, decide_eq_true hj,
      Bool.true_and, show w * i + w - 1 - (w * i + j) = w - 1 - j by omega]
  outside k hk := by
    rcases Nat.eq_zero_or_pos w with rfl | hw
    · simp [bitAt]
    · obtain ⟨i', j, hj, rfl⟩ := exists_word_place hw k
      have hne : i ≠ i' := by
        rintro rfl
        omega
      rw [bitAt_word _ _ hj, bitAt_word _ _ hj, List.getD_eq_getElem?_getD,
        List.getElem?_set_ne hne, List.getD_eq_getElem?_getD]

/-- The upper part of `v` first, then the lower part behind it. -/
theorem join {lower : Nat} (h : FieldSet ws first width (v / 2 ^ lower) mid)
    (h' : FieldSet mid (first + width) lower v result) :
    FieldSet ws first (width + lower) v result where
  length := h'.length.trans h.length
  inside k hfirst hlast := by
    by_cases hk : k < first + width
    · rw [h'.outside k (by omega), h.inside k hfirst hk, Nat.testBit_div_two_pow,
        show first + width - 1 - k + lower = first + (width + lower) - 1 - k by omega]
    · rw [h'.inside k (Nat.not_lt.1 hk) (by omega),
        show first + width + lower - 1 - k = first + (width + lower) - 1 - k by omega]
  outside k hk := by rw [h'.outside k (by omega), h.outside k (by omega)]

/-- Writing a field with its old bits except in a part is writing that part. -/
theorem part (h : FieldSet ws first width v result) {s n u : Nat} (hn : s + n ≤ width)
    (hset : ∀ j < n, v.testBit (s + j) = u.testBit j)
    (hkeep : ∀ j < width, ¬ (s ≤ j ∧ j < s + n) →
      v.testBit j = bitAt ws (first + (width - 1 - j))) :
    FieldSet ws (first + (width - s - n)) n u result where
  length := h.length
  inside k hfirst hlast := by
    rw [h.inside k (by omega) (by omega),
      ← hset (first + (width - s - n) + n - 1 - k) (by omega),
      show s + (first + (width - s - n) + n - 1 - k) = first + width - 1 - k by omega]
  outside k hk := by
    by_cases hfield : first ≤ k ∧ k < first + width
    · rw [h.inside k hfield.1 hfield.2, hkeep (first + width - 1 - k) (by omega) (by omega),
        show first + (width - 1 - (first + width - 1 - k)) = k by omega]
    · exact h.outside k hfield

/-- The read-modify-write of a part of a word: its bits masked out, the value shifted in. -/
theorem masked {W s n : Nat} {old mask : BitVec W} {value ones : BitVec m}
    (hold : Reads old ws first W)
    (h : FieldSet ws first W ((old &&& ~~~ mask) ||| ((value &&& ones) <<< s).setWidth W).toNat
      result)
    (hn : s + n ≤ W) (hW : W ≤ m)
    (hmask : ∀ j < W, mask.getLsbD j = decide (s ≤ j ∧ j < s + n))
    (hones : ∀ j < W, ones.getLsbD j = decide (j < n)) :
    FieldSet ws (first + (W - s - n)) n value.toNat result := by
  refine h.part hn (fun j hj => ?_) fun j hj hout => ?_
  · rw [BitVec.testBit_toNat, BitVec.testBit_toNat, BitVec.getLsbD_or, BitVec.getLsbD_and,
      BitVec.getLsbD_not, hmask _ (by omega), BitVec.getLsbD_setWidth, BitVec.getLsbD_shiftLeft,
      BitVec.getLsbD_and, Nat.add_sub_cancel_left, hones j (by omega), decide_eq_true hj,
      decide_eq_true (show s ≤ s + j ∧ s + j < s + n by omega),
      decide_eq_true (show s + j < W by omega), decide_eq_true (show s + j < m by omega),
      decide_eq_false (show ¬ s + j < s by omega)]
    simp
  · rw [BitVec.testBit_toNat, BitVec.getLsbD_or, BitVec.getLsbD_and, BitVec.getLsbD_not,
      hmask j hj, BitVec.getLsbD_setWidth, BitVec.getLsbD_shiftLeft, BitVec.getLsbD_and,
      decide_eq_false hout, hold j, decide_eq_true hj]
    by_cases hs : j < s
    · rw [decide_eq_true hs]
      simp
    · rw [hones (j - s) (by omega), decide_eq_false (show ¬ j - s < n by omega)]
      simp

end FieldSet

end RtpServer.Library.Bits
