import RtpServer.Library.Bits
import RtpServer.Source.Mgw

/-!
# The bit-buffer OR-copy

`l_mgw_or_bit_buf` for any two phases, length and contents. Every step of it copies the
next range of bits; the accesses are checked in the model, so a result also says that none
was outside the arrays.
-/
namespace RtpServer.Verify.BitBuffer

open RtpServer.Source RtpServer.Library RtpServer.Library.Bits RtpServer.Source.Mgw

theorem orWord_eq {target : List Uint16} {i : Nat} (hi : i < target.length) (x : Uint16) :
    orWord target i x = some (orAt target i x) := by
  unfold orWord orAt
  rw [List.getElem?_eq_getElem hi, Option.map_some, List.getD_eq_getElem _ _ hi]

theorem orShifted_eq {target : List Uint16} {t : Nat} (ht : t + 1 < target.length) (sh : Nat)
    (x : Uint16) :
    orShifted target t sh x =
      some (orAt (orAt target t (x >>> sh)) (t + 1) (x <<< (16 - sh))) := by
  unfold orShifted
  rw [orWord_eq (by omega), Option.bind_eq_bind, Option.bind_some,
    orWord_eq (by rwa [length_orAt])]

theorem sourceWord_bits (source : List Uint16) {s sh : Nat} (hs : s + 1 < source.length)
    (hsh : sh < 16) :
    ∃ x, sourceWord source s sh = some x ∧
      ∀ j < 16, x.getMsbD j = bitAt source (16 * s + sh + j) := by
  refine ⟨(source.getD s 0 <<< sh) ||| (source.getD (s + 1) 0 >>> (16 - sh)), ?_,
    fun j hj => getMsbD_across source s hsh hj⟩
  rw [sourceWord, List.getElem?_eq_getElem (by omega), List.getElem?_eq_getElem hs,
    List.getD_eq_getElem _ _ (by omega), List.getD_eq_getElem _ _ hs]
  rfl

/-- The loop over full words: `n` of them, by induction on `n`. -/
theorem orFullWords_copied (source : List Uint16) {srcShift trgShift : Nat} (hsrc : srcShift < 16)
    (htrg : trgShift < 16) (n : Nat) {s t : Nat} {target : List Uint16}
    (hs : s + n < source.length) (ht : t + n < target.length) :
    ∃ r, orFullWords source srcShift trgShift n s t target = some r ∧
      OrCopied source (16 * s + srcShift) target (16 * t + trgShift) (16 * n) r := by
  induction n generalizing s t target with
  | zero => exact ⟨target, rfl, OrCopied.zero source _ target _⟩
  | succ n ih =>
    have hlen : t + 1 < target.length := by omega
    obtain ⟨x, hx, hbits⟩ := sourceWord_bits source (s := s) (by omega) hsrc
    have hstep := orShifted_eq hlen trgShift x
    have hcopy := orCopied_across source (16 * s + srcShift) htrg (Nat.le_refl 16) hlen (x := x)
      fun j hj => by rw [decide_eq_true hj, Bool.true_and, hbits j hj]
    obtain ⟨r, hr, hrest⟩ := ih (s := s + 1) (t := t + 1) (by omega) (by
      rw [hcopy.length]
      omega)
    refine ⟨r, ?_, ?_⟩
    · simp only [orFullWords, hx, hstep, Option.bind_eq_bind, Option.bind_some, hr]
    · rw [Nat.mul_succ, Nat.add_comm (16 * n)]
      apply hcopy.trans
      rwa [show 16 * s + srcShift + 16 = 16 * (s + 1) + srcShift by omega,
        show 16 * t + trgShift + 16 = 16 * (t + 1) + trgShift by omega]

theorem getMsbD_mask {n : Nat} (hn : n < 16) (j : Nat) :
    ((0xFFFF : Uint16) <<< (16 - n)).getMsbD j = decide (j < n) := by
  have hones : ∀ i, i < 16 → (0xFFFF : Uint16).getMsbD i = true := by decide
  rw [BitVec.getMsbD_shiftLeft]
  by_cases h : j < n
  · rw [hones _ (by omega), decide_eq_true h]
  · rw [BitVec.getMsbD_of_ge _ _ (by omega), decide_eq_false h]

/-- The last word: its first `n` bits, the others masked. -/
theorem orTail_copied (source : List Uint16) {srcShift trgShift n : Nat} (hsrc : srcShift < 16)
    (htrg : trgShift < 16) (hn : n < 16) {s t : Nat} {target : List Uint16}
    (hs : s + 1 < source.length) (ht : t + 1 < target.length) :
    ∃ x r, sourceWord source s srcShift = some x ∧
      orShifted target t trgShift (x &&& ((0xFFFF : Uint16) <<< (16 - n))) = some r ∧
      OrCopied source (16 * s + srcShift) target (16 * t + trgShift) n r := by
  obtain ⟨x, hx, hbits⟩ := sourceWord_bits source hs hsrc
  refine ⟨x, _, hx, orShifted_eq ht trgShift _, ?_⟩
  apply orCopied_across source (16 * s + srcShift) htrg (Nat.le_of_lt hn) ht
  intro j hj
  rw [BitVec.getMsbD_and, getMsbD_mask hn, hbits j hj, Bool.and_comm]

theorem shiftRight_four (n : Nat) : n >>> 4 = n / 16 := Nat.shiftRight_eq_div_pow n 4

theorem lMgwOrBitBuf_copied {source target : List Uint16} {srcBitShift trgBitShift bufferSize : Nat}
    (hs : srcBitShift / 16 + (bufferSize + 15) / 16 < source.length)
    (ht : trgBitShift / 16 + (bufferSize + 15) / 16 < target.length) :
    ∃ r, lMgwOrBitBuf source srcBitShift target trgBitShift bufferSize = some r ∧
      OrCopied source srcBitShift target trgBitShift bufferSize r := by
  have hand : ∀ n : Nat, n &&& 0x000F = n % 16 := fun n => Nat.and_two_pow_sub_one_eq_mod n 4
  have hphase : ∀ n : Nat, n % 16 < 16 := fun n => Nat.mod_lt n (by decide)
  obtain ⟨r, hr, hcopy⟩ := orFullWords_copied source (hphase srcBitShift) (hphase trgBitShift)
    (bufferSize / 16) (s := srcBitShift / 16) (t := trgBitShift / 16)
    (show _ < source.length by omega) (show _ < target.length by omega)
  rw [Nat.div_add_mod, Nat.div_add_mod] at hcopy
  simp only [lMgwOrBitBuf, hand, shiftRight_four, hr, Option.bind_eq_bind, Option.bind_some]
  by_cases htail : 0 < bufferSize % 16
  · obtain ⟨x, r', hx, hr', htailCopy⟩ := orTail_copied source (hphase srcBitShift)
      (hphase trgBitShift) (hphase bufferSize) (s := srcBitShift / 16 + bufferSize / 16)
      (t := trgBitShift / 16 + bufferSize / 16) (by omega) (by
        rw [hcopy.length]
        omega)
    rw [show 16 * (srcBitShift / 16 + bufferSize / 16) + srcBitShift % 16 =
        srcBitShift + 16 * (bufferSize / 16) by omega,
      show 16 * (trgBitShift / 16 + bufferSize / 16) + trgBitShift % 16 =
        trgBitShift + 16 * (bufferSize / 16) by omega] at htailCopy
    have hall := hcopy.trans htailCopy
    rw [Nat.div_add_mod] at hall
    exact ⟨r', by rw [if_pos htail, hx, Option.bind_some, hr'], hall⟩
  · rw [show 16 * (bufferSize / 16) = bufferSize by omega] at hcopy
    exact ⟨r, if_neg htail, hcopy⟩

/-- For every phase, length and content: the bits of the range are OR-ed in, every other bit
of the target stays, and the same run succeeds on the arrays cut off behind the words they
must have, so that nothing behind these is read or written. -/
theorem lMgwOrBitBuf_correct (source target : List Uint16) (srcBitShift trgBitShift bufferSize : Nat)
    (hs : (srcBitShift >>> 4) + (bufferSize >>> 4) + 2 ≤ source.length)
    (ht : (trgBitShift >>> 4) + (bufferSize >>> 4) + 2 ≤ target.length) :
    let srcRoom := (srcBitShift >>> 4) + (bufferSize >>> 4) + 2
    let trgRoom := (trgBitShift >>> 4) + (bufferSize >>> 4) + 2
    ∃ result, lMgwOrBitBuf source srcBitShift target trgBitShift bufferSize = some result ∧
      result.length = target.length ∧
      (∀ k < bufferSize, bitAt result (trgBitShift + k) =
        (bitAt target (trgBitShift + k) || bitAt source (srcBitShift + k))) ∧
      (∀ k, k < trgBitShift ∨ trgBitShift + bufferSize ≤ k → bitAt result k = bitAt target k) ∧
      lMgwOrBitBuf (source.take srcRoom) srcBitShift (target.take trgRoom) trgBitShift bufferSize =
        some (result.take trgRoom) ∧
      result.drop trgRoom = target.drop trgRoom := by
  intro srcRoom trgRoom
  have hsrcRoom : srcRoom = srcBitShift / 16 + bufferSize / 16 + 2 := by
    simp only [srcRoom, shiftRight_four]
  have htrgRoom : trgRoom = trgBitShift / 16 + bufferSize / 16 + 2 := by
    simp only [trgRoom, shiftRight_four]
  have hs' : srcRoom ≤ source.length := hs
  have ht' : trgRoom ≤ target.length := ht
  obtain ⟨r, hr, hcopy⟩ := lMgwOrBitBuf_copied
    (show srcBitShift / 16 + (bufferSize + 15) / 16 < source.length by omega)
    (show trgBitShift / 16 + (bufferSize + 15) / 16 < target.length by omega)
  have hsrc : (source.take srcRoom).length = srcRoom := List.length_take_of_le hs
  have htrg : (target.take trgRoom).length = trgRoom := List.length_take_of_le ht
  obtain ⟨r', hr', hcopy'⟩ := lMgwOrBitBuf_copied
    (show srcBitShift / 16 + (bufferSize + 15) / 16 < (source.take srcRoom).length by omega)
    (show trgBitShift / 16 + (bufferSize + 15) / 16 < (target.take trgRoom).length by omega)
  have hwhole : r' ++ target.drop trgRoom = r :=
    (hcopy'.of_take ht (by omega) (by omega)).unique hcopy
  refine ⟨r, hr, hcopy.length, ?_, ?_, ?_, ?_⟩
  · intro k hk
    rw [hcopy.bits, decide_eq_true (by omega), Bool.true_and, Nat.add_sub_cancel_left]
  · intro k hk
    rw [hcopy.bits, decide_eq_false (by omega), Bool.false_and, Bool.or_false]
  · rw [hr', ← hwhole, List.take_left' (hcopy'.length.trans htrg)]
  · rw [← hwhole, List.drop_left' (hcopy'.length.trans htrg)]

def threeWords : List Uint16 := [0xABCD, 0x1234, 0]

def heldTarget : List Uint16 := [0x8000, 0x0001, 0x7FFF]

theorem lMgwOrBitBuf_correct_across :
    ∃ result, lMgwOrBitBuf threeWords 4 heldTarget 13 8 = some result ∧
      result.length = 3 ∧
      (∀ k < 8, bitAt result (13 + k) =
        (bitAt heldTarget (13 + k) || bitAt threeWords (4 + k))) ∧
      (∀ k, k < 13 ∨ 21 ≤ k → bitAt result k = bitAt heldTarget k) ∧
      lMgwOrBitBuf (threeWords.take 2) 4 (heldTarget.take 2) 13 8 = some (result.take 2) ∧
      result.drop 2 = heldTarget.drop 2 :=
  lMgwOrBitBuf_correct threeWords heldTarget 4 13 8 (by decide) (by decide)

example : lMgwOrBitBuf threeWords 4 heldTarget 13 8 = some [0x8005, 0xE001, 0x7FFF] := by
  decide

end RtpServer.Verify.BitBuffer
