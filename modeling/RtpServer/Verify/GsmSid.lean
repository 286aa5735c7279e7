import Mathlib.Tactic.IntervalCases
import RtpServer.Source.GsmSid

/-!
# GSM SID formats

The long frame is the kept bits of the short one, four copies of its last field and, for
EFR, the codeword. Every bit of it is read off that description.
-/
namespace RtpServer.Verify.GsmSid

open RtpServer.Source RtpServer.Library RtpServer.Library.Bits RtpServer.Source.Upd
open RtpServer.Source.GsmSid

theorem payloadWord_blit (payload new : List Uint16) (hfit : 2 + new.length ≤ payload.length)
    (i : Nat) :
    payloadWord (Buffer.blit payload 2 new) i =
      if i < 2 then payloadWord payload i
      else if i < 2 + new.length then new.getD (i - 2) 0
      else payloadWord payload i := by
  have htake : (payload.take 2).length = 2 := List.length_take_of_le (by omega)
  unfold payloadWord
  rw [Buffer.blit_of_fits payload hfit, List.append_assoc]
  by_cases h2 : i < 2
  · rw [if_pos h2, List.getD_append _ _ _ _ (by rwa [htake]), getD_take_of_lt payload h2]
  · rw [if_neg h2, List.getD_append_right _ _ _ _ (by omega), htake]
    by_cases hnew : i < 2 + new.length
    · rw [if_pos hnew, List.getD_append _ _ _ _ (by omega)]
    · rw [if_neg hnew, List.getD_append_right _ _ _ _ (by omega), getD_drop,
        show 2 + new.length + (i - 2 - new.length) = i by omega]

/-- The first `32 + n` bits of a frame. -/
theorem bitAt_kept (payload : List Uint16) {mask : Uint16} {n : Nat}
    (hmask : ∀ j < 16, mask.getMsbD j = decide (j < n)) (k : Nat) :
    bitAt [payloadWord payload 0, payloadWord payload 1, payloadWord payload 2 &&& mask] k =
      (decide (k < 32 + n ∧ k < 48) && bitAt payload k) := by
  obtain ⟨i, j, hj, rfl⟩ := exists_word_place (w := 16) (by decide) k
  rw [bitAt_word _ _ hj, bitAt_word _ _ hj]
  match i with
  | 0 => rw [decide_eq_true (by omega), Bool.true_and]; rfl
  | 1 => rw [decide_eq_true (by omega), Bool.true_and]; rfl
  | 2 =>
    change (payloadWord payload 2 &&& mask).getMsbD j = _
    rw [BitVec.getMsbD_and, hmask j hj, Bool.and_comm,
      decide_eq_decide.2 (show 16 * 2 + j < 32 + n ∧ 16 * 2 + j < 48 ↔ j < n by omega)]
    rfl
  | i + 3 =>
    rw [decide_eq_false (by omega), Bool.false_and]
    exact BitVec.getMsbD_zero

/-- A value of `width` bits is shifted out by `width` places. -/
theorem shiftRight_eq_zero {x : Uint16} {ws : List Uint16} {first width : Nat}
    (h : Reads x ws first width) {n : Nat} (hn : width ≤ n) : x >>> n = 0 := by
  apply BitVec.eq_of_getLsbD_eq
  intro j _
  rw [BitVec.getLsbD_ushiftRight, h, decide_eq_false (by omega), Bool.false_and]
  exact BitVec.getLsbD_zero.symm

theorem shiftLeft_eq_zero (x : Uint16) {n : Nat} (hn : 16 ≤ n) : x <<< n = 0 :=
  BitVec.shiftLeft_eq_zero hn

/-- Bits 37 to 42 of a short FR frame. -/
def xmax (payload : List Uint16) : Uint16 := (payloadWord payload 2 >>> 6) &&& 0x003F

theorem xmax_reads (payload : List Uint16) : Reads (xmax payload) payload 36 6 := by
  have hmask : (0x003F : Uint16) = BitVec.ofNat 16 (2 ^ 6 - 1) := by decide
  rw [xmax, hmask]
  exact (Reads.word payload 2).part (show 6 + 6 ≤ 16 by decide) (by decide)

/-- Bits 39 to 43 of a short EFR frame. -/
def gainIndex (payload : List Uint16) : Uint16 := (payloadWord payload 2 >>> 5) &&& 0x001F

theorem gainIndex_reads (payload : List Uint16) : Reads (gainIndex payload) payload 38 5 := by
  have hmask : (0x001F : Uint16) = BitVec.ofNat 16 (2 ^ 5 - 1) := by decide
  rw [gainIndex, hmask]
  exact (Reads.word payload 2).part (show 5 + 5 ≤ 16 by decide) (by decide)

/-- The words stored from word 2 on. -/
def frTail (payload : List Uint16) : List Uint16 :=
  [(payloadWord payload 2 &&& 0xF000) ||| (xmax payload >>> 5), xmax payload <<< 11, 0, 0,
   xmax payload <<< 3, 0, 0, xmax payload >>> 5, xmax payload <<< 11, 0, 0, xmax payload <<< 3, 0,
   0, 0]

def efrTail (payload : List Uint16) : List Uint16 :=
  [payloadWord payload 2 &&& 0xFC00, 0, 0, gainIndex payload <<< 5, 0, 0, gainIndex payload <<< 3,
   0, 0, gainIndex payload >>> 2, gainIndex payload <<< 14, 0, gainIndex payload >>> 4,
   gainIndex payload <<< 12]

theorem frLong_eq (payload : List Uint16) :
    lUpdMapGsmFrSidShortToLong payload = Buffer.blit payload 2 (frTail payload) := rfl

theorem efrLong_eq (payload : List Uint16) :
    lUpdMapGsmEfrSidShortToLong payload =
      orWords gsmEfrSidCodeword 0 (Buffer.blit payload 2 (efrTail payload)) := rfl

def frStops : List Nat := [53, 109, 165, 221]

def efrStops : List Nat := [91, 141, 194, 244]

theorem frTail_holds {payload : List Uint16} (hroom : 17 ≤ payload.length) :
    HoldsCopies [payloadWord payload 0, payloadWord payload 1, payloadWord payload 2 &&& 0xF000]
      (xmax payload) frStops 17 (Buffer.blit payload 2 (frTail payload)) := by
  intro i hi
  have hright : ∀ n, 6 ≤ n → xmax payload >>> n = 0 := fun n hn =>
    shiftRight_eq_zero (xmax_reads payload) hn
  have hleft : ∀ n, 16 ≤ n → xmax payload <<< n = 0 := fun n hn => shiftLeft_eq_zero _ hn
  have hword := payloadWord_blit payload (frTail payload) hroom i
  rw [payloadWord] at hword
  rw [hword]
  unfold frTail frStops copiesWord copyWord
  interval_cases i <;> simp [hright, hleft]

theorem efrTail_holds {payload : List Uint16} (hroom : 16 ≤ payload.length) :
    HoldsCopies [payloadWord payload 0, payloadWord payload 1, payloadWord payload 2 &&& 0xFC00]
      (gainIndex payload) efrStops 16 (Buffer.blit payload 2 (efrTail payload)) := by
  intro i hi
  have hright : ∀ n, 5 ≤ n → gainIndex payload >>> n = 0 := fun n hn =>
    shiftRight_eq_zero (gainIndex_reads payload) hn
  have hleft : ∀ n, 16 ≤ n → gainIndex payload <<< n = 0 := fun n hn => shiftLeft_eq_zero _ hn
  have hword := payloadWord_blit payload (efrTail payload) hroom i
  rw [payloadWord] at hword
  rw [hword]
  unfold efrTail efrStops copiesWord copyWord
  interval_cases i <;> simp [hright, hleft]

/-- Every bit of the long FR frame. -/
theorem bitAt_frLong {payload : List Uint16} (hroom : 17 ≤ payload.length) {k : Nat} (hk : k < 272) :
    bitAt (lUpdMapGsmFrSidShortToLong payload) k =
      ((decide (k < 36) && bitAt payload k) ||
        copiesBit frStops 6 (fun j => bitAt payload (36 + j)) k) := by
  have hmask : ∀ j < 16, (0xF000 : Uint16).getMsbD j = decide (j < 4) := by decide
  rw [frLong_eq, (frTail_holds hroom).bitAt_eq hk, bitAt_kept payload hmask,
    (xmax_reads payload).any_copyBit_eq (show ∀ stop ∈ frStops, 6 ≤ stop by decide),
    decide_eq_decide.2 (show k < 32 + 4 ∧ k < 48 ↔ k < 36 by omega)]

/-- Every bit of the long EFR frame. -/
theorem bitAt_efrLong {payload : List Uint16} (hroom : 16 ≤ payload.length) {k : Nat}
    (hk : k < 256) :
    bitAt (lUpdMapGsmEfrSidShortToLong payload) k =
      ((decide (k < 38) && bitAt payload k) ||
        copiesBit efrStops 5 (fun j => bitAt payload (38 + j)) k ||
        bitAt gsmEfrSidCodeword k) := by
  have hmask : ∀ j < 16, (0xFC00 : Uint16).getMsbD j = decide (j < 6) := by decide
  rw [efrLong_eq, bitAt_orWords (by rw [Buffer.length_blit]; exact hroom),
    (efrTail_holds hroom).bitAt_eq hk, bitAt_kept payload hmask,
    (gainIndex_reads payload).any_copyBit_eq (show ∀ stop ∈ efrStops, 5 ≤ stop by decide),
    decide_eq_decide.2 (show k < 32 + 6 ∧ k < 48 ↔ k < 38 by omega),
    decide_eq_true (show 16 * 0 ≤ k by omega), Bool.true_and, Nat.mul_zero, Nat.sub_zero]

theorem payloadWord_set {payload : List Uint16} (hroom : 2 < payload.length) (x : Uint16) (i : Nat) :
    payloadWord (payload.set 2 x) i = if i = 2 then x else payloadWord payload i := by
  unfold payloadWord
  rw [List.getD_eq_getElem?_getD, List.getElem?_set]
  by_cases hi : i = 2
  · rw [if_pos hi.symm, if_pos hroom, if_pos hi, Option.getD_some]
  · rw [if_neg (Ne.symm hi), if_neg hi, List.getD_eq_getElem?_getD]

theorem unused_bits {w mask : Uint16} (hunused : w &&& mask = 0) {i : Nat} (hi : i < 16)
    (hmask : mask.getLsbD i = true) : w[i] = false := by
  have hbit := congrArg (BitVec.getLsbD · i) hunused
  rw [BitVec.getLsbD_and, hmask, Bool.and_true, BitVec.getLsbD_eq_getElem hi] at hbit
  exact hbit.trans BitVec.getLsbD_zero

/-- Four bits are kept, six come back from the first copy, the rest is unused. -/
theorem frLong_restores {w : Uint16} (hunused : w &&& 0x003F = 0) :
    ((w &&& 0xF000 ||| (w >>> 6 &&& 0x003F) >>> 5) &&& 0xF000 |||
      ((w &&& 0xF000 ||| (w >>> 6 &&& 0x003F) >>> 5) &&& 0x0001) <<< 11 |||
      ((w >>> 6 &&& 0x003F) <<< 11 &&& 0xF800) >>> 5) = w := by
  have hlow : ∀ (i : Nat) (hi : i < 6), w[i] = false := fun i hi =>
    unused_bits hunused (by omega) ((show ∀ i < 6, (0x003F : Uint16).getLsbD i = true by decide) i hi)
  apply BitVec.eq_of_getLsbD_eq
  intro i hi
  interval_cases i <;> simp [hlow]

theorem efrLong_restores {w : Uint16} (hunused : w &&& 0x001F = 0) :
    ((w &&& 0xFC00 ||| 0x0006) &&& 0xFC00 |||
      ((w >>> 5 &&& 0x001F) <<< 5 ||| 0x0003) &&& 0x03E0) = w := by
  have hlow : ∀ (i : Nat) (hi : i < 5), w[i] = false := fun i hi =>
    unused_bits hunused (by omega) ((show ∀ i < 5, (0x001F : Uint16).getLsbD i = true by decide) i hi)
  apply BitVec.eq_of_getLsbD_eq
  intro i hi
  interval_cases i <;> simp [hlow]

/-- A short FR frame: 42 bits in words 0 to 2 of a payload with room for the long one. -/
structure IsFrShort (payload : List Uint16) : Prop where
  room : 17 ≤ payload.length
  unused : payloadWord payload 2 &&& 0x003F = 0

structure IsEfrShort (payload : List Uint16) : Prop where
  room : 16 ≤ payload.length
  unused : payloadWord payload 2 &&& 0x001F = 0

theorem IsFrShort.restored {payload : List Uint16} (h : IsFrShort payload) {i : Nat} (hi : i < 3) :
    payloadWord (lUpdMapGsmFrSidLongToShort (lUpdMapGsmFrSidShortToLong payload)) i =
      payloadWord payload i := by
  have hword := payloadWord_blit payload (frTail payload) h.room
  have hroom := h.room
  rw [lUpdMapGsmFrSidLongToShort, frLong_eq,
    payloadWord_set (by rw [Buffer.length_blit]; omega), hword, hword, hword]
  split
  · next hi2 =>
    rw [hi2]
    exact frLong_restores h.unused
  · exact if_pos (by omega)

theorem IsEfrShort.restored {payload : List Uint16} (h : IsEfrShort payload) {i : Nat}
    (hi : i < 3) :
    payloadWord (lUpdMapGsmEfrSidLongToShort (lUpdMapGsmEfrSidShortToLong payload)) i =
      payloadWord payload i := by
  have hblit := payloadWord_blit payload (efrTail payload) h.room
  have hroom := h.room
  have hword : ∀ i, payloadWord (lUpdMapGsmEfrSidShortToLong payload) i =
      payloadWord (Buffer.blit payload 2 (efrTail payload)) i ||| payloadWord gsmEfrSidCodeword i :=
    fun i => getD_orWords (by rw [Buffer.length_blit]; exact hroom) i
  rw [lUpdMapGsmEfrSidLongToShort,
    payloadWord_set (by rw [efrLong_eq, length_orWords, Buffer.length_blit]; omega), hword, hword,
    hword, hblit, hblit, hblit]
  split
  · next hi2 =>
    rw [hi2]
    exact efrLong_restores h.unused
  · have hcode : ∀ i < 2, payloadWord gsmEfrSidCodeword i = 0 := by decide
    rw [if_pos (by omega), hcode i (by omega)]
    exact BitVec.or_zero

/-- Bit `b` of a frame, numbered from 1. -/
def frameBit (payload : List Uint16) (b : Nat) : Bool := bitAt payload (b - 1)

theorem IsFrShort.long_frame {payload : List Uint16} (h : IsFrShort payload) :
    let long := lUpdMapGsmFrSidShortToLong payload
    (∀ b, 1 ≤ b → b ≤ 36 → frameBit long b = frameBit payload b) ∧
    (∀ first ∈ [48, 104, 160, 216], ∀ j < 6,
      frameBit long (first + j) = frameBit payload (37 + j)) ∧
    ∀ b, 36 < b → b ≤ 260 →
      (∀ first ∈ [48, 104, 160, 216], b < first ∨ first + 6 ≤ b) → frameBit long b = false := by
  have hstops : ∀ stop ∈ frStops, 53 ≤ stop ∧ stop - 5 ∈ [48, 104, 160, 216] := by decide
  have hfirsts : ∀ first ∈ [48, 104, 160, 216], 48 ≤ first ∧ first ≤ 216 ∧
      first + 5 ∈ frStops := by decide
  have hbits := @bitAt_frLong payload h.room
  unfold frameBit
  refine ⟨fun b hb hlast => ?_, fun first hfirst j hj => ?_, fun b hb hlast hout => ?_⟩
  · rw [hbits (by omega), copiesBit_outside, decide_eq_true (by omega), Bool.true_and,
      Bool.or_false]
    intro stop hstop hin
    have hmin := (hstops stop hstop).1
    omega
  · obtain ⟨hmin, hmax, hstop⟩ := hfirsts first hfirst
    rw [hbits (by omega), decide_eq_false (by omega), Bool.false_and, Bool.false_or,
      show first + j - 1 = first + 5 - 6 + j by omega, copiesBit_inside _ (by decide) hstop hj,
      show 36 + j = 37 + j - 1 by omega]
  · rw [hbits (by omega), decide_eq_false (by omega), Bool.false_and, Bool.false_or,
      copiesBit_outside]
    intro stop hstop hin
    obtain ⟨hmin, hfirst⟩ := hstops stop hstop
    have hapart := hout _ hfirst
    omega

theorem IsEfrShort.long_frame {payload : List Uint16} (h : IsEfrShort payload) :
    let long := lUpdMapGsmEfrSidShortToLong payload
    (∀ b, 1 ≤ b → b ≤ 38 → frameBit long b = frameBit payload b) ∧
    (∀ first ∈ [87, 137, 190, 240], ∀ j < 5,
      frameBit long (first + j) = frameBit payload (39 + j)) ∧
    ∀ b, 1 ≤ b → b ≤ 244 → frameBit gsmEfrSidCodeword b = true → frameBit long b = true := by
  have hstops : ∀ stop ∈ efrStops, 91 ≤ stop := by decide
  have hfirsts : ∀ first ∈ [87, 137, 190, 240], 87 ≤ first ∧ first ≤ 240 ∧
      first + 4 ∈ efrStops := by decide
  have hbits := @bitAt_efrLong payload h.room
  unfold frameBit
  refine ⟨fun b hb hlast => ?_, fun first hfirst j hj => ?_, fun b hb hlast hcode => ?_⟩
  · -- the codeword has no bit among the kept ones
    have hcode : ∀ k < 38, bitAt gsmEfrSidCodeword k = false := by decide
    rw [hbits (by omega), copiesBit_outside, hcode _ (by omega), decide_eq_true (by omega),
      Bool.true_and, Bool.or_false, Bool.or_false]
    intro stop hstop hin
    have hmin := hstops stop hstop
    omega
  · have hcode : ∀ first ∈ [87, 137, 190, 240], ∀ j < 5,
        bitAt gsmEfrSidCodeword (first + j - 1) = false := by decide
    obtain ⟨hmin, hmax, hstop⟩ := hfirsts first hfirst
    rw [hbits (by omega), hcode first hfirst j hj, decide_eq_false (by omega), Bool.false_and,
      Bool.false_or, Bool.or_false, show first + j - 1 = first + 4 - 5 + j by omega,
      copiesBit_inside _ (by decide) hstop hj, show 38 + j = 39 + j - 1 by omega]
  · rw [hbits (by omega), hcode, Bool.or_true]

/-- Both formats, bit numbers as in the source. -/
theorem sid_formats (payload : List Uint16) :
    (IsFrShort payload →
      let long := lUpdMapGsmFrSidShortToLong payload
      (∀ i < 3, payloadWord (lUpdMapGsmFrSidLongToShort long) i = payloadWord payload i) ∧
      (∀ b, 1 ≤ b → b ≤ 36 → frameBit long b = frameBit payload b) ∧
      (∀ first ∈ [48, 104, 160, 216], ∀ j < 6,
        frameBit long (first + j) = frameBit payload (37 + j)) ∧
      ∀ b, 36 < b → b ≤ 260 →
        (∀ first ∈ [48, 104, 160, 216], b < first ∨ first + 6 ≤ b) → frameBit long b = false) ∧
    (IsEfrShort payload →
      let long := lUpdMapGsmEfrSidShortToLong payload
      (∀ i < 3, payloadWord (lUpdMapGsmEfrSidLongToShort long) i = payloadWord payload i) ∧
      (∀ b, 1 ≤ b → b ≤ 38 → frameBit long b = frameBit payload b) ∧
      (∀ first ∈ [87, 137, 190, 240], ∀ j < 5,
        frameBit long (first + j) = frameBit payload (39 + j)) ∧
      ∀ b, 1 ≤ b → b ≤ 244 → frameBit gsmEfrSidCodeword b = true → frameBit long b = true) :=
  ⟨fun h => ⟨fun _ hi => h.restored hi, h.long_frame⟩,
    fun h => ⟨fun _ hi => h.restored hi, h.long_frame⟩⟩

/-- All 42 bits set, and all 43: the words come back. -/
theorem sid_formats_ones :
    let frShort : List Uint16 := [0xFFFF, 0xFFFF, 0xFFC0] ++ List.replicate 14 0
    let efrShort : List Uint16 := [0xFFFF, 0xFFFF, 0xFFE0] ++ List.replicate 14 0
    (∀ i < 3, payloadWord (lUpdMapGsmFrSidLongToShort (lUpdMapGsmFrSidShortToLong frShort)) i =
      payloadWord frShort i) ∧
    ∀ i < 3, payloadWord (lUpdMapGsmEfrSidLongToShort (lUpdMapGsmEfrSidShortToLong efrShort)) i =
      payloadWord efrShort i :=
  ⟨((sid_formats ([0xFFFF, 0xFFFF, 0xFFC0] ++ List.replicate 14 0)).1 ⟨by decide, by decide⟩).1,
    ((sid_formats ([0xFFFF, 0xFFFF, 0xFFE0] ++ List.replicate 14 0)).2 ⟨by decide, by decide⟩).1⟩

end RtpServer.Verify.GsmSid
