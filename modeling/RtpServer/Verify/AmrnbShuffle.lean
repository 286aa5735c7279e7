import RtpServer.Library.Bits
import RtpServer.Library.BitOrder
import RtpServer.Source.AmrnbShuffle

/-!
# AMR-NB shuffle and de-shuffle

The scattering loop puts bit `i` of a frame at the place its table names, the gathering
loop takes it from there; both treat the last partial octet apart. The eight tables are
one to one, so each loop undoes the other.
-/
namespace RtpServer.Verify.AmrnbShuffle

open RtpServer.Source RtpServer.Library RtpServer.Library.Bits RtpServer.Source.TypeDef
open RtpServer.Source.Upd RtpServer.Source.AmrnbShuffle

/-- `result` is `out` with the bits `b` of the first `count` entries of the table set. -/
structure Scattered (out : List Uint8) (order : List Nat) (b : Nat → Bool) (count : Nat)
    (result : List Uint8) : Prop where
  length : result.length = out.length
  bits : ∀ p, bitAt result p = true ↔
    bitAt out p = true ∨ ∃ i < count, order.getD i 0 = p ∧ b i = true

theorem Scattered.zero (out : List Uint8) (order : List Nat) (b : Nat → Bool) :
    Scattered out order b 0 out where
  length := rfl
  bits p := by simp

theorem Scattered.trans {out : List Uint8} {order : List Nat} {b : Nat → Bool} {n m : Nat}
    {mid result : List Uint8} (h : Scattered out order b n mid)
    (h' : Scattered mid (order.drop n) (fun i => b (n + i)) m result) :
    Scattered out order b (n + m) result where
  length := h'.length.trans h.length
  bits p := by
    rw [h'.bits, h.bits, or_assoc]
    refine or_congr_right ⟨?_, ?_⟩
    · intro hex
      rcases hex with ⟨i, hi, he, hb⟩ | ⟨i, hi, he, hb⟩
      · exact ⟨i, by omega, he, hb⟩
      · exact ⟨n + i, by omega, (getD_drop order n i 0).symm.trans he, hb⟩
    · intro hex
      obtain ⟨i, hi, he, hb⟩ := hex
      by_cases hn : i < n
      · exact Or.inl ⟨i, hn, he, hb⟩
      · refine Or.inr ⟨i - n, by omega, ?_, ?_⟩
        · rw [getD_drop, Nat.add_sub_cancel' (Nat.not_lt.1 hn), he]
        · rwa [Nat.add_sub_cancel' (Nat.not_lt.1 hn)]

theorem getMsbD_out_bit (w : Uint16) {b j : Nat} (hb : b < 8) (hj : j < 8) :
    (((w &&& 0x80) >>> b).setWidth 8 : Uint8).getMsbD j = (decide (j = b) && w.getLsbD 7) := by
  have hmask : ∀ i, i < 16 → (0x80 : Uint16).getLsbD i = decide (i = 7) := by decide
  rw [BitVec.getMsbD_eq_getLsbD, decide_eq_true hj, Bool.true_and, BitVec.getLsbD_setWidth,
    BitVec.getLsbD_ushiftRight, BitVec.getLsbD_and, hmask _ (by omega)]
  by_cases h : j = b
  · subst h
    rw [show j + (8 - 1 - j) = 7 by omega]
    simp
    omega
  · rw [decide_eq_false (show ¬ b + (8 - 1 - j) = 7 by omega), decide_eq_false h]
    simp

theorem setOutBit_scattered {out : List Uint8} {p : Nat} (hp : p < 8 * out.length) (w : Uint16)
    {order : List Nat} (ho : order.getD 0 0 = p) {b : Nat → Bool} (hb : b 0 = w.getLsbD 7) :
    Scattered out order b 1 (setOutBit out p (w &&& 0x80)) := by
  have heq : setOutBit out p (w &&& 0x80) =
      orAt out (p / 8) (((w &&& 0x80) >>> (p % 8)).setWidth 8) := rfl
  have hmod : p % 8 < 8 := Nat.mod_lt p (by decide)
  rw [heq]
  refine ⟨length_orAt _ _ _, fun q => ?_⟩
  rw [bitAt_orAt (by omega), Bool.or_eq_true, Bool.and_eq_true, decide_eq_true_eq]
  refine or_congr_right ⟨?_, ?_⟩
  · intro h
    obtain ⟨hq, hbit⟩ := h
    rw [getMsbD_out_bit w hmod (by omega), Bool.and_eq_true, decide_eq_true_eq] at hbit
    exact ⟨0, Nat.one_pos, by rw [ho]; omega, hb.trans hbit.2⟩
  · intro h
    obtain ⟨i, hi, he, hbi⟩ := h
    obtain rfl : i = 0 := by omega
    rw [ho] at he
    subst he
    refine ⟨by omega, ?_⟩
    rw [getMsbD_out_bit w hmod (by omega), Bool.and_eq_true, decide_eq_true_eq]
    exact ⟨by omega, hb.symm.trans hbi⟩

theorem Scattered.congr {out : List Uint8} {order : List Nat} {b b' : Nat → Bool} {n : Nat}
    {result : List Uint8} (h : Scattered out order b n result) (hb : ∀ i < n, b i = b' i) :
    Scattered out order b' n result where
  length := h.length
  bits p := by
    rw [h.bits]
    refine or_congr_right (exists_congr fun i => and_congr_right fun hi => ?_)
    rw [hb i hi]

theorem headD_eq_getD (order : List Nat) : order.headD 0 = order.getD 0 0 := by
  cases order <;> rfl

/-- The loop over the bits of one octet, by induction on their number. -/
theorem shuffleBits_scattered (count : Nat) (hc : count ≤ 8) (order : List Nat) (w : Uint16)
    (out : List Uint8) (ho : ∀ i < count, order.getD i 0 < 8 * out.length) :
    Scattered out order (fun i => w.getLsbD (7 - i)) count (shuffleBits count order w out) := by
  induction count generalizing order w out with
  | zero => exact Scattered.zero out order _
  | succ count ih =>
    have h0 := ho 0 (Nat.succ_pos count)
    rw [← headD_eq_getD] at h0
    have hfirst := setOutBit_scattered h0 w (headD_eq_getD order).symm
      (b := fun i => w.getLsbD (7 - i)) rfl
    have hrest := ih (by omega) order.tail (w <<< 1) (setOutBit out (order.headD 0) (w &&& 0x80))
      fun i hi => by
        rw [hfirst.length, ← List.drop_one, getD_drop, Nat.add_comm]
        exact ho (i + 1) (by omega)
    rw [shuffleBits, Nat.add_comm count]
    apply hfirst.trans
    rw [List.drop_one]
    apply hrest.congr
    intro i hi
    rw [BitVec.getLsbD_shiftLeft, decide_eq_true (by omega), decide_eq_false (by omega),
      show 7 - (1 + i) = 7 - i - 1 by omega]
    rfl

theorem octet_bit (frameIn : List Uint8) (i : Nat) {j : Nat} (hj : j < 8) :
    ((frameIn.getD i 0).setWidth 16 : Uint16).getLsbD (7 - j) = bitAt frameIn (8 * i + j) := by
  rw [bitAt_word _ _ hj, BitVec.getLsbD_setWidth, BitVec.getMsbD_eq_getLsbD, decide_eq_true hj,
    decide_eq_true (show 7 - j < 16 by omega)]

theorem shuffleOctets_scattered (count : Nat) (order : List Nat) (frameIn out : List Uint8)
    (ho : ∀ i < 8 * count, order.getD i 0 < 8 * out.length) :
    Scattered out order (bitAt frameIn) (8 * count) (shuffleOctets count order frameIn out) := by
  induction count generalizing order frameIn out with
  | zero => exact Scattered.zero out order _
  | succ count ih =>
    have hhead : frameIn.headD 0 = frameIn.getD 0 0 := by cases frameIn <;> rfl
    have hfirst : Scattered out order (bitAt frameIn) 8
        (shuffleBits 8 order ((frameIn.headD 0).setWidth 16) out) := by
      refine (shuffleBits_scattered 8 (Nat.le_refl 8) order _ out fun i hi => ho i (by omega)).congr
        fun i hi => ?_
      rw [hhead, octet_bit frameIn 0 hi, Nat.mul_zero, Nat.zero_add]
    have hrest := ih (order.drop 8) frameIn.tail
      (shuffleBits 8 order ((frameIn.headD 0).setWidth 16) out) fun i hi => by
        rw [hfirst.length, getD_drop]
        exact ho (8 + i) (by omega)
    rw [shuffleOctets, Nat.mul_succ, Nat.add_comm (8 * count)]
    refine hfirst.trans (hrest.congr fun i _ => ?_)
    rw [← List.drop_one, bitAt_drop]

/-- The 31 octets that the function clears first. -/
def clearedFrame (out : List Uint8) : List Uint8 := List.replicate 31 0 ++ out.drop 31

theorem length_clearedFrame {out : List Uint8} (hout : 31 ≤ out.length) :
    (clearedFrame out).length = out.length := by
  unfold clearedFrame
  rw [List.length_append, List.length_replicate, List.length_drop]
  omega

theorem bitAt_clearedFrame (out : List Uint8) (k : Nat) :
    bitAt (clearedFrame out) k = (decide (8 * 31 ≤ k) && bitAt out k) := by
  unfold clearedFrame
  rw [bitAt_append, List.length_replicate]
  split
  · next hk => rw [bitAt_replicate_zero, decide_eq_false (Nat.not_le.2 hk), Bool.false_and]
  · next hk =>
    rw [bitAt_drop, Nat.add_sub_cancel' (Nat.not_lt.1 hk), decide_eq_true (Nat.not_lt.1 hk),
      Bool.true_and]

/-- Whole octets first, then the bits of the last one. -/
theorem shuffleFrame_scattered {n : Nat} (o : BitOrder n) (hn : n ≤ 248) {out : List Uint8}
    (hout : 31 ≤ out.length) (frameIn : List Uint8) :
    Scattered (clearedFrame out) o.table (bitAt frameIn) n (shuffleFrame out frameIn o.table n) := by
  have hclear : Buffer.blit out 0 (List.replicate (size1To8 updPayloadAmrnbBits) 0) =
      clearedFrame out :=
    Buffer.blit_zero_of_fits out (by rw [List.length_replicate]; exact hout)
  have hlength := length_clearedFrame hout
  have hplace : ∀ i < n, o.table.getD i 0 < 8 * (clearedFrame out).length := by
    intro i hi
    have hlt := o.place_lt hi
    change o.table.getD i 0 < n at hlt
    omega
  have hmod : n % 8 < 8 := Nat.mod_lt n (by decide)
  have hwhole := shuffleOctets_scattered (n / 8) o.table frameIn (clearedFrame out) fun i hi =>
    hplace i (by omega)
  generalize hmid : shuffleOctets (n / 8) o.table frameIn (clearedFrame out) = mid at hwhole
  have hroom : ∀ i < n % 8, (o.table.drop (8 * (n / 8))).getD i 0 < 8 * mid.length := by
    intro i hi
    rw [getD_drop, hwhole.length]
    exact hplace _ (by omega)
  have hlast := (shuffleBits_scattered (n % 8) (Nat.le_of_lt hmod) (o.table.drop (8 * (n / 8)))
    ((frameIn.getD (n / 8) 0).setWidth 16) mid hroom).congr fun i hi =>
      octet_bit frameIn (n / 8) (Nat.lt_trans hi hmod)
  have hall := hwhole.trans hlast
  rw [Nat.div_add_mod, ← hmid, ← hclear] at hall
  rw [← hclear]
  exact hall

/-- A shuffled frame: the bits at their places, zeros elsewhere in the 31 octets cleared,
what was there before behind them. -/
theorem shuffleFrame_bits {n : Nat} (o : BitOrder n) (hn : n ≤ 248) {out : List Uint8}
    (hout : 31 ≤ out.length) (frameIn : List Uint8) :
    (shuffleFrame out frameIn o.table n).length = out.length ∧
      o.Scatters (bitAt frameIn) (bitAt ((shuffleFrame out frameIn o.table n).take 31)) ∧
      (shuffleFrame out frameIn o.table n).drop 31 = out.drop 31 := by
  have hall := shuffleFrame_scattered o hn hout frameIn
  have hlength := hall.length.trans (length_clearedFrame hout)
  have hbits : ∀ p, bitAt (shuffleFrame out frameIn o.table n) p = true ↔
      8 * 31 ≤ p ∧ bitAt out p = true ∨ ∃ i < n, o.place i = p ∧ bitAt frameIn i = true := by
    intro p
    rw [hall.bits, bitAt_clearedFrame, Bool.and_eq_true, decide_eq_true_eq]
    rfl
  refine ⟨hlength, fun p => ?_, ext_of_bitAt ?_ fun k _ => ?_⟩
  · rw [bitAt_take, Bool.and_eq_true, decide_eq_true_eq, hbits]
    constructor
    · intro h
      obtain ⟨hp, hbit⟩ := h
      exact hbit.resolve_left fun hold => Nat.not_le.2 hp hold.1
    · intro h
      obtain ⟨i, hi, he, -⟩ := id h
      exact ⟨he ▸ Nat.lt_of_lt_of_le (o.place_lt hi) hn, Or.inr h⟩
  · rw [List.length_drop, List.length_drop, hlength]
  · rw [bitAt_drop, bitAt_drop, Bool.eq_iff_iff, hbits, and_iff_right (Nat.le_add_right _ _)]
    apply or_iff_left
    intro hex
    obtain ⟨i, hi, he, -⟩ := hex
    have hlt := o.place_lt hi
    omega

theorem getLsbD_getBitOnRight (frameIn : List Uint8) (p k : Nat) :
    (getBitOnRight frameIn p).getLsbD k = (decide (k = 0) && bitAt frameIn p) := by
  have hmod : p % 8 < 8 := Nat.mod_lt p (by decide)
  have heq : getBitOnRight frameIn p = (frameIn.getD (p / 8) 0 <<< (p % 8)) >>> 7 := rfl
  rw [heq, BitVec.getLsbD_ushiftRight]
  by_cases hk : k = 0
  · subst hk
    rw [BitVec.getLsbD_shiftLeft, bitAt, BitVec.getMsbD_eq_getLsbD, decide_eq_true hmod,
      decide_eq_false (show ¬ 7 + 0 < p % 8 by omega)]
    rfl
  · rw [BitVec.getLsbD_of_ge _ _ (by omega), decide_eq_false hk, Bool.false_and]

/-- After `count` bits the accumulator holds them, the last one lowest. -/
theorem getLsbD_deShuffleBits (frameIn : List Uint8) (count : Nat) (order : List Nat) (acc : Uint16)
    {k : Nat} (hk : k < 16) :
    (deShuffleBits frameIn count order acc).getLsbD k =
      if k < count then bitAt frameIn (order.getD (count - 1 - k) 0) else acc.getLsbD (k - count) := by
  induction count generalizing order acc with
  | zero => rfl
  | succ count ih =>
    rw [deShuffleBits, ih]
    by_cases hlt : k < count
    · rw [if_pos hlt, if_pos (by omega), ← List.drop_one, getD_drop,
        show 1 + (count - 1 - k) = count + 1 - 1 - k by omega]
    · rw [if_neg hlt, BitVec.getLsbD_or, BitVec.getLsbD_shiftLeft, BitVec.getLsbD_setWidth,
        getLsbD_getBitOnRight]
      by_cases heq : k = count
      · subst heq
        rw [if_pos (Nat.lt_succ_self k), Nat.sub_self, headD_eq_getD,
          show k + 1 - 1 - k = 0 by omega]
        rfl
      · rw [if_neg (by omega), decide_eq_false (show ¬ k - count = 0 by omega),
          decide_eq_false (show ¬ k - count < 1 by omega),
          decide_eq_true (show k - count < 16 by omega), Nat.sub_sub]
        simp

theorem getMsbD_gathered_octet (frameIn : List Uint8) {r : Nat} (hr : r ≤ 8) (order : List Nat)
    {j : Nat} (hj : j < 8) :
    ((deShuffleBits frameIn r order 0 <<< (8 - r)).setWidth 8 : Uint8).getMsbD j =
      (decide (j < r) && bitAt frameIn (order.getD j 0)) := by
  rw [BitVec.getMsbD_eq_getLsbD, decide_eq_true hj, Bool.true_and, BitVec.getLsbD_setWidth,
    BitVec.getLsbD_shiftLeft, decide_eq_true (show 8 - 1 - j < 8 by omega),
    decide_eq_true (show 8 - 1 - j < 16 by omega)]
  by_cases h : j < r
  · rw [decide_eq_false (show ¬ 8 - 1 - j < 8 - r by omega),
      getLsbD_deShuffleBits _ _ _ _ (show 8 - 1 - j - (8 - r) < 16 by omega),
      if_pos (by omega), decide_eq_true h, show r - 1 - (8 - 1 - j - (8 - r)) = j by omega]
    rfl
  · rw [decide_eq_true (show 8 - 1 - j < 8 - r by omega), decide_eq_false h]
    rfl

theorem length_deShuffleOctets (frameIn : List Uint8) (count : Nat) (order : List Nat) :
    (deShuffleOctets frameIn count order).length = count := by
  induction count generalizing order with
  | zero => rfl
  | succ count ih => rw [deShuffleOctets, List.length_cons, ih]

theorem bitAt_deShuffleOctets (frameIn : List Uint8) (count : Nat) (order : List Nat) {k : Nat}
    (hk : k < 8 * count) :
    bitAt (deShuffleOctets frameIn count order) k = bitAt frameIn (order.getD k 0) := by
  induction count generalizing order k with
  | zero => omega
  | succ count ih =>
    have hoctet := fun j hj => getMsbD_gathered_octet frameIn (Nat.le_refl 8) order (j := j) hj
    rw [Nat.sub_self, BitVec.shiftLeft_zero] at hoctet
    rw [deShuffleOctets, bitAt_cons]
    split
    · next hlt => rw [hoctet k hlt, decide_eq_true hlt, Bool.true_and]
    · next hge =>
      rw [ih (order.drop 8) (by omega), getD_drop, Nat.add_sub_cancel' (Nat.not_lt.1 hge)]

/-- A de-shuffled frame: the bits taken from their places, zeros in the rest of the last
octet, what was there before behind it. -/
theorem deShuffleFrame_bits {n : Nat} (o : BitOrder n) {out : List Uint8}
    (hout : n / 8 + 1 ≤ out.length) (frameIn : List Uint8) :
    (deShuffleFrame out frameIn o.table n).length = out.length ∧
      (∀ k < 8 * (n / 8 + 1), bitAt (deShuffleFrame out frameIn o.table n) k =
        (decide (k < n) && bitAt frameIn (o.place k))) ∧
      (deShuffleFrame out frameIn o.table n).drop (n / 8 + 1) = out.drop (n / 8 + 1) := by
  have hmod : n % 8 < 8 := Nat.mod_lt n (by decide)
  have hlen := length_deShuffleOctets frameIn (n / 8) o.table
  generalize hoctets : deShuffleOctets frameIn (n / 8) o.table = octets at hlen
  generalize hlast : ((deShuffleBits frameIn (n % 8) (o.table.drop (8 * (n / 8))) 0 <<<
    (8 - n % 8)).setWidth 8 : Uint8) = last
  have hwritten : (octets ++ [last]).length = n / 8 + 1 := by
    rw [List.length_append, hlen, List.length_singleton]
  have hframe : deShuffleFrame out frameIn o.table n = octets ++ [last] ++ out.drop (n / 8 + 1) := by
    have hblit := Buffer.blit_zero_of_fits out (Nat.le_trans (Nat.le_of_eq hwritten) hout)
    rw [hwritten, ← hoctets, ← hlast] at hblit
    rw [← hoctets, ← hlast]
    exact hblit
  rw [hframe]
  refine ⟨?_, fun k hk => ?_, List.drop_left' hwritten⟩
  · rw [List.length_append, hwritten, List.length_drop]
    omega
  · rw [bitAt_append, hwritten, if_pos hk, bitAt_append, hlen]
    split
    · next hlt =>
      rw [← hoctets, bitAt_deShuffleOctets _ _ _ hlt, decide_eq_true (by omega), Bool.true_and]
      rfl
    · next hge =>
      have hj : k - 8 * (n / 8) < 8 := by omega
      rw [bitAt_cons, if_pos hj]
      rw [← hlast, getMsbD_gathered_octet _ (Nat.le_of_lt hmod) _ hj, getD_drop,
        Nat.add_sub_cancel' (Nat.not_lt.1 hge),
        decide_eq_decide.2 (show k - 8 * (n / 8) < n % 8 ↔ k < n by omega)]
      rfl

theorem amrnb_tables : ∀ mode ≤ updModeAmrnb1220,
    (amrnbFrameBitOrders.getD mode []).length = amrnbPayloadSizeInBits.getD mode 0 ∧
      (∀ p ∈ amrnbFrameBitOrders.getD mode [], p < amrnbPayloadSizeInBits.getD mode 0) ∧
      distinctFrom 0 (amrnbFrameBitOrders.getD mode []) = true ∧
      amrnbPayloadSizeInBits.getD mode 0 ≤ updPayloadAmrnbBits := by
  decide +kernel

/-- Number of bits of a frame. -/
def amrnbSize1 (mode : Nat) : Nat := amrnbPayloadSizeInBits.getD mode 0

def amrnbBitOrder {mode : Nat} (h : mode ≤ updModeAmrnb1220) : BitOrder (amrnbSize1 mode) where
  table := amrnbFrameBitOrders.getD mode []
  size_eq := (amrnb_tables mode h).1
  lt := (amrnb_tables mode h).2.1
  nodup := (nodup_of_distinctFrom (amrnb_tables mode h).2.2.1).1

theorem amrnbSize1_le {mode : Nat} (h : mode ≤ updModeAmrnb1220) : amrnbSize1 mode ≤ 244 :=
  (amrnb_tables mode h).2.2.2

theorem shuffled_bits {mode : Nat} (h : mode ≤ updModeAmrnb1220) {out : List Uint8}
    (hout : 31 ≤ out.length) (frame : List Uint8) :
    (lUpdShuffleAmrnbPayload frame out mode).length = out.length ∧
      (amrnbBitOrder h).Scatters (bitAt frame)
        (bitAt ((lUpdShuffleAmrnbPayload frame out mode).take 31)) ∧
      (lUpdShuffleAmrnbPayload frame out mode).drop 31 = out.drop 31 := by
  have hsize := amrnbSize1_le h
  rw [lUpdShuffleAmrnbPayload, if_pos h]
  exact shuffleFrame_bits (amrnbBitOrder h) (Nat.le_trans hsize (by decide)) hout frame

theorem deShuffled_bits {mode : Nat} (h : mode ≤ updModeAmrnb1220) {out : List Uint8}
    (hout : 31 ≤ out.length) (frame : List Uint8) :
    (lUpdDeShuffleAmrnbPayload frame out mode).length = out.length ∧
      (∀ k < 8 * (amrnbSize1 mode / 8 + 1), bitAt (lUpdDeShuffleAmrnbPayload frame out mode) k =
        (decide (k < amrnbSize1 mode) && bitAt frame ((amrnbBitOrder h).place k))) ∧
      (lUpdDeShuffleAmrnbPayload frame out mode).drop (amrnbSize1 mode / 8 + 1) =
        out.drop (amrnbSize1 mode / 8 + 1) := by
  have hsize := amrnbSize1_le h
  rw [lUpdDeShuffleAmrnbPayload, if_pos h]
  exact deShuffleFrame_bits (amrnbBitOrder h) (by omega) frame

theorem deShuffled_gathers {mode : Nat} (h : mode ≤ updModeAmrnb1220) {out : List Uint8}
    (hout : 31 ≤ out.length) (frame : List Uint8) :
    (amrnbBitOrder h).Gathers (bitAt (frame.take 31))
      (bitAt (lUpdDeShuffleAmrnbPayload frame out mode)) := by
  have hsize := amrnbSize1_le h
  obtain ⟨-, hbits, -⟩ := deShuffled_bits h hout frame
  intro k hk
  have hplace := (amrnbBitOrder h).place_lt hk
  rw [hbits k (by omega), decide_eq_true hk, bitAt_take, decide_eq_true (by omega)]

/-- Each of the two functions undoes the other: the frame's bits come back with zeros behind
them, and a shuffled frame without other bits comes back whole. -/
theorem shuffle_deShuffle_inverse {mode : Nat} (h : mode ≤ updModeAmrnb1220)
    {frame out out' : List Uint8} (hframe : 31 ≤ frame.length) (hout : 31 ≤ out.length)
    (hout' : 31 ≤ out'.length) :
    (∀ k < amrnbSize1 mode,
      bitAt (lUpdDeShuffleAmrnbPayload (lUpdShuffleAmrnbPayload frame out mode) out' mode) k =
        bitAt frame k) ∧
    (∀ k, amrnbSize1 mode ≤ k → k < 8 * size1To8 (amrnbSize1 mode) →
      bitAt (lUpdDeShuffleAmrnbPayload (lUpdShuffleAmrnbPayload frame out mode) out' mode) k =
        false) ∧
    ((∀ k, amrnbSize1 mode ≤ k → k < 8 * 31 → bitAt frame k = false) →
      (lUpdShuffleAmrnbPayload (lUpdDeShuffleAmrnbPayload frame out mode) out' mode).take 31 =
        frame.take 31) := by
  obtain ⟨-, hscatter, -⟩ := shuffled_bits h hout frame
  obtain ⟨-, hback, -⟩ := deShuffled_bits h hout' (lUpdShuffleAmrnbPayload frame out mode)
  obtain ⟨hlength, hrescatter, -⟩ := shuffled_bits h hout' (lUpdDeShuffleAmrnbPayload frame out mode)
  refine ⟨(deShuffled_gathers h hout' _).scatters hscatter, fun k hk hroom => ?_, fun hzero => ?_⟩
  · unfold size1To8 at hroom
    rw [hback k (by omega), decide_eq_false (Nat.not_lt.2 hk), Bool.false_and]
  · have hsame := hrescatter.gathers (deShuffled_gathers h hout frame)
    refine ext_of_bitAt ?_ fun k _ => ?_
    · rw [List.length_take, List.length_take, hlength, Nat.min_eq_left hout',
        Nat.min_eq_left hframe]
    · by_cases hk : k < amrnbSize1 mode
      · exact hsame k hk
      · rw [hrescatter.eq_false (Nat.not_lt.1 hk), bitAt_take]
        by_cases hroom : k < 8 * 31
        · rw [hzero k (Nat.not_lt.1 hk) hroom, Bool.and_false]
        · rw [decide_eq_false hroom, Bool.false_and]

/-- A 12.2 kbit/s frame of alternating half octets, into buffers that were not clear. -/
theorem shuffle_deShuffle_inverse_1220 :
    let frame := List.replicate 31 (0xF0 : Uint8)
    let out := List.replicate 31 (0xFF : Uint8)
    (∀ k < 244,
      bitAt (lUpdDeShuffleAmrnbPayload (lUpdShuffleAmrnbPayload frame out 7) out 7) k =
        bitAt frame k) ∧
    (lUpdShuffleAmrnbPayload (lUpdDeShuffleAmrnbPayload frame out 7) out 7).take 31 = frame := by
  have hzero : ∀ k < 248, 244 ≤ k → bitAt (List.replicate 31 (0xF0 : Uint8)) k = false := by
    decide +kernel
  have h := shuffle_deShuffle_inverse (show 7 ≤ updModeAmrnb1220 by decide)
    (show 31 ≤ (List.replicate 31 (0xF0 : Uint8)).length by decide)
    (show 31 ≤ (List.replicate 31 (0xFF : Uint8)).length by decide)
    (show 31 ≤ (List.replicate 31 (0xFF : Uint8)).length by decide)
  exact ⟨h.1, h.2.2 fun k hk hlt => hzero k hlt hk⟩

end RtpServer.Verify.AmrnbShuffle
