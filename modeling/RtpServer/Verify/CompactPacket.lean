import RtpServer.Verify.HandOver

/-!
# Compact payloads, bit by bit

The UPD packet made from a compact payload, in the words the code works on: the frame bits
in the order of the codec, zeros behind them, and a header whose size is the frame's. The
AMR-WB IO payload carries three CMR bits first and the first frame bit last.
-/
namespace RtpServer.Verify.CompactPacket

open RtpServer.Source RtpServer.Library RtpServer.Library.Bits RtpServer.Source.Upd
open RtpServer.Source.Mgw RtpServer.Source.EvsIngress RtpServer.Verify.BitBuffer
open RtpServer.Verify.HandOver

/-- Number of frame bits of an AMR-WB IO payload. -/
def ioFrameSize1 (rtpPayloadSize1 : Nat) : Nat :=
  getEvsAmrWbIoPayloadSizeFromMode (getEvsCompactIoModeFromPayloadSize rtpPayloadSize1)

/-- The frame `d` of `n` bits stands in the payload: its bits 1, 2, ... behind the CMR, then
bit 0. -/
structure CarriesIoFrame (rtpPayload : List Uint16) (d : Nat → Bool) (n : Nat) : Prop where
  first : bitAt rtpPayload (evsCompactCmrEntrySize + (n - 1)) = d 0
  rest : ∀ k, k + 1 < n → bitAt rtpPayload (evsCompactCmrEntrySize + k) = d (k + 1)

def clearedBits : Nat := 16 * (mMbIptMaxSingleEvsDataOutputSize16 - updHeaderSize16)

/-- The payload of `packet` is the frame `d` of `n` bits and zeros, and its header says so. -/
structure HoldsFrame (packet : UpdPacket mbIptPayloadSize16) (d : Nat → Bool) (n : Nat) : Prop where
  frame : ∀ k < n, bitAt packet.payload.cells k = d k
  zeros : ∀ k, n ≤ k → k < clearedBits → bitAt packet.payload.cells k = false
  size : lUpdGetPayloadSize1 packet.toUpdHeader = n

/-- A Primary payload: the header made from it gives back its size; a SID frame may name any
mode. -/
theorem primary_size {size1 : Nat} (h : IsPrimaryCompact size1) (cells : List Uint16) :
    lUpdGetPayloadSize1 ⟨updCodecEvs, getEvsCompactPrimaryUpdType size1 cells,
      getEvsCompactPrimaryModeFromPayloadSize size1 cells, updEvsPrimaryMode⟩ = size1 := by
  have hsid : ∀ mode : BitVec 4,
      lUpdGetPayloadSize1 ⟨updCodecEvs, updTypeSidFirst, mode, updEvsPrimaryMode⟩ = 48 ∧
        lUpdGetPayloadSize1 ⟨updCodecEvs, updTypeSidUpdate, mode, updEvsPrimaryMode⟩ = 48 := by
    decide
  rcases h with rfl | h
  · rfl
  · simp only [compactPrimaryOnlySizes, List.mem_cons, List.not_mem_nil, or_false] at h
    rcases h with rfl | rfl | rfl | rfl | rfl | rfl | rfl | rfl | rfl | rfl | rfl | rfl
    · simp only [getEvsCompactPrimaryUpdType, lUpdGetEvsPrimarySidType, if_true]
      split
      · exact (hsid _).1
      · exact (hsid _).2
    all_goals rfl

theorem io_tables : ∀ size1 ∈ compactWbioSizes,
    getCompactEvsMode size1 = updEvsWbioMode ∧
      (getEvsCompactIoModeFromPayloadSize size1).toNat ≤ updModeEvsWbio23850.toNat ∧
      0 < ioFrameSize1 size1 ∧ evsCompactCmrEntrySize + ioFrameSize1 size1 ≤ size1 ∧
      size1 ≤ 480 ∧
      lUpdGetPayloadSize1 ⟨updCodecEvs, updTypeSpeechGood,
        getEvsCompactIoModeFromPayloadSize size1, updEvsWbioMode⟩ = ioFrameSize1 size1 := by
  decide

theorem orIntoPayload_copied {n : Nat} (rtpPayload : List Uint16) (srcBitShift : Nat)
    (payload : Buffer Uint16 n) (trgBitShift bufferSize : Nat)
    (hs : srcBitShift / 16 + (bufferSize + 15) / 16 < rtpPayload.length)
    (ht : trgBitShift / 16 + (bufferSize + 15) / 16 < n) :
    OrCopied rtpPayload srcBitShift payload.cells trgBitShift bufferSize
      (orIntoPayload rtpPayload srcBitShift payload trgBitShift bufferSize).cells := by
  obtain ⟨r, hr, hcopy⟩ := lMgwOrBitBuf_copied hs (ht.trans_eq payload.size_eq.symm)
  rw [orIntoPayload_cells hr hcopy.length]
  exact hcopy

theorem bitAt_cleared (scratch : UpdPacket mbIptPayloadSize16) {k : Nat} (hk : k < clearedBits) :
    bitAt (clearUpdBuffer scratch).payload.cells k = false := by
  have hk' : k < 16 * (List.replicate 166 (0 : Uint16)).length := by
    rw [List.length_replicate]
    exact hk
  rw [clearUpdBuffer_cells, bitAt_append, if_pos hk', bitAt_replicate_zero]

theorem primary_frame {rtpPayload : List Uint16} {size1 : Nat} (h : IsPrimaryCompact size1)
    (hroom : size1 / 16 + 2 ≤ rtpPayload.length) (scratch : UpdPacket mbIptPayloadSize16) :
    HoldsFrame (createEvsUpdPacketCompact rtpPayload size1 scratch) (bitAt rtpPayload) size1 := by
  have hle := h.le
  have hn : mbIptPayloadSize16 = 653 := rfl
  have hcopy := orIntoPayload_copied rtpPayload 0 (clearUpdBuffer scratch).payload 0 size1
    (by omega) (by omega)
  rw [← createEvsUpdPacketCompact_payload rtpPayload h scratch] at hcopy
  have hclear : size1 ≤ clearedBits := hle.trans (by decide)
  constructor
  · intro k hk
    rw [hcopy.bits, bitAt_cleared scratch (hk.trans_le hclear), decide_eq_true (by omega),
      Nat.zero_add, Nat.sub_zero]
    rfl
  · intro k hk hlt
    rw [hcopy.bits, bitAt_cleared scratch hlt, decide_eq_false (by omega)]
    rfl
  · have hheader : ∃ cells, (createEvsUpdPacketCompact rtpPayload size1 scratch).toUpdHeader =
        ⟨updCodecEvs, getEvsCompactPrimaryUpdType size1 cells,
          getEvsCompactPrimaryModeFromPayloadSize size1 cells, updEvsPrimaryMode⟩ := by
      have hm : updEvsPrimaryMode ≠ updEvsWbioMode := by decide
      rw [createEvsUpdPacketCompact, getCompactEvsMode_primary h, if_neg hm]
      exact ⟨_, rfl⟩
    obtain ⟨cells, hheader⟩ := hheader
    rw [hheader, primary_size h]

theorem createEvsUpdPacketCompact_io (rtpPayload : List Uint16) {size1 : Nat}
    (h : size1 ∈ compactWbioSizes) (scratch : UpdPacket mbIptPayloadSize16) :
    (createEvsUpdPacketCompact rtpPayload size1 scratch).toUpdHeader = ⟨updCodecEvs,
        updTypeSpeechGood, getEvsCompactIoModeFromPayloadSize size1, updEvsWbioMode⟩ ∧
      (createEvsUpdPacketCompact rtpPayload size1 scratch).payload =
        orIntoPayload rtpPayload evsCompactCmrEntrySize
          (orIntoPayload rtpPayload (evsCompactCmrEntrySize + (ioFrameSize1 size1 - 1))
            (clearUpdBuffer scratch).payload 0 1) 1 (ioFrameSize1 size1 - 1) := by
  obtain ⟨hm, hmode, hpos, -⟩ := io_tables size1 h
  rw [createEvsUpdPacketCompact, hm, if_pos rfl]
  exact ⟨rfl, if_pos ⟨hmode, hpos⟩⟩

/-- The two copies of an AMR-WB IO payload: its last frame bit first, then the others. -/
theorem io_payload_bits {rtpPayload : List Uint16} {size1 : Nat} (h : size1 ∈ compactWbioSizes)
    (hroom : size1 / 16 + 2 ≤ rtpPayload.length) (scratch : UpdPacket mbIptPayloadSize16) {k : Nat}
    (hk : k < clearedBits) :
    bitAt (createEvsUpdPacketCompact rtpPayload size1 scratch).payload.cells k =
      (decide (k = 0) && bitAt rtpPayload (evsCompactCmrEntrySize + (ioFrameSize1 size1 - 1)) ||
        decide (1 ≤ k ∧ k < ioFrameSize1 size1) &&
          bitAt rtpPayload (evsCompactCmrEntrySize + (k - 1))) := by
  obtain ⟨-, -, hpos, hfit, hle, -⟩ := io_tables size1 h
  obtain ⟨-, hpayload⟩ := createEvsUpdPacketCompact_io rtpPayload h scratch
  generalize ioFrameSize1 size1 = n at *
  have hcmr : evsCompactCmrEntrySize = 3 := rfl
  have hn : mbIptPayloadSize16 = 653 := rfl
  have hfirst := orIntoPayload_copied rtpPayload (evsCompactCmrEntrySize + (n - 1))
    (clearUpdBuffer scratch).payload 0 1 (by omega) (by decide)
  have hrest := orIntoPayload_copied rtpPayload evsCompactCmrEntrySize
    (orIntoPayload rtpPayload (evsCompactCmrEntrySize + (n - 1)) (clearUpdBuffer scratch).payload
      0 1) 1 (n - 1) (by omega) (by omega)
  rw [← hpayload] at hrest
  rw [hrest.bits, hfirst.bits, bitAt_cleared scratch hk, Bool.false_or,
    decide_eq_decide.2 (show 1 ≤ k ∧ k < 1 + (n - 1) ↔ 1 ≤ k ∧ k < n by omega)]
  by_cases h0 : k = 0
  · subst h0
    rfl
  · rw [decide_eq_false h0, decide_eq_false (show ¬ (0 ≤ k ∧ k < 0 + 1) by omega),
      Bool.false_and, Bool.false_and]

theorem io_frame {rtpPayload : List Uint16} {size1 : Nat} (h : size1 ∈ compactWbioSizes)
    (hroom : size1 / 16 + 2 ≤ rtpPayload.length) (scratch : UpdPacket mbIptPayloadSize16)
    {d : Nat → Bool} (hd : CarriesIoFrame rtpPayload d (ioFrameSize1 size1)) :
    HoldsFrame (createEvsUpdPacketCompact rtpPayload size1 scratch) d (ioFrameSize1 size1) := by
  obtain ⟨-, -, hpos, hfit, hle, hsize⟩ := io_tables size1 h
  have hbits := fun k => io_payload_bits h hroom scratch (k := k)
  have hclear : ioFrameSize1 size1 ≤ clearedBits := by
    have hc : clearedBits = 2656 := rfl
    omega
  constructor
  · intro k hk
    rw [hbits k (hk.trans_le hclear), hd.first]
    cases k with
    | zero => simp
    | succ k =>
      rw [decide_eq_false (Nat.succ_ne_zero k), Bool.false_and, Bool.false_or,
        decide_eq_true ⟨Nat.succ_pos k, hk⟩, Bool.true_and, Nat.add_sub_cancel, hd.rest k hk]
  · intro k hk hlt
    rw [hbits k hlt, decide_eq_false (by omega), decide_eq_false (by omega)]
    rfl
  · rw [(createEvsUpdPacketCompact_io rtpPayload h scratch).1, hsize]

/-- Every compact payload, whatever the scratch buffer held: a Primary frame arrives as it
was sent, an AMR-WB IO frame with its first bit moved to the front, whatever the CMR and
padding bits are. -/
theorem compact_packet_holds_frame (rtpPayload : List Uint16) (size1 : Nat)
    (scratch : UpdPacket mbIptPayloadSize16) (hroom : size1 / 16 + 2 ≤ rtpPayload.length) :
    (IsPrimaryCompact size1 →
      HoldsFrame (createEvsUpdPacketCompact rtpPayload size1 scratch) (bitAt rtpPayload) size1) ∧
    (size1 ∈ compactWbioSizes → ∀ d, CarriesIoFrame rtpPayload d (ioFrameSize1 size1) →
      HoldsFrame (createEvsUpdPacketCompact rtpPayload size1 scratch) d (ioFrameSize1 size1)) :=
  ⟨fun h => primary_frame h hroom scratch, fun h _ hd => io_frame h hroom scratch hd⟩

def somePayload : List Uint16 := List.replicate 744 0x5A5A

def someFrame (k : Nat) : Bool := bitAt somePayload (if k = 0 then 134 else k + 2)

theorem compact_packet_holds_frame_some :
    HoldsFrame (createEvsUpdPacketCompact somePayload 144 (UpdPacket.zero _)) (bitAt somePayload) 144 ∧
      HoldsFrame (createEvsUpdPacketCompact somePayload 136 (UpdPacket.zero _)) someFrame 132 := by
  have hlen : somePayload.length = 744 := List.length_replicate
  have hframe : CarriesIoFrame somePayload someFrame (ioFrameSize1 136) := by
    constructor
    · rfl
    · intro k _
      rw [someFrame, if_neg (Nat.succ_ne_zero k), Nat.add_comm evsCompactCmrEntrySize]
      rfl
  exact ⟨(compact_packet_holds_frame somePayload 144 (UpdPacket.zero _) (by rw [hlen]; decide)).1
      (by decide),
    (compact_packet_holds_frame somePayload 136 (UpdPacket.zero _) (by rw [hlen]; decide)).2
      (by decide) someFrame hframe⟩

end RtpServer.Verify.CompactPacket
