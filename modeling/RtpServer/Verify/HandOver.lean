import RtpServer.Source.RtpProcess
import RtpServer.Verify.BitBuffer

/-!
# From RTP payload to UPD payload

The compact payload is an octet stream that is copied as 16-bit words. On a
little-endian host the octets of the copy are those of the payload only when the
payload is whole words; the last octet of an odd payload is masked away and the octet
behind it in the receive buffer is taken instead.
-/
namespace RtpServer.Verify.HandOver

open RtpServer.Source RtpServer.Library RtpServer.Library.LittleEndian
open RtpServer.Source.Mgw RtpServer.Source.Upd RtpServer.Source.EvsIngress
open RtpServer.Source.RtpHeader RtpServer.Source.RtpProcess
open RtpServer.Library.Bits RtpServer.Verify.BitBuffer

/-- A copy from the first bit on into zeros that end at a word. -/
theorem lMgwOrBitBuf_over_zeros {source : List Uint16} {m n : Nat} {rest : List Uint16}
    (hn : n ≤ 16 * m) (hs : m < source.length) (hr : rest ≠ []) :
    ∃ r, lMgwOrBitBuf source 0 (List.replicate m 0 ++ rest) 0 n = some r ∧
      r.length = m + rest.length ∧
      ∀ k, bitAt r k =
        if k < 16 * m then decide (k < n) && bitAt source k else bitAt rest (k - 16 * m) := by
  have hrlen := List.length_pos_of_ne_nil hr
  have htarget : (List.replicate m (0 : Uint16) ++ rest).length = m + rest.length := by
    rw [List.length_append, List.length_replicate]
  obtain ⟨r, hcopied, hcopy⟩ := lMgwOrBitBuf_copied
    (show 0 / 16 + (n + 15) / 16 < source.length by omega)
    (show 0 / 16 + (n + 15) / 16 < (List.replicate m (0 : Uint16) ++ rest).length by omega)
  refine ⟨r, hcopied, hcopy.length.trans htarget, fun k => ?_⟩
  rw [hcopy.bits, bitAt_append, List.length_replicate, bitAt_replicate_zero, Nat.zero_add,
    Nat.zero_add, Nat.sub_zero]
  by_cases hk : k < 16 * m
  · rw [if_pos hk, if_pos hk, Bool.false_or,
      decide_eq_decide.2 (show 0 ≤ k ∧ k < n ↔ k < n by omega)]
  · rw [if_neg hk, if_neg hk, decide_eq_false (by omega), Bool.false_and, Bool.or_false]

/-- Full words over zeros: there is a word behind both blocks. -/
theorem lMgwOrBitBuf_words (ws : List Uint16) {srest rest : List Uint16} (hs : srest ≠ [])
    (hr : rest ≠ []) :
    lMgwOrBitBuf (ws ++ srest) 0 (List.replicate ws.length 0 ++ rest) 0 (16 * ws.length) =
      some (ws ++ rest) := by
  have hslen := List.length_pos_of_ne_nil hs
  obtain ⟨r, hcopied, hlen, hbits⟩ := lMgwOrBitBuf_over_zeros (Nat.le_refl (16 * ws.length))
    (show ws.length < (ws ++ srest).length by rw [List.length_append]; omega) hr
  rw [hcopied, Option.some.injEq]
  apply ext_of_bitAt (hlen.trans List.length_append.symm)
  intro k _
  rw [hbits, bitAt_append, bitAt_append]
  by_cases hk : k < 16 * ws.length
  · rw [if_pos hk, if_pos hk, if_pos hk, decide_eq_true hk, Bool.true_and]
  · rw [if_neg hk, if_neg hk]

/-- Of a half word the upper octet is copied. -/
theorem lMgwOrBitBuf_half_word (ws : List Uint16) (x : Uint16) {srest rest : List Uint16}
    (hs : srest ≠ []) (hr : rest ≠ []) :
    lMgwOrBitBuf (ws ++ x :: srest) 0 (List.replicate (ws.length + 1) 0 ++ rest) 0
      (16 * ws.length + 8) = some (ws ++ (x &&& 0xFF00) :: rest) := by
  have hslen := List.length_pos_of_ne_nil hs
  obtain ⟨r, hcopied, hlen, hbits⟩ := lMgwOrBitBuf_over_zeros
    (show 16 * ws.length + 8 ≤ 16 * (ws.length + 1) by omega)
    (show ws.length + 1 < (ws ++ x :: srest).length by
      rw [List.length_append, List.length_cons]
      omega) hr
  have hmask : ∀ j, j < 16 → (0xFF00 : Uint16).getMsbD j = decide (j < 8) := by decide
  rw [hcopied, Option.some.injEq]
  apply ext_of_bitAt
  · rw [hlen, List.length_append, List.length_cons]
    omega
  · intro k _
    rw [hbits, bitAt_append, bitAt_append, bitAt_cons, bitAt_cons]
    by_cases hk : k < 16 * ws.length
    · rw [if_pos (by omega), if_pos hk, if_pos hk, decide_eq_true (by omega), Bool.true_and]
    · rw [if_neg hk, if_neg hk]
      by_cases hj : k - 16 * ws.length < 16
      · rw [if_pos (by omega), if_pos hj, if_pos hj, BitVec.getMsbD_and, hmask _ hj, Bool.and_comm,
          decide_eq_decide.2 (show k < 16 * ws.length + 8 ↔ k - 16 * ws.length < 8 by omega)]
      · rw [if_neg (by omega), if_neg hj, Nat.mul_succ, Nat.sub_sub]

def IsPrimaryCompact (size1 : Nat) : Prop := size1 = 56 ∨ size1 ∈ compactPrimaryOnlySizes

instance (size1 : Nat) : Decidable (IsPrimaryCompact size1) :=
  inferInstanceAs (Decidable (_ ∨ _))

theorem IsPrimaryCompact.le {size1 : Nat} (h : IsPrimaryCompact size1) : size1 ≤ 2560 := by
  rcases h with rfl | h
  · decide
  · simp only [compactPrimaryOnlySizes, List.mem_cons, List.not_mem_nil, or_false] at h
    omega

theorem getCompactEvsMode_primary {size1 : Nat} (h : IsPrimaryCompact size1) :
    getCompactEvsMode size1 = updEvsPrimaryMode := if_pos h

def staleWords (scratch : UpdPacket mbIptPayloadSize16) : List Uint16 :=
  scratch.payload.cells.drop 166

theorem clearUpdBuffer_cells (scratch : UpdPacket mbIptPayloadSize16) :
    (clearUpdBuffer scratch).payload.cells = List.replicate 166 0 ++ staleWords scratch := by
  have hl := scratch.payload.size_eq
  have hf : (List.replicate (mMbIptMaxSingleEvsDataOutputSize16 - updHeaderSize16)
      (0 : Uint16)).length ≤ scratch.payload.cells.length := by
    rw [hl, List.length_replicate]
    decide
  rw [clearUpdBuffer, Buffer.write_cells, Buffer.blit_zero_of_fits _ hf, List.length_replicate]
  rfl

theorem createEvsUpdPacketCompact_payload (rtpPayload : List Uint16) {size1 : Nat}
    (h : IsPrimaryCompact size1) (scratch : UpdPacket mbIptPayloadSize16) :
    (createEvsUpdPacketCompact rtpPayload size1 scratch).payload =
      orIntoPayload rtpPayload 0 (clearUpdBuffer scratch).payload 0 size1 := by
  have hm : updEvsPrimaryMode ≠ updEvsWbioMode := by decide
  simp only [createEvsUpdPacketCompact, getCompactEvsMode_primary h, if_neg hm]

theorem orIntoPayload_cells {n : Nat} {rtpPayload : List Uint16}
    {srcBitShift trgBitShift bufferSize : Nat} {payload : Buffer Uint16 n} {result : List Uint16}
    (h : lMgwOrBitBuf rtpPayload srcBitShift payload.cells trgBitShift bufferSize = some result)
    (hlen : result.length = payload.cells.length) :
    (orIntoPayload rtpPayload srcBitShift payload trgBitShift bufferSize).cells = result := by
  rw [orIntoPayload, Buffer.write_cells, h, Option.getD_some,
    Buffer.blit_zero_of_length_eq _ hlen]

theorem replicate_split {m : Nat} (hm : m ≤ 166) :
    List.replicate 166 (0 : Uint16) = List.replicate m 0 ++ List.replicate (166 - m) 0 := by
  rw [← List.replicate_add]
  congr 1
  omega

theorem words_ne_nil {os : List Uint8} (h : 2 ≤ os.length) : words os ≠ [] := by
  intro he
  have hl := congrArg List.length he
  rw [length_words, List.length_nil] at hl
  omega

/-- An even payload arrives whole, followed by zeros. -/
theorem even_payload_cells {p tail : List Uint8} (heven : p.length % 2 = 0)
    (hsize : IsPrimaryCompact (8 * p.length)) (htail : 2 ≤ tail.length)
    (scratch : UpdPacket mbIptPayloadSize16) :
    (createEvsUpdPacketCompact (words (p ++ tail)) (8 * p.length) scratch).payload.cells =
      words p ++ (List.replicate (166 - p.length / 2) 0 ++ staleWords scratch) := by
  have hle := hsize.le
  have hlw := length_words p
  have hr : List.replicate (166 - p.length / 2) (0 : Uint16) ++ staleWords scratch ≠ [] := by
    simp only [ne_eq, List.append_eq_nil_iff, List.replicate_eq_nil_iff, not_and_or]
    left
    omega
  have hcopy := lMgwOrBitBuf_words (words p) (words_ne_nil htail) hr
  rw [hlw, show 16 * (p.length / 2) = 8 * p.length by omega, ← List.append_assoc,
    ← replicate_split (by omega), ← words_append p tail heven, ← clearUpdBuffer_cells] at hcopy
  rw [createEvsUpdPacketCompact_payload _ hsize]
  apply orIntoPayload_cells hcopy
  rw [clearUpdBuffer_cells]
  simp only [List.length_append, List.length_replicate, hlw]
  omega

/-- Of an odd payload the last octet is lost and the octet `c` behind it arrives. -/
theorem odd_payload_cells {q tail : List Uint8} {b c : Uint8} (heven : q.length % 2 = 0)
    (hsize : IsPrimaryCompact (8 * (q.length + 1))) (htail : 2 ≤ tail.length)
    (scratch : UpdPacket mbIptPayloadSize16) :
    (createEvsUpdPacketCompact (words (q ++ [b] ++ c :: tail)) (8 * (q.length + 1))
        scratch).payload.cells =
      words q ++ word 0 c ::
        (List.replicate (165 - q.length / 2) 0 ++ staleWords scratch) := by
  have hle := hsize.le
  have hlw := length_words q
  have hr : List.replicate (165 - q.length / 2) (0 : Uint16) ++ staleWords scratch ≠ [] := by
    simp only [ne_eq, List.append_eq_nil_iff, List.replicate_eq_nil_iff, not_and_or]
    left
    omega
  have hmask : word b c &&& 0xFF00 = word 0 c := by
    rw [← word_low_high (word b c &&& 0xFF00), low_and, high_and, low_word, high_word,
      show low 0xFF00 = 0#8 by decide, show high 0xFF00 = BitVec.allOnes 8 by decide,
      BitVec.and_zero, BitVec.and_allOnes]
    rfl
  have hz : List.replicate (q.length / 2 + 1) (0 : Uint16) ++
      (List.replicate (165 - q.length / 2) 0 ++ staleWords scratch) =
      (clearUpdBuffer scratch).payload.cells := by
    rw [clearUpdBuffer_cells, replicate_split (m := q.length / 2 + 1) (by omega), List.append_assoc,
      show 166 - (q.length / 2 + 1) = 165 - q.length / 2 by omega]
  have hcopy := lMgwOrBitBuf_half_word (words q) (word b c) (words_ne_nil htail) hr
  rw [hmask, hlw, show 16 * (q.length / 2) + 8 = 8 * (q.length + 1) by omega, hz] at hcopy
  have hw : words (q ++ [b] ++ c :: tail) = words q ++ word b c :: words tail := by
    rw [List.append_assoc, words_append q _ heven]
    rfl
  rw [createEvsUpdPacketCompact_payload _ hsize, hw]
  apply orIntoPayload_cells hcopy
  rw [← hz]
  simp only [List.length_append, List.length_replicate, List.length_cons, hlw]
  omega

def updOctets {n : Nat} (packet : UpdPacket n) : List Uint8 := octets packet.payload.cells

def payloadRoom : Nat := requestBuffSize - lRtpGetHeaderSize8 .rtpUncompressed

def handOver (p tail : List Uint8) (scratch : UpdPacket mbIptPayloadSize16) :
    UpdPacket mbIptPayloadSize16 :=
  createEvsUpdPacketCompact (words (p ++ tail)) (8 * p.length) scratch

/-- The decoder is handed the octets of `p`, and nothing that follows it matters. -/
structure HandedOver (p : List Uint8) : Prop where
  faithful : ∀ tail scratch, p.length + tail.length = payloadRoom →
    (updOctets (handOver p tail scratch)).take p.length = p
  unaffected : ∀ tail tail' scratch, p.length + tail.length = payloadRoom →
    p.length + tail'.length = payloadRoom →
    updOctets (handOver p tail scratch) = updOctets (handOver p tail' scratch)

theorem handedOver_of_even {p : List Uint8} (hsize : IsPrimaryCompact (8 * p.length))
    (heven : p.length % 2 = 0) : HandedOver p := by
  have hle := hsize.le
  have hroom : payloadRoom = 1488 := rfl
  have ho : octets (words p) = p := octets_words p heven
  constructor
  · intro tail scratch htail
    unfold updOctets handOver
    rw [even_payload_cells heven hsize (by omega), octets_append, ho, List.take_left]
  · intro tail tail' scratch htail htail'
    unfold updOctets handOver
    rw [even_payload_cells heven hsize (by omega), even_payload_cells heven hsize (by omega)]

/-- The word behind an odd payload's last whole word holds the octet that follows it. -/
theorem not_handedOver_of_odd {p : List Uint8} (hsize : IsPrimaryCompact (8 * p.length))
    (hodd : p.length % 2 = 1) : ¬ HandedOver p := by
  intro h
  have hle := hsize.le
  have hroom : payloadRoom = 1488 := rfl
  obtain ⟨q, b, rfl⟩ : ∃ q b, p = q ++ [b] :=
    ⟨p.dropLast, p.getLast (by rintro rfl; simp at hodd), (List.dropLast_append_getLast _).symm⟩
  rw [List.length_append, List.length_singleton] at hsize hodd hle
  have hq : q.length % 2 = 0 := by omega
  have hcells : ∀ c : Uint8,
      (handOver (q ++ [b]) (c :: List.replicate (1486 - q.length) 0)
        (UpdPacket.zero _)).payload.cells = words q ++ word 0 c ::
          (List.replicate (165 - q.length / 2) 0 ++ staleWords (UpdPacket.zero _)) := by
    intro c
    unfold handOver
    rw [List.length_append, List.length_singleton,
      odd_payload_cells hq hsize (by rw [List.length_replicate]; omega)]
  have heq := h.unaffected (0 :: List.replicate (1486 - q.length) 0)
    (1 :: List.replicate (1486 - q.length) 0) (UpdPacket.zero _) (by simp; omega) (by simp; omega)
  have hw := congrArg words heq
  rw [updOctets, updOctets, words_octets, words_octets, hcells, hcells,
    List.append_cancel_left_eq, List.cons.injEq] at hw
  exact absurd (word_inj hw.1).2 (by decide)

/-- The payloads that are handed over octet by octet are exactly those of whole words. -/
theorem handedOver_iff_even (p : List Uint8) (hsize : IsPrimaryCompact (8 * p.length)) :
    HandedOver p ↔ p.length % 2 = 0 := by
  constructor
  · intro h
    by_contra hne
    exact not_handedOver_of_odd hsize (by omega) h
  · exact handedOver_of_even hsize

theorem handedOver_iff_even_144 : HandedOver (List.replicate 18 0x5A) :=
  (handedOver_iff_even (List.replicate 18 0x5A) (by decide)).2 (by decide)

/-- The seventh octet of a 56-bit frame is replaced by 0 on its way to the decoder. -/
theorem not_handedOver_56 : ¬ HandedOver [1, 2, 3, 4, 5, 6, 7] := by
  intro h
  have hf := h.faithful (List.replicate 1481 0) (UpdPacket.zero _) (by
    rw [List.length_replicate]
    rfl)
  have ht : (updOctets (handOver [1, 2, 3, 4, 5, 6, 7] (List.replicate 1481 0)
      (UpdPacket.zero _))).take 7 = [1, 2, 3, 4, 5, 6, 0] := by decide +kernel
  exact absurd (ht.symm.trans hf) (by decide)

end RtpServer.Verify.HandOver
