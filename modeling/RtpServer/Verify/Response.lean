import RtpServer.Source.RtpProcess

/-!
# The response to one datagram

What `rtp_process` leaves behind for an accepted datagram, octet by octet, and the
length it fails to report: `len_out_8 += size8` moves a local pointer, so the caller
still sees the payload length and the last 12 payload octets are never sent.
-/
namespace RtpServer.Verify.Response

open RtpServer.Source RtpServer.Library RtpServer.Library.LittleEndian
open RtpServer.Source.Mgw RtpServer.Source.RtpHeader RtpServer.Source.RtpProcess

def be16 (v : Uint16) : List Uint8 := [high v, low v]

def be32 (v : Uint32) : List Uint8 :=
  [v.extractLsb' 24 8, v.extractLsb' 16 8, v.extractLsb' 8 8, v.extractLsb' 0 8]

def ssrcOf (packet : List Uint8) : Uint32 :=
  packet.getD 8 0 ++ packet.getD 9 0 ++ packet.getD 10 0 ++ packet.getD 11 0

/-- The first 12 octets of the response: the request's version, padding, extension, CSRC
count and marker bits, payload type 8, the counters, and the SSRC one higher. -/
def responseHeader (counters : RtpCounters) (request : List Uint8) : List Uint8 :=
  [request.getD 0 0, (request.getD 1 0 &&& 0x80) ||| 8] ++
    be16 (counters.sSequenceNumber.setWidth 16) ++ be32 counters.sTimestamp ++
    be32 (ssrcOf request + 1)

@[simp] theorem length_responseHeader (counters : RtpCounters) (request : List Uint8) :
    (responseHeader counters request).length = 12 := rfl

theorem exists_octets {packet : List Uint8} (h : 12 ≤ packet.length) :
    ∃ o0 o1 o2 o3 o4 o5 o6 o7 o8 o9 o10 o11 rest,
      packet = o0 :: o1 :: o2 :: o3 :: o4 :: o5 :: o6 :: o7 :: o8 :: o9 :: o10 :: o11 :: rest := by
  match packet, h with
  | o0 :: o1 :: o2 :: o3 :: o4 :: o5 :: o6 :: o7 :: o8 :: o9 :: o10 :: o11 :: rest, _ =>
    exact ⟨o0, o1, o2, o3, o4, o5, o6, o7, o8, o9, o10, o11, rest, rfl⟩

/-- One octet of a masked, shifted and narrowed 32-bit value. -/
theorem octet_of_masked (v : Uint32) (mask : Uint32) (start sh : Nat)
    (hm : ∀ i < 8, mask.getLsbD (sh + (start + i)) = true) (hs : start ≤ 8) :
    (((v &&& mask) >>> sh).setWidth 16).extractLsb' start 8 = v.extractLsb' (sh + start) 8 := by
  apply BitVec.eq_of_getLsbD_eq
  intro i hi
  simp [hi, hm i hi, Nat.add_assoc, show start + i < 16 by omega]

theorem setHiLo_octets (v : Uint32) :
    (high (((v &&& 0xFFFF0000) >>> 16).setWidth 16) = v.extractLsb' 24 8 ∧
      low (((v &&& 0xFFFF0000) >>> 16).setWidth 16) = v.extractLsb' 16 8) ∧
    (high ((v &&& 0x0000FFFF).setWidth 16) = v.extractLsb' 8 8 ∧
      low ((v &&& 0x0000FFFF).setWidth 16) = v.extractLsb' 0 8) := by
  refine ⟨⟨?_, ?_⟩, ?_, ?_⟩
  · exact octet_of_masked v _ 8 16 (by decide) (by decide)
  · exact octet_of_masked v _ 0 16 (by decide) (by decide)
  · have h := octet_of_masked v 0x0000FFFF 8 0 (by decide) (by decide)
    rwa [BitVec.ushiftRight_zero] at h
  · have h := octet_of_masked v 0x0000FFFF 0 0 (by decide) (by decide)
    rwa [BitVec.ushiftRight_zero] at h

theorem field32_of_octets (a b c d : Uint8) :
    ((beToNat16 (word a b)).setWidth 32 <<< 16) ||| (beToNat16 (word c d)).setWidth 32 =
      (a ++ b ++ c ++ d : Uint32) := by
  rw [beToNat16_word, beToNat16_word]
  apply BitVec.eq_of_getLsbD_eq
  intro i hi
  change (((a ++ b : BitVec (8 + 8)).setWidth 32 <<< 16) |||
    (c ++ d : BitVec (8 + 8)).setWidth 32).getLsbD i =
      (a ++ b ++ c ++ d : BitVec (8 + 8 + 8 + 8)).getLsbD i
  simp only [BitVec.getLsbD_or, BitVec.getLsbD_shiftLeft, BitVec.getLsbD_setWidth,
    BitVec.getLsbD_append, hi, decide_true, Bool.true_and]
  by_cases h16 : i < 16
  · simp [h16]
    by_cases h8 : i < 8
    · simp [h8]
    · simp [h8, show i - 8 < 8 by omega]
  · have hc : c.getLsbD (i - 8) = false := BitVec.getLsbD_of_ge _ _ (by omega)
    simp [h16, hc, show ¬ i < 8 by omega, show ¬ i - 8 < 8 by omega,
      show i - 16 < 32 by omega, show i - 8 - 8 = i - 16 by omega]

section Octets

variable (o0 o1 o2 o3 o4 o5 o6 o7 o8 o9 o10 o11 : Uint8) (rest : List Uint8)

theorem setSeqNumber_octets (v : Uint32) :
    lRtpSetField (o0 :: o1 :: o2 :: o3 :: rest) .rtpUncompressed .seqNumber v =
      o0 :: o1 :: (be16 (v.setWidth 16) ++ rest) := by
  simp [lRtpSetField, writeWord, be16]

theorem setTimestamp_octets (v : Uint32) :
    lRtpSetField (o0 :: o1 :: o2 :: o3 :: o4 :: o5 :: o6 :: o7 :: rest) .rtpUncompressed
      .timestamp v = o0 :: o1 :: o2 :: o3 :: (be32 v ++ rest) := by
  obtain ⟨⟨h1, h2⟩, h3, h4⟩ := setHiLo_octets v
  simp only [lRtpSetField, setHiLo, writeWord, be32, low_natToBe16, high_natToBe16, h1, h2, h3, h4]
  rfl

theorem setSsrc_octets (v : Uint32) :
    lRtpSetField (o0 :: o1 :: o2 :: o3 :: o4 :: o5 :: o6 :: o7 :: o8 :: o9 :: o10 :: o11 :: rest)
      .rtpUncompressed .ssrc v =
        o0 :: o1 :: o2 :: o3 :: o4 :: o5 :: o6 :: o7 :: (be32 v ++ rest) := by
  obtain ⟨⟨h1, h2⟩, h3, h4⟩ := setHiLo_octets v
  simp only [lRtpSetField, setHiLo, writeWord, be32, low_natToBe16, high_natToBe16, h1, h2, h3, h4]
  rfl

theorem getSsrc_octets :
    lRtpGetField (o0 :: o1 :: o2 :: o3 :: o4 :: o5 :: o6 :: o7 :: o8 :: o9 :: o10 :: o11 :: rest)
      .rtpUncompressed .ssrc = (o8 ++ o9 ++ o10 ++ o11 : Uint32) :=
  field32_of_octets o8 o9 o10 o11

theorem setPayloadType_octets :
    lRtpSetField (o0 :: o1 :: rest) .rtpUncompressed .payloadType 8 =
      o0 :: ((o1 &&& 0x80) ||| 8) :: rest := by
  have hm : ~~~ natToBe16 0x007F = 0x80FF := by decide
  have hv : natToBe16 (((8 &&& 0x007F : Uint32) <<< 0).setWidth 16) = 0x0800 := by decide
  have hlow : ((word o0 o1 &&& 0x80FF) ||| 0x0800 : Uint16) = word o0 ((o1 &&& 0x80) ||| 8) := by
    rw [← word_low_high ((word o0 o1 &&& 0x80FF) ||| 0x0800), low_or, high_or, low_and, high_and,
      low_word, high_word, show low 0x80FF = BitVec.allOnes 8 by decide,
      show high 0x80FF = 0x80 by decide, show low 0x0800 = 0#8 by decide,
      show high 0x0800 = 8 by decide, BitVec.and_allOnes, BitVec.or_zero]
  rw [lRtpSetField, setBitfield, hm, hv, readWord, writeWord]
  change ((o0 :: o1 :: rest).set 0 (low ((word o0 o1 &&& 0x80FF) ||| 0x0800))).set 1
    (high ((word o0 o1 &&& 0x80FF) ||| 0x0800)) = _
  rw [hlow, low_word, high_word]
  rfl

end Octets

theorem responseHeader_eq (counters : RtpCounters) {buff : List Uint8} (hb : 12 ≤ buff.length)
    (payloadOut : List Uint8) :
    lRtpSetField (lRtpIncrementField ((stampRequest counters buff).take 12 ++ payloadOut)
      .rtpUncompressed .ssrc 1) .rtpUncompressed .payloadType 8 =
        responseHeader counters buff ++ payloadOut := by
  obtain ⟨o0, o1, o2, o3, o4, o5, o6, o7, o8, o9, o10, o11, rest, rfl⟩ := exists_octets hb
  rw [stampRequest, setSeqNumber_octets, be16, List.cons_append, List.cons_append,
    List.nil_append, setTimestamp_octets, be32]
  simp only [List.cons_append, List.nil_append, List.take_succ_cons, List.take_zero,
    lRtpIncrementField, getSsrc_octets, setSsrc_octets, setPayloadType_octets]
  rfl

def transcoderCall {τ : Type} (transcoder : Transcoder τ) (counters : RtpCounters) (st : τ)
    (buff : List Uint8) (len : Nat) (bufOut : List Uint8) (lenOut8 : Nat) :
    τ × List Uint8 × Nat :=
  transcoder.process st ((stampRequest counters buff).drop 12) (len - 12) (bufOut.drop 12) lenOut8

/-- Everything an accepted datagram does. -/
theorem rtpProcess_accepted {τ : Type} (transcoder : Transcoder τ) (counters : RtpCounters)
    (st : τ) {buff : List Uint8} {len : Nat} {bufOut : List Uint8} (lenOut8 : Nat)
    (hlen : 12 ≤ len) (hb : 12 ≤ buff.length) (ho : 12 ≤ bufOut.length) :
    rtpProcess transcoder counters st buff len bufOut lenOut8 =
      let call := transcoderCall transcoder counters st buff len bufOut lenOut8
      ⟨0, counters.advance, call.1, stampRequest counters buff,
        responseHeader counters buff ++ call.2.1, call.2.2⟩ := by
  have hs : (stampRequest counters buff).length = buff.length := by simp [stampRequest]
  have ht : (bufOut.take 12).length = ((stampRequest counters buff).take 12).length := by
    rw [List.length_take, List.length_take, hs]
    omega
  have h12 : ¬ len < lRtpGetHeaderSize8 .rtpUncompressed := Nat.not_lt.2 hlen
  simp only [rtpProcess, if_neg h12]
  rw [lRtpGetHeaderSize8, Buffer.blit_zero_append _ ht, responseHeader_eq counters hb]
  rfl

theorem rtpProcess_rejected {τ : Type} (transcoder : Transcoder τ) (counters : RtpCounters)
    (st : τ) (buff : List Uint8) {len : Nat} (bufOut : List Uint8) (lenOut8 : Nat)
    (hlen : len < 12) :
    rtpProcess transcoder counters st buff len bufOut lenOut8 =
      ⟨-1, counters, st, buff, bufOut, lenOut8⟩ := by
  have h12 : len < lRtpGetHeaderSize8 .rtpUncompressed := hlen
  simp only [rtpProcess, if_pos h12]

def StoresPcm {τ : Type} (call : τ × List Uint8 × Nat) (pcm : List Uint8) : Prop :=
  pcm ≠ [] ∧ call.2.1.take pcm.length = pcm ∧ call.2.2 = pcm.length

/-- The response the caller should be able to send. -/
structure CompleteResponse {τ : Type} (counters : RtpCounters) (request pcm : List Uint8)
    (r : RtpResult τ) : Prop where
  length : r.lenOut8 = 12 + pcm.length
  payload : (r.bufOut.drop 12).take pcm.length = pcm
  header : r.bufOut.take 12 = responseHeader counters request

section

variable {τ : Type} (transcoder : Transcoder τ) (counters : RtpCounters) (st : τ)
  {buff : List Uint8} {len : Nat} {bufOut : List Uint8} (lenOut8 : Nat) {pcm : List Uint8}

/-- The buffer holds the whole response: header and PCM octets stand where they should. -/
theorem response_in_buffer (hlen : 12 ≤ len) (hb : 12 ≤ buff.length) (ho : 12 ≤ bufOut.length)
    (hpcm : StoresPcm (transcoderCall transcoder counters st buff len bufOut lenOut8) pcm) :
    let r := rtpProcess transcoder counters st buff len bufOut lenOut8
    r.bufOut.take 12 = responseHeader counters buff ∧ (r.bufOut.drop 12).take pcm.length = pcm := by
  have hh := length_responseHeader counters buff
  rw [rtpProcess_accepted transcoder counters st lenOut8 hlen hb ho]
  exact ⟨List.take_left' hh, by rw [List.drop_left' hh]; exact hpcm.2.1⟩

/-- The reported length is the payload length for every accepted datagram, so no response is
ever complete. -/
theorem response_never_complete (hlen : 12 ≤ len) (hb : 12 ≤ buff.length)
    (ho : 12 ≤ bufOut.length)
    (hpcm : StoresPcm (transcoderCall transcoder counters st buff len bufOut lenOut8) pcm) :
    ¬ CompleteResponse counters buff pcm
      (rtpProcess transcoder counters st buff len bufOut lenOut8) := by
  intro h
  have hl := h.length
  rw [rtpProcess_accepted transcoder counters st lenOut8 hlen hb ho] at hl
  have hn := hpcm.2.2
  dsimp only at hl
  omega

end

def oneOctet : Transcoder Unit where
  process _ _ _ payloadOut _ := ((), 0x2A :: payloadOut.drop 1, 1)

def bareRequest : List Uint8 := [0x80, 0x60, 0, 7, 0, 0, 0, 9, 1, 2, 3, 4]

theorem response_never_complete_oneOctet :
    ¬ CompleteResponse {} bareRequest [0x2A]
      (rtpProcess oneOctet {} () bareRequest 12 (List.replicate 13 0) 0) :=
  response_never_complete oneOctet {} () 0 (by decide) (by decide) (by decide)
    ⟨by decide, by decide, by decide⟩

/-- Not every accepted datagram gets a complete response: here one octet is reported where 13 stand
in the buffer. -/
theorem not_response_complete :
    ¬ ∀ (τ : Type) (transcoder : Transcoder τ) (counters : RtpCounters) (st : τ)
      (buff : List Uint8) (len : Nat) (bufOut : List Uint8) (lenOut8 : Nat) (pcm : List Uint8),
      12 ≤ len → 12 ≤ buff.length → 12 ≤ bufOut.length →
        StoresPcm (transcoderCall transcoder counters st buff len bufOut lenOut8) pcm →
          CompleteResponse counters buff pcm
            (rtpProcess transcoder counters st buff len bufOut lenOut8) := by
  intro hall
  have hcomplete := hall Unit oneOctet {} () bareRequest 12 (List.replicate 13 0) 0 [0x2A]
    (by decide) (by decide) (by decide) ⟨by decide, by decide, by decide⟩
  exact absurd hcomplete.length (by decide)

example : (rtpProcess oneOctet {} () bareRequest 12 (List.replicate 13 0) 0).bufOut =
    [0x80, 8, 0, 1, 0, 0, 0x27, 0x10, 1, 2, 3, 5, 0x2A] := by decide

end RtpServer.Verify.Response
