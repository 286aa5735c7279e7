import RtpServer.Verify.ServerRuns

/-!
# What is taken for the payload of a datagram

RTP packets as RFC 3550 defines them, against the fixed 12-octet header `rtp_process`
steps over. The two agree on packets without CSRC list, extension and padding.
-/
namespace RtpServer.Verify.Parsing

open RtpServer.Source RtpServer.Source.RtpProcess
open RtpServer.Verify.Response RtpServer.Verify.ServerRuns

def version (d : List Uint8) : Nat := (d.getD 0 0).toNat / 64

def hasPadding (d : List Uint8) : Bool := (d.getD 0 0).getLsbD 5

def hasExtension (d : List Uint8) : Bool := (d.getD 0 0).getLsbD 4

def csrcCount (d : List Uint8) : Nat := (d.getD 0 0).toNat % 16

def extensionOffset (d : List Uint8) : Nat := 12 + 4 * csrcCount d

/-- The extension's first word, with its length in words in the last two octets. -/
def extensionSize (d : List Uint8) : Nat :=
  if hasExtension d then
    4 + 4 * (256 * (d.getD (extensionOffset d + 2) 0).toNat +
      (d.getD (extensionOffset d + 3) 0).toNat)
  else 0

def payloadOffset (d : List Uint8) : Nat := extensionOffset d + extensionSize d

/-- The padding counts itself in its last octet. -/
def paddingSize (d : List Uint8) : Nat :=
  if hasPadding d then (d.getD (d.length - 1) 0).toNat else 0

structure WellFormed (d : List Uint8) : Prop where
  version_two : version d = 2
  csrc_list : extensionOffset d ≤ d.length
  extension : hasExtension d → extensionOffset d + 4 ≤ d.length ∧ payloadOffset d ≤ d.length
  padding : hasPadding d → 1 ≤ paddingSize d ∧ payloadOffset d + paddingSize d ≤ d.length

def payload (d : List Uint8) : List Uint8 :=
  (d.drop (payloadOffset d)).take (d.length - payloadOffset d - paddingSize d)

def Plain (d : List Uint8) : Prop :=
  csrcCount d = 0 ∧ hasExtension d = false ∧ hasPadding d = false

theorem WellFormed.payloadOffset_le {d : List Uint8} (h : WellFormed d) :
    payloadOffset d + paddingSize d ≤ d.length := by
  cases hp : hasPadding d with
  | true => exact (h.padding hp).2
  | false =>
    cases hx : hasExtension d with
    | true => simpa [paddingSize, hp] using (h.extension hx).2
    | false => simpa [paddingSize, payloadOffset, extensionSize, hp, hx] using h.csrc_list

theorem WellFormed.length_payload {d : List Uint8} (h : WellFormed d) :
    (payload d).length + payloadOffset d + paddingSize d = d.length := by
  have hle := h.payloadOffset_le
  unfold payload
  rw [List.length_take, List.length_drop]
  omega

theorem WellFormed.twelve_le {d : List Uint8} (h : WellFormed d) : 12 ≤ d.length := by
  have hc := h.csrc_list
  unfold extensionOffset at hc
  omega

/-- Everything behind the first 12 octets is the payload of plain packets only. -/
theorem WellFormed.drop_eq_payload_iff {d : List Uint8} (h : WellFormed d) :
    d.drop 12 = payload d ↔ Plain d := by
  constructor
  · intro he
    have hlen := h.length_payload
    have htwelve := h.twelve_le
    rw [← he, List.length_drop, payloadOffset, extensionOffset] at hlen
    refine ⟨by omega, ?_, ?_⟩
    · cases hx : hasExtension d with
      | false => rfl
      | true =>
        rw [extensionSize, if_pos hx] at hlen
        omega
    · cases hp : hasPadding d with
      | false => rfl
      | true =>
        have hone := (h.padding hp).1
        omega
  · intro hall
    obtain ⟨hc, hx, hp⟩ := hall
    simp [payload, payloadOffset, extensionOffset, extensionSize, paddingSize, hc, hx, hp]

/-- A transcoder that only keeps what it is handed. -/
def recorder : Transcoder (List (List Uint8)) where
  process st payload payloadLen payloadOut lenOut8 :=
    (st ++ [payload.take payloadLen], payloadOut, lenOut8)

section

variable (counters : RtpCounters) (st : List (List Uint8)) {buff : List Uint8} {len : Nat}
  {bufOut : List Uint8} (lenOut8 : Nat)

def ParsesRtp (buff : List Uint8) (len : Nat) (bufOut : List Uint8) : Prop :=
  let r := rtpProcess recorder counters st buff len bufOut lenOut8
  (WellFormed (buff.take len) → r.transcoder = st ++ [payload (buff.take len)]) ∧
    (¬ WellFormed (buff.take len) →
      r.ret = -1 ∧ r.counters = counters ∧ r.bufOut = bufOut ∧ r.lenOut8 = lenOut8)

theorem recorder_accepted (hlen : 12 ≤ len) (hb : len ≤ buff.length) (ho : 12 ≤ bufOut.length) :
    (rtpProcess recorder counters st buff len bufOut lenOut8).ret = 0 ∧
      (rtpProcess recorder counters st buff len bufOut lenOut8).transcoder =
        st ++ [(buff.take len).drop 12] := by
  have h12 := hlen.trans hb
  rw [rtpProcess_accepted recorder counters st lenOut8 hlen h12 ho]
  refine ⟨rfl, ?_⟩
  simp only [transcoderCall, recorder, stampRequest_drop counters h12]
  rw [List.drop_take]

/-- Datagrams shorter than a header are refused and change nothing; of all others what
follows the first 12 octets is handed on, which is the payload of a well-formed packet
exactly if it has no CSRC list, no extension and no padding. -/
theorem handed_payload (hb : len ≤ buff.length) (ho : 12 ≤ bufOut.length) :
    (len < 12 → rtpProcess recorder counters st buff len bufOut lenOut8 =
      ⟨-1, counters, st, buff, bufOut, lenOut8⟩) ∧
    (12 ≤ len →
      (rtpProcess recorder counters st buff len bufOut lenOut8).ret = 0 ∧
        (rtpProcess recorder counters st buff len bufOut lenOut8).transcoder =
          st ++ [(buff.take len).drop 12]) ∧
    (WellFormed (buff.take len) →
      ((rtpProcess recorder counters st buff len bufOut lenOut8).transcoder =
          st ++ [payload (buff.take len)] ↔ Plain (buff.take len))) := by
  have hd : (buff.take len).length = len := List.length_take_of_le hb
  refine ⟨fun hshort => ?_, fun hlen => ?_, fun hw => ?_⟩
  · exact rtpProcess_rejected recorder counters st buff bufOut lenOut8 hshort
  · exact recorder_accepted counters st lenOut8 hlen hb ho
  · have hlen : 12 ≤ len := hd ▸ hw.twelve_le
    rw [(recorder_accepted counters st lenOut8 hlen hb ho).2, List.append_cancel_left_eq,
      List.singleton_inj]
    exact hw.drop_eq_payload_iff

end

def plainPacket : List Uint8 := bareRequest ++ [0xAA, 0xBB]

theorem handed_payload_plainPacket :
    plainPacket.length = 14 ∧
      (rtpProcess recorder {} [] plainPacket 14 (List.replicate 12 0) 0).transcoder =
        [[0xAA, 0xBB]] :=
  ⟨rfl, ((handed_payload {} [] 0 (show 14 ≤ plainPacket.length by decide)
    (show 12 ≤ (List.replicate 12 (0 : Uint8)).length by decide)).2.1 (by decide)).2.trans
      (by decide)⟩

def csrcPacket : List Uint8 := [0x81, 0x60, 0, 7, 0, 0, 0, 9, 1, 2, 3, 4, 0, 0, 0, 5, 0xAA]

/-- The CSRC is handed on as if it were payload. -/
theorem csrc_handed_on : ¬ ParsesRtp {} [] 0 csrcPacket 17 (List.replicate 12 0) := by
  intro h
  have hw : WellFormed (csrcPacket.take 17) :=
    ⟨by decide, by decide, fun hx => absurd hx (by decide), fun hp => absurd hp (by decide)⟩
  exact absurd (h.1 hw) (by decide)

end RtpServer.Verify.Parsing
