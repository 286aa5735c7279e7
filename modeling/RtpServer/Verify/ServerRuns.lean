import RtpServer.Verify.Response
import RtpServer.Verify.StaleAudio

/-!
# Runs of the server loop

Every accepted datagram advances both counters and is one call of the ingress processing
on the octets behind its first 12; every other datagram changes nothing and is answered
with an empty datagram.
-/
namespace RtpServer.Verify.ServerRuns

open RtpServer.Library RtpServer.Library.LittleEndian
open RtpServer.Source RtpServer.Source.TypeDef RtpServer.Source.Usc
open RtpServer.Source.SampleRate RtpServer.Source.EvsIngress RtpServer.Source.RtpProcess
open RtpServer.Verify.Response RtpServer.Verify.StaleAudio

def accepted (datagram : List Uint8) : Bool := 12 ≤ datagram.length

/-- The call of `evs_ingress_process` made for an accepted datagram. -/
def callOf (datagram : List Uint8) : Call :=
  ⟨(receive datagram).drop 12, min datagram.length requestBuffSize - 12⟩

def payloadRoomOut : List Uint8 := List.replicate 1488 0

def shift (counters : RtpCounters) (k : Nat) : RtpCounters :=
  ⟨counters.sSequenceNumber + BitVec.ofNat 32 k, counters.sTimestamp + BitVec.ofNat 32 (20 * k)⟩

@[simp] theorem shift_zero (counters : RtpCounters) : shift counters 0 = counters := by
  simp [shift]

theorem shift_shift (counters : RtpCounters) (j k : Nat) :
    shift (shift counters j) k = shift counters (j + k) := by
  simp only [shift, Nat.mul_add, BitVec.ofNat_add, BitVec.add_assoc]

theorem advance_eq_shift (counters : RtpCounters) : counters.advance = shift counters 1 := rfl

theorem length_receive (datagram : List Uint8) : (receive datagram).length = requestBuffSize := by
  unfold receive
  rw [Buffer.length_blit, List.length_replicate]

theorem stampRequest_drop (counters : RtpCounters) {buff : List Uint8} (hb : 12 ≤ buff.length) :
    (stampRequest counters buff).drop 12 = buff.drop 12 := by
  obtain ⟨o0, o1, o2, o3, o4, o5, o6, o7, o8, o9, o10, o11, rest, rfl⟩ := exists_octets hb
  rw [stampRequest, setSeqNumber_octets, be16, List.cons_append, List.cons_append,
    List.nil_append, setTimestamp_octets]
  rfl

section

variable {σ : Type} (fxns : UscFxns σ) (allocated : Buffer Sint16 delayBufDownSize16)

/-- The state reached does not depend on what the output memory and the length variable held. -/
theorem evsIngressProcess_eq (st : IngressState σ) (c : Call) (bufOut : List Uint8)
    (lenOut8 : Nat) :
    evsIngressProcess fxns allocated st c.buff c.len bufOut lenOut8 =
      let r := (ingress fxns allocated).step st c
      ⟨r.1, (r.2 bufOut lenOut8).1, (r.2 bufOut lenOut8).2⟩ := by
  by_cases hc : c.Compact
  · have h : evsHdrFmt (words c.buff) (toUint16 c.len) = .compact := hc
    simp only [ingress, evsIngressProcess, if_pos h]
  · have h : ¬ evsHdrFmt (words c.buff) (toUint16 c.len) = .compact := hc
    simp only [ingress, evsIngressProcess, if_neg h]

abbrev evsServer : Machine (ServerState (IngressState σ)) (List Uint8) (List Uint8) :=
  rtpServer (evsTranscoder fxns allocated)

/-- Everything an accepted datagram does to the server. -/
theorem serve_accepted (st : ServerState (IngressState σ)) {datagram : List Uint8}
    (h : accepted datagram) :
    serve (evsTranscoder fxns allocated) st datagram =
      let call := (ingress fxns allocated).step st.transcoder (callOf datagram)
      ⟨0, st.counters.advance, call.1, stampRequest st.counters (receive datagram),
        responseHeader st.counters (receive datagram) ++ (call.2 payloadRoomOut 0).1,
        (call.2 payloadRoomOut 0).2⟩ := by
  have hlen : 12 ≤ datagram.length := of_decide_eq_true h
  have hr : 12 ≤ (receive datagram).length := by
    rw [length_receive]
    decide
  have ho : 12 ≤ (List.replicate requestBuffSize (0 : Uint8)).length := by
    rw [List.length_replicate]
    decide
  have hroom : (List.replicate requestBuffSize (0 : Uint8)).drop 12 = payloadRoomOut := by
    rw [List.drop_replicate, requestBuffSize, payloadRoomOut]
  have hmin : 12 ≤ min datagram.length requestBuffSize := Nat.le_min.2 ⟨hlen, by decide⟩
  unfold serve
  rw [rtpProcess_accepted (evsTranscoder fxns allocated) st.counters st.transcoder 0 hmin hr ho]
  have hcall := evsIngressProcess_eq fxns allocated st.transcoder (callOf datagram) payloadRoomOut 0
  rw [callOf] at hcall
  dsimp only at hcall
  simp only [transcoderCall, evsTranscoder, stampRequest_drop st.counters hr, hroom, hcall, callOf]

theorem serve_rejected (st : ServerState (IngressState σ)) {datagram : List Uint8}
    (h : accepted datagram = false) :
    serve (evsTranscoder fxns allocated) st datagram =
      ⟨-1, st.counters, st.transcoder, receive datagram, List.replicate requestBuffSize 0, 0⟩ := by
  have hlen : ¬ 12 ≤ datagram.length := of_decide_eq_false h
  exact rtpProcess_rejected _ _ _ _ _ _ (Nat.lt_of_le_of_lt (Nat.min_le_left _ _) (by omega))

def callsOf (datagrams : List (List Uint8)) : List Call :=
  (datagrams.filter accepted).map callOf

/-- The server after a run. -/
theorem server_after (st : ServerState (IngressState σ)) (datagrams : List (List Uint8)) :
    (evsServer fxns allocated).after st datagrams =
      ⟨shift st.counters (datagrams.countP accepted),
        (ingress fxns allocated).after st.transcoder (callsOf datagrams)⟩ := by
  induction datagrams generalizing st with
  | nil => simp [callsOf]
  | cons d ds ih =>
    rw [Machine.after_cons, ih]
    cases ha : accepted d with
    | true =>
      simp only [rtpServer, serve_accepted fxns allocated st ha, advance_eq_shift, shift_shift,
        callsOf, List.filter_cons, ha, if_true, List.map_cons, Machine.after_cons]
      rw [List.countP_cons_of_pos ha, Nat.add_comm]
    | false =>
      have hn : ¬ accepted d = true := by simp [ha]
      simp only [rtpServer, serve_rejected fxns allocated st ha, callsOf, List.filter_cons, ha,
        Bool.false_eq_true, if_false]
      rw [List.countP_cons_of_neg hn]

end

end RtpServer.Verify.ServerRuns
