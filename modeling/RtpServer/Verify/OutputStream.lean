import RtpServer.Verify.Clients

/-!
# The stream of packets sent

Sequence numbers and timestamps of the packets the server sends in a run. Both are read
off the counters, which move with the datagrams accepted and not with the packets sent,
the timestamp by 20 for every datagram although every packet is made from 160 samples.
-/
namespace RtpServer.Verify.OutputStream

open RtpServer.Library RtpServer.Library.LittleEndian
open RtpServer.Source RtpServer.Source.Usc RtpServer.Source.SampleRate
open RtpServer.Source.EvsIngress RtpServer.Source.RtpProcess
open RtpServer.Verify.Decoder RtpServer.Verify.Response RtpServer.Verify.StaleAudio
open RtpServer.Verify.ServerRuns RtpServer.Verify.Clients

def seqOf (p : List Uint8) : Uint16 := p.getD 2 0 ++ p.getD 3 0

def timestampOf (p : List Uint8) : Uint32 := p.getD 4 0 ++ p.getD 5 0 ++ p.getD 6 0 ++ p.getD 7 0

theorem octets_of_be16 (v : Uint16) : (high v ++ low v : Uint16) = v := word_low_high v

theorem octets_of_be32 (v : Uint32) :
    (v.extractLsb' 24 8 ++ v.extractLsb' 16 8 ++ v.extractLsb' 8 8 ++ v.extractLsb' 0 8 : Uint32) =
      v := by
  apply BitVec.eq_of_getLsbD_eq
  intro i hi
  change (v.extractLsb' 24 8 ++ v.extractLsb' 16 8 ++ v.extractLsb' 8 8 ++ v.extractLsb' 0 8 :
    BitVec (8 + 8 + 8 + 8)).getLsbD i = v.getLsbD i
  simp only [BitVec.getLsbD_append, BitVec.getLsbD_extractLsb']
  by_cases h8 : i < 8
  · simp [h8]
  · by_cases h16 : i - 8 < 8
    · simp [h8, h16, show 8 + (i - 8) = i by omega]
    · by_cases h24 : i - 8 - 8 < 8
      · simp [h8, h16, h24, show 16 + (i - 8 - 8) = i by omega]
      · simp [h8, h16, h24, show i - 8 - 8 - 8 < 8 by omega, show 24 + (i - 8 - 8 - 8) = i by omega]

theorem fields_of_packet (counters : RtpCounters) (datagram pcm : List Uint8) {n : Nat}
    (hn : 12 ≤ n) :
    seqOf (packet counters datagram (pcm, n)) = counters.sSequenceNumber.setWidth 16 ∧
      timestampOf (packet counters datagram (pcm, n)) = counters.sTimestamp := by
  have htake : (packet counters datagram (pcm, n)) =
      responseHeader counters (receive datagram) ++ pcm.take (n - 12) := by
    unfold packet
    rw [List.take_append, length_responseHeader,
      List.take_of_length_le (by rw [length_responseHeader]; exact hn)]
  rw [htake]
  exact ⟨octets_of_be16 _, octets_of_be32 _⟩

section

variable {σ : Type} (fxns : UscFxns σ) (allocated : Buffer Sint16 delayBufDownSize16) (codec : σ)

def server (datagrams : List (List Uint8)) : ServerState (IngressState σ) :=
  (evsServer fxns allocated).after (start codec) datagrams

def sent (before : List (List Uint8)) (datagram : List Uint8) : List Uint8 :=
  reply fxns allocated (server fxns allocated codec before) datagram

def pcmSize8 (before : List (List Uint8)) (datagram : List Uint8) : Nat :=
  (pcmFor fxns allocated (server fxns allocated codec before) datagram).2

theorem pcmSize8_cases (before : List (List Uint8)) (datagram : List Uint8) :
    pcmSize8 fxns allocated codec before datagram = 0 ∨
      pcmSize8 fxns allocated codec before datagram = 320 := by
  have hs := scratch_run fxns allocated codec (callsOf before)
  unfold pcmSize8 server pcmFor
  rw [server_after]
  by_cases hh : (callOf datagram).Compact ∧ (Heard fxns allocated codec (callsOf before) ∨
      Decoded fxns ((ingress fxns allocated).after (.initial codec) (callsOf before))
        (callOf datagram))
  · exact Or.inr (congrArg Prod.snd (answer_heard fxns allocated hs hh.1 hh.2 payloadRoomOut 0))
  · exact Or.inl ((answer_quiet fxns allocated hs (fun hc hd => hh ⟨hc, hd⟩) payloadRoomOut 0).2 rfl)

/-- A packet is sent for accepted datagrams alone, it is made from 320 octets of PCM, and its
sequence number and timestamp are the counters it was made with. -/
theorem sent_spec {before : List (List Uint8)} {datagram : List Uint8}
    (h : sent fxns allocated codec before datagram ≠ []) :
    accepted datagram ∧ pcmSize8 fxns allocated codec before datagram = 320 ∧
      seqOf (sent fxns allocated codec before datagram) =
        1 + BitVec.ofNat 16 (before.countP accepted) ∧
      timestampOf (sent fxns allocated codec before datagram) =
        10000 + BitVec.ofNat 32 (20 * before.countP accepted) := by
  cases ha : accepted datagram with
  | false => exact absurd (reply_rejected fxns allocated _ ha) h
  | true =>
    have hcounters : (server fxns allocated codec before).counters =
        shift {} (before.countP accepted) := by
      unfold server
      rw [server_after]
      rfl
    have hr := reply_accepted fxns allocated (server fxns allocated codec before) ha
    rcases pcmSize8_cases fxns allocated codec before datagram with h0 | h320
    · rw [pcmSize8] at h0
      rw [sent, hr, packet, h0, List.take_zero] at h
      exact absurd rfl h
    · obtain ⟨hseq, htime⟩ := fields_of_packet (server fxns allocated codec before).counters datagram
        (pcmFor fxns allocated (server fxns allocated codec before) datagram).1
        (show 12 ≤ pcmSize8 fxns allocated codec before datagram by rw [h320]; decide)
      refine ⟨rfl, h320, ?_, ?_⟩
      · unfold sent
        rw [hr]
        apply hseq.trans
        rw [hcounters]
        simp only [shift]
        rw [BitVec.setWidth_add _ _ (by decide), BitVec.setWidth_ofNat_of_le (by decide)]
        rfl
      · unfold sent
        rw [hr]
        apply htime.trans
        rw [hcounters]
        rfl

/-- Of two packets sent the later one is numbered higher by one and by the datagrams accepted
between theirs. -/
theorem sequence_gap (before between : List (List Uint8)) {d d' : List Uint8}
    (h : sent fxns allocated codec before d ≠ [])
    (h' : sent fxns allocated codec (before ++ d :: between) d' ≠ []) :
    seqOf (sent fxns allocated codec (before ++ d :: between) d') =
      seqOf (sent fxns allocated codec before d) + 1 +
        BitVec.ofNat 16 (between.countP accepted) := by
  obtain ⟨ha, -, hseq, -⟩ := sent_spec fxns allocated codec h
  obtain ⟨-, -, hseq', -⟩ := sent_spec fxns allocated codec h'
  rw [hseq, hseq', List.countP_append, List.countP_cons_of_pos ha]
  simp only [BitVec.ofNat_add]
  ac_rfl

/-- Every packet sent is numbered one higher than the packet sent before it. -/
def ConsecutiveNumbers : Prop :=
  ∀ before d between d', sent fxns allocated codec before d ≠ [] →
    (∀ r ∈ (evsServer fxns allocated).outputs (server fxns allocated codec (before ++ [d])) between,
      r = []) →
    sent fxns allocated codec (before ++ d :: between) d' ≠ [] →
    seqOf (sent fxns allocated codec (before ++ d :: between) d') =
      seqOf (sent fxns allocated codec before d) + 1

/-- The timestamps of packets made from consecutive accepted datagrams count the samples. -/
def TimestampsCountSamples : Prop :=
  ∀ before d between d', sent fxns allocated codec before d ≠ [] →
    (∀ datagram ∈ between, accepted datagram = false) →
    sent fxns allocated codec (before ++ d :: between) d' ≠ [] →
    timestampOf (sent fxns allocated codec (before ++ d :: between) d') =
      timestampOf (sent fxns allocated codec before d) +
        BitVec.ofNat 32 (pcmSize8 fxns allocated codec before d / 2)

/-- The timestamps of two packets made from consecutive accepted datagrams never differ by the
number of samples the earlier one was made from: the counter moves by 20, the samples are 160. -/
theorem timestamp_step_never (before between : List (List Uint8)) {d d' : List Uint8}
    (h : sent fxns allocated codec before d ≠ [])
    (hbetween : ∀ datagram ∈ between, accepted datagram = false)
    (h' : sent fxns allocated codec (before ++ d :: between) d' ≠ []) :
    timestampOf (sent fxns allocated codec (before ++ d :: between) d') ≠
      timestampOf (sent fxns allocated codec before d) +
        BitVec.ofNat 32 (pcmSize8 fxns allocated codec before d / 2) := by
  obtain ⟨ha, hpcm, -, htime⟩ := sent_spec fxns allocated codec h
  obtain ⟨-, -, -, htime'⟩ := sent_spec fxns allocated codec h'
  have hnone : between.countP accepted = 0 :=
    List.countP_eq_zero.2 fun datagram hd => by simp [hbetween datagram hd]
  rw [htime, htime', hpcm, List.countP_append, List.countP_cons_of_pos ha, hnone, Nat.mul_add,
    BitVec.ofNat_add, ← BitVec.add_assoc]
  intro he
  exact absurd (BitVec.add_right_inj _ |>.1 he) (by decide)

end

def alwaysDecodes : UscFxns Nat := countingCodec fun _ => uscNoError

theorem sent_first : sent alwaysDecodes (Buffer.replicate _ 0) 0 [] frameDatagram ≠ [] := by
  decide +kernel

theorem sequence_gap_bareRequest :
    seqOf (sent alwaysDecodes (Buffer.replicate _ 0) 0 [frameDatagram, bareRequest] frameDatagram) =
      seqOf (sent alwaysDecodes (Buffer.replicate _ 0) 0 [] frameDatagram) + 1 + 1 :=
  sequence_gap alwaysDecodes (Buffer.replicate _ 0) 0 [] [bareRequest] sent_first
    (by decide +kernel)

theorem not_consecutiveNumbers :
    ¬ ConsecutiveNumbers alwaysDecodes (Buffer.replicate _ 0) 0 := by
  intro h
  have hseq := h [] frameDatagram [bareRequest] frameDatagram sent_first (by decide +kernel)
    (by decide +kernel)
  exact absurd hseq (by decide +kernel)

theorem timestamp_step_never_two_frames :
    timestampOf (sent alwaysDecodes (Buffer.replicate _ 0) 0 [frameDatagram] frameDatagram) ≠
      timestampOf (sent alwaysDecodes (Buffer.replicate _ 0) 0 [] frameDatagram) +
        BitVec.ofNat 32 (pcmSize8 alwaysDecodes (Buffer.replicate _ 0) 0 [] frameDatagram / 2) :=
  timestamp_step_never alwaysDecodes (Buffer.replicate _ 0) 0 [] [] sent_first (by decide)
    (by decide +kernel)

/-- Two frames in a row have the timestamps 10000 and 10020. -/
theorem not_timestampsCountSamples :
    ¬ TimestampsCountSamples alwaysDecodes (Buffer.replicate _ 0) 0 := by
  intro h
  have htime := h [] frameDatagram [] frameDatagram sent_first (by decide) (by decide +kernel)
  exact absurd htime (by decide +kernel)

end RtpServer.Verify.OutputStream
