import RtpServer.Verify.ServerRuns

/-!
# Several clients

The server keeps one session for everybody. Another client's datagrams move the counters
of the packets a client gets, and once one of them is decoded they move the decoder and
the delay line too; nothing else passes from one client to another.
-/
namespace RtpServer.Verify.Clients

open RtpServer.Library RtpServer.Library.LittleEndian
open RtpServer.Source RtpServer.Source.TypeDef RtpServer.Source.Usc
open RtpServer.Source.SampleRate RtpServer.Source.EvsIngress RtpServer.Source.RtpProcess
open RtpServer.Verify.Decoder RtpServer.Verify.Response RtpServer.Verify.StaleAudio
open RtpServer.Verify.ServerRuns

section

variable {σ : Type} (fxns : UscFxns σ) (allocated : Buffer Sint16 delayBufDownSize16)

def settle (st : IngressState σ) : IngressState σ :=
  ensureMaster allocated (ensureEvsDec fxns st)

theorem ensureMaster_idem (st : IngressState σ) :
    ensureMaster allocated (ensureMaster allocated st) = ensureMaster allocated st := by
  cases h : st.master <;> simp [ensureMaster, h]

theorem ensureEvsDec_idem (st : IngressState σ) :
    ensureEvsDec fxns (ensureEvsDec fxns st) = ensureEvsDec fxns st := by
  obtain ⟨evsDec, hd⟩ := ensureEvsDec_evsDec fxns st
  rw [ensureEvsDec, hd]

theorem ensureEvsDec_ensureMaster (st : IngressState σ) :
    ensureEvsDec fxns (ensureMaster allocated st) =
      ensureMaster allocated (ensureEvsDec fxns st) := by
  cases hm : st.master <;> cases hd : st.evsDec <;> simp [ensureMaster, ensureEvsDec, hm, hd]

theorem decodePacket_ensureMaster (st : IngressState σ) :
    decodePacket fxns (ensureMaster allocated st) =
      ensureMaster allocated (decodePacket fxns st) := by
  cases hm : st.master <;> cases hd : st.evsDec <;> simp [ensureMaster, decodePacket, hm, hd]

theorem settle_idem (st : IngressState σ) :
    settle fxns allocated (settle fxns allocated st) = settle fxns allocated st := by
  unfold settle
  rw [ensureEvsDec_ensureMaster, ensureEvsDec_idem, ensureMaster_idem]

theorem ready_settle (st : IngressState σ) (c : Call) :
    ready fxns (settle fxns allocated st) c = ensureMaster allocated (ready fxns st c) := by
  cases hm : st.master <;> cases hd : st.evsDec <;>
    simp [ready, settle, ensureMaster, ensureEvsDec, hm, hd]

/-- A call does the same whether or not decoder and converter were created before it. -/
theorem step_settle (st : IngressState σ) (c : Call) :
    (ingress fxns allocated).step (settle fxns allocated st) c =
      (ingress fxns allocated).step st c := by
  by_cases hc : c.Compact
  · obtain ⟨hs, ho⟩ := step_compact fxns allocated st hc
    obtain ⟨hs', ho'⟩ := step_compact fxns allocated (settle fxns allocated st) hc
    have hstate : ((ingress fxns allocated).step (settle fxns allocated st) c).1 =
        ((ingress fxns allocated).step st c).1 := by
      rw [hs, hs', ready_settle, decodePacket_ensureMaster, ensureMaster_idem]
    refine Prod.ext hstate ?_
    funext bufOut lenOut8
    rw [ho, ho', hstate]
  · obtain ⟨hs, ho⟩ := step_other fxns allocated st hc
    obtain ⟨hs', ho'⟩ := step_other fxns allocated (settle fxns allocated st) hc
    apply Prod.ext
    · rw [hs, hs']
      exact settle_idem fxns allocated st
    · funext bufOut lenOut8
      rw [ho, ho']

theorem settle_step_other (st : IngressState σ) {c : Call} (hc : ¬ c.Compact) :
    settle fxns allocated ((ingress fxns allocated).step st c).1 = settle fxns allocated st := by
  rw [(step_other fxns allocated st hc).1]
  exact settle_idem fxns allocated st

variable {κ : Type} [DecidableEq κ]

def own (client : κ) (arrivals : List (κ × List Uint8)) : List (List Uint8) :=
  (arrivals.filter fun i => i.1 = client).map Prod.snd

def others (client : κ) (arrivals : List (κ × List Uint8)) : List (List Uint8) :=
  (arrivals.filter fun i => i.1 ≠ client).map Prod.snd

def carriesFrame (datagram : List Uint8) : Bool := accepted datagram && (callOf datagram).Compact

def start (codec : σ) : ServerState (IngressState σ) := .initial (.initial codec)

def reply (st : ServerState (IngressState σ)) (datagram : List Uint8) : List Uint8 :=
  ((evsServer fxns allocated).step st datagram).2

/-- Each reply is the one the client would have got alone. -/
def NoInterference (codec : σ) (client : κ) (arrivals : List (κ × List Uint8))
    (datagram : List Uint8) : Prop :=
  reply fxns allocated ((evsServer fxns allocated).after (start codec) (arrivals.map Prod.snd))
      datagram =
    reply fxns allocated ((evsServer fxns allocated).after (start codec) (own client arrivals))
      datagram

def packet (counters : RtpCounters) (datagram : List Uint8) (answer : List Uint8 × Nat) :
    List Uint8 :=
  (responseHeader counters (receive datagram) ++ answer.1).take answer.2

def pcmFor (st : ServerState (IngressState σ)) (datagram : List Uint8) : List Uint8 × Nat :=
  ((ingress fxns allocated).step st.transcoder (callOf datagram)).2 payloadRoomOut 0

theorem reply_accepted (st : ServerState (IngressState σ)) {datagram : List Uint8}
    (h : accepted datagram) :
    reply fxns allocated st datagram =
      packet st.counters datagram (pcmFor fxns allocated st datagram) := by
  simp only [reply, rtpServer, serve_accepted fxns allocated st h]
  rfl

theorem reply_rejected (st : ServerState (IngressState σ)) {datagram : List Uint8}
    (h : accepted datagram = false) : reply fxns allocated st datagram = [] := by
  simp only [reply, rtpServer, serve_rejected fxns allocated st h, List.take_zero]

theorem countP_arrivals (client : κ) (arrivals : List (κ × List Uint8)) :
    (arrivals.map Prod.snd).countP accepted =
      (own client arrivals).countP accepted + (others client arrivals).countP accepted := by
  have hsplit := List.countP_eq_countP_filter_add arrivals (fun i => accepted i.2)
    (fun i => i.1 = client)
  simpa [own, others, List.countP_map, Function.comp_def] using hsplit

/-- Others that send no frame leave the transcoder as it would have been without them, up to
its initialisation. -/
theorem settle_arrivals (codec : σ) (client : κ) (arrivals : List (κ × List Uint8))
    (hquiet : ∀ datagram ∈ others client arrivals, carriesFrame datagram = false) :
    settle fxns allocated
        ((evsServer fxns allocated).after (start codec) (arrivals.map Prod.snd)).transcoder =
      settle fxns allocated
        ((evsServer fxns allocated).after (start codec) (own client arrivals)).transcoder := by
  have hun := (evsServer fxns allocated |>.comap Prod.snd).unwinding
    (fun i : κ × List Uint8 => i.1 = client)
    (fun hidden s t => (∀ i ∈ hidden, carriesFrame i.2 = false) →
      settle fxns allocated s.transcoder = settle fxns allocated t.transcoder)
    ?_ ?_ (s := start codec) (t := start codec) (fun _ => rfl) arrivals
  · rw [Machine.after_comap, Machine.after_comap] at hun
    refine hun fun i hi => hquiet i.2 ?_
    obtain ⟨hmem, hne⟩ := List.mem_filter.1 hi
    exact List.mem_map.2 ⟨i, List.mem_filter.2 ⟨hmem, by simpa using hne⟩, rfl⟩
  · intro hidden s t i _ hR hq
    cases ha : accepted i.2 with
    | true =>
      simp only [Machine.comap, rtpServer, serve_accepted fxns allocated _ ha]
      rw [← step_settle fxns allocated s.transcoder, hR hq, step_settle]
    | false =>
      simp only [Machine.comap, rtpServer, serve_rejected fxns allocated _ ha]
      exact hR hq
  · intro hidden s t i _ hR hq
    have hframe : carriesFrame i.2 = false := hq i (by simp)
    have hbefore := hR fun j hj => hq j (List.mem_append_left _ hj)
    cases ha : accepted i.2 with
    | true =>
      have hc : ¬ (callOf i.2).Compact := by simpa [carriesFrame, ha] using hframe
      simp only [Machine.comap, rtpServer, serve_accepted fxns allocated _ ha]
      rw [settle_step_other fxns allocated _ hc, hbefore]
    | false =>
      simp only [Machine.comap, rtpServer, serve_rejected fxns allocated _ ha]
      exact hbefore

/-- What one client gets beside others, position by position: the counters are ahead by the
datagrams accepted from the others, and the PCM is the client's own as long as none of the
others has sent a frame. -/
theorem shared_session (codec : σ) (client : κ) (arrivals : List (κ × List Uint8))
    (datagram : List Uint8) :
    let shared := (evsServer fxns allocated).after (start codec) (arrivals.map Prod.snd)
    let alone := (evsServer fxns allocated).after (start codec) (own client arrivals)
    let ahead := (others client arrivals).countP accepted
    (accepted datagram = false →
      reply fxns allocated shared datagram = [] ∧ reply fxns allocated alone datagram = []) ∧
    (accepted datagram →
      reply fxns allocated shared datagram =
          packet (shift alone.counters ahead) datagram (pcmFor fxns allocated shared datagram) ∧
        reply fxns allocated alone datagram =
          packet alone.counters datagram (pcmFor fxns allocated alone datagram)) ∧
    ((∀ other ∈ others client arrivals, carriesFrame other = false) →
      pcmFor fxns allocated shared datagram = pcmFor fxns allocated alone datagram) := by
  intro shared alone ahead
  refine ⟨fun hr => ⟨reply_rejected _ _ _ hr, reply_rejected _ _ _ hr⟩, fun ha => ⟨?_, ?_⟩, ?_⟩
  · have hcounters : shared.counters = shift alone.counters ahead := by
      simp only [shared, alone, ahead, server_after, shift_shift]
      rw [countP_arrivals client]
    rw [reply_accepted fxns allocated shared ha, hcounters]
  · exact reply_accepted fxns allocated alone ha
  · intro hquiet
    have hsettle : settle fxns allocated shared.transcoder =
        settle fxns allocated alone.transcoder :=
      settle_arrivals fxns allocated codec client arrivals hquiet
    unfold pcmFor
    rw [← step_settle fxns allocated shared.transcoder, hsettle, step_settle]

end

def frameDatagram : List Uint8 := bareRequest ++ List.replicate 18 0

/-- The first packet of a client is numbered 2 when another client's arrived before it. -/
theorem interference_two_clients :
    ¬ ∀ (client : Bool) (arrivals : List (Bool × List Uint8)) (datagram : List Uint8),
      NoInterference (countingCodec fun _ => 0) (Buffer.replicate _ 0) 0 client arrivals
        datagram := by
  intro h
  have hdiff := congrArg (fun packet => packet.getD 3 0)
    (h false [(true, frameDatagram)] frameDatagram)
  exact absurd hdiff (by decide +kernel)

end RtpServer.Verify.Clients
