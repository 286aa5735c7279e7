import RtpServer.Source.RtpProcess
import RtpServer.Verify.Recording

/-!
# Clients and server over UDP

Any number of test clients, each playing a recording of its own, and the server, over a network
that may lose, duplicate and reorder datagrams. The client numbers nothing and repeats nothing:
without duplicates its replies stay in step with its requests, a datagram lost stops it for good.
-/
namespace RtpServer.Verify.Exchange

open RtpServer.Library RtpServer.Library.StopAndWait
open RtpServer.Source RtpServer.Source.RtpClient RtpServer.Source.RtpProcess
open RtpServer.Verify.Recording

section

variable {κ τ : Type} [DecidableEq κ]

abbrev Udp (κ τ : Type) := Network κ (List Uint8) (List Uint8) ClientState (ServerState τ)
abbrev UdpEvent (κ : Type) := Event κ (List Uint8) (List Uint8)

def udp (transcoder : Transcoder τ) : FaultingMachine (Udp κ τ) (Action κ) (UdpEvent κ) :=
  network rtpClient (rtpServer transcoder)

/-- `rtp_server` started, and a client on each recording, asked for so many packets. -/
def Udp.initial (st : τ) (file : κ → List Uint8) (n : κ → Int) : Udp κ τ :=
  Network.initial (.initial st) fun c => .start (file c) (n c)

variable {transcoder : Transcoder τ} {st : τ} {file : κ → List Uint8} {n : κ → Int}
  {packets : κ → List (List Uint8)} {acts : List (Action κ)} {s : Udp κ τ} {es : List (UdpEvent κ)}

/-- The server answers the datagrams in the order they reach it. Of each client it has taken the
packets of the recording in their order, and of the answers to them the client has received as
many, in this order, save at most one. -/
theorem exchanges_in_step (hfile : ∀ c, Records (file c) (packets c)) (hne : ∀ c, packets c ≠ [])
    (hdup : ∀ act ∈ acts, act.duplicates = false)
    (hrun : (udp transcoder).run (.initial st file n) acts = some (s, es)) :
    es.filterMap Event.answer = (rtpServer transcoder).outputs (.initial st)
        ((es.filterMap Event.arrival).map Prod.snd) ∧
      ∀ c, let sent := es.filterMap (Event.sentBy c)
        let received := es.filterMap (Event.receivedBy c)
        sent = (List.range sent.length).map (packetAt (packets c)) ∧ sent.length ≤ frames (n c) ∧
          es.filterMap (Event.servedOf c) <+: sent ∧
          received <+: es.filterMap (Event.answerTo c) ∧ sent.length ≤ received.length + 1 := by
  refine ⟨(serves_run hrun).2, fun c => ?_⟩
  have horderly := orderly_run hdup hrun
  obtain ⟨st', hfollows⟩ := (stands_run hrun c).follows
  obtain ⟨hserved, hreceived⟩ := (horderly.inStep c).prefixes
  have hplays := plays_follows (hfile c) (hne c) hfollows
  exact ⟨hplays.requests_eq, hplays.length_le, hserved, hreceived,
    ((horderly.inStep c).length_le (length_served c es)).1⟩

/-- All packets sent and answered: the client is out of its loop. -/
theorem received_all_iff (hfile : ∀ c, Records (file c) (packets c)) (hne : ∀ c, packets c ≠ [])
    (hrun : (udp transcoder).run (.initial st file n) acts = some (s, es)) (c : κ) :
    (es.filterMap (Event.receivedBy c)).length = frames (n c) ↔
      s.waiting c = false ∧ rtpClient.send (s.client c) = none := by
  have hbalance := (owned_run hrun).balance c
  have hstands := stands_run hrun c
  obtain ⟨st', hfollows⟩ := hstands.follows
  have hle := (plays_follows (hfile c) (hne c) hfollows).length_le
  have hstops : s.waiting c = false →
      (rtpClient.send (s.client c) = none ↔
        (es.filterMap (Event.sentBy c)).length = frames (n c)) := by
    intro hready
    rcases hstands with ⟨-, hfollows⟩ | ⟨hwaits, -⟩
    · exact (plays_follows (hfile c) (hne c) hfollows).stops_iff (hfile c) (hne c)
    · rw [hready] at hwaits
      cases hwaits
  cases hwaiting : s.waiting c with
  | false =>
    rw [hwaiting, Bool.toNat_false] at hbalance
    rw [hstops hwaiting, hbalance]
    simp
  | true =>
    rw [hwaiting, Bool.toNat_true] at hbalance
    have hfew : (es.filterMap (Event.receivedBy c)).length ≠ frames (n c) := by omega
    simp [hfew]

/-- A run without duplicates is at its end after three actions a packet at most, and there a
client has all its answers exactly if nothing of its own was lost. -/
theorem completes_iff_nothing_lost [Fintype κ] (hfile : ∀ c, Records (file c) (packets c))
    (hne : ∀ c, packets c ≠ []) (hdup : ∀ act ∈ acts, act.duplicates = false)
    (hrun : (udp transcoder).run (.initial st file n) acts = some (s, es)) :
    acts.length ≤ 3 * ∑ c, frames (n c) ∧
      (Stuck rtpClient (rtpServer transcoder) s →
        ∀ c, (es.filterMap (Event.receivedBy c)).length = frames (n c) ↔ Event.lost c ∉ es) := by
  have horderly := orderly_run hdup hrun
  constructor
  · rw [← (udp transcoder).length_of_run hrun]
    refine horderly.length_le.trans (Nat.mul_le_mul_left 3 (Finset.sum_le_sum fun c _ => ?_))
    obtain ⟨st', hfollows⟩ := (stands_run hrun c).follows
    exact (plays_follows (hfile c) (hne c) hfollows).length_le
  · intro hstuck c
    exact (received_all_iff hfile hne hrun c).trans ((horderly.inStep c).ended_iff hstuck)

/-- Whatever the network does, a client waits for one reply at a time, what it receives are
answers to its own packets, and the server takes nothing of it that it has not sent. -/
theorem replies_are_own (hfile : ∀ c, Records (file c) (packets c)) (hne : ∀ c, packets c ≠ [])
    (hrun : (udp transcoder).run (.initial st file n) acts = some (s, es)) (c : κ) :
    let sent := es.filterMap (Event.sentBy c)
    let received := es.filterMap (Event.receivedBy c)
    sent = (List.range sent.length).map (packetAt (packets c)) ∧ sent.length ≤ frames (n c) ∧
      es.filterMap (Event.servedOf c) ⊆ sent ∧ received ⊆ es.filterMap (Event.answerTo c) ∧
      received.length ≤ sent.length ∧ sent.length ≤ received.length + 1 := by
  intro sent received
  have howned := owned_run hrun
  obtain ⟨st', hfollows⟩ := (stands_run hrun c).follows
  have hplays := plays_follows (hfile c) (hne c) hfollows
  have hbalance : sent.length = received.length + (s.waiting c).toNat := howned.balance c
  have hwaiting := Bool.toNat_le (s.waiting c)
  exact ⟨hplays.requests_eq, hplays.length_le, howned.served c, howned.received c, by omega,
    by omega⟩

theorem range_prefix_range {k n : Nat} (h : k ≤ n) : List.range k <+: List.range n := by
  rw [← Nat.min_eq_left h, ← List.take_range]
  exact List.take_prefix _ _

/-- A client that has the server to itself hears, of the answers to its recording, the first so
many in their order, and if nothing of its own is lost in the end all of them. -/
theorem alone_hears_recording (hfile : ∀ c, Records (file c) (packets c))
    (hne : ∀ c, packets c ≠ []) (hdup : ∀ act ∈ acts, act.duplicates = false)
    (hrun : (udp transcoder).run (.initial st file n) acts = some (s, es)) {c : κ}
    (hmine : ∀ x ∈ es.filterMap Event.arrival, x.1 = c) :
    let received := es.filterMap (Event.receivedBy c)
    let answers := (rtpServer transcoder).outputs (.initial st)
      ((List.range (frames (n c))).map (packetAt (packets c)))
    received <+: answers ∧
      (Stuck rtpClient (rtpServer transcoder) s → Event.lost c ∉ es → received = answers) := by
  intro received answers
  have horderly := orderly_run hdup hrun
  obtain ⟨st', hfollows⟩ := (stands_run hrun c).follows
  have hplays := plays_follows (hfile c) (hne c) hfollows
  obtain ⟨harrived, hanswers⟩ := serves_alone hmine
  have hserves := (serves_run hrun).2
  rw [harrived, hanswers] at hserves
  obtain ⟨hserved, hreceived⟩ := (horderly.inStep c).prefixes
  have hsent : es.filterMap (Event.sentBy c) <+:
      (List.range (frames (n c))).map (packetAt (packets c)) := by
    rw [hplays.requests_eq]
    exact (range_prefix_range hplays.length_le).map _
  have hbegins : received <+: answers := calc
    received <+: es.filterMap (Event.answerTo c) := hreceived
    _ = (rtpServer transcoder).outputs (.initial st) (es.filterMap (Event.servedOf c)) := hserves
    _ <+: answers := (rtpServer transcoder).outputs_prefix_mono _ (hserved.trans hsent)
  refine ⟨hbegins, fun hstuck hlost => hbegins.eq_of_length ?_⟩
  have hall := (received_all_iff hfile hne hrun c).2 (((horderly.inStep c).ended_iff hstuck).2 hlost)
  rw [hall, Machine.length_outputs, List.length_map, List.length_range]

end

/-- A transcoder that hands the payload back. -/
def echo : Transcoder Unit := ⟨fun st payload payloadLen _ _ => (st, payload, payloadLen)⟩

/-- Two clients, asked for one packet each. -/
def twoClients : Udp Bool Unit := .initial () (fun _ => twoLines) fun _ => 1

/-- The second client's request overtakes the first one's, which is lost. -/
def overtaken : List (Action Bool) :=
  [.send true, .send false, .serve 1, .loseRequest 0, .receive 0]

theorem overtaken_runs : ((udp echo).run twoClients overtaken).isSome := by decide +kernel

theorem exchanges_in_step_overtaken :
    ∃ s es, (udp echo).run twoClients overtaken = some (s, es) ∧
      es.filterMap Event.answer = (rtpServer echo).outputs (.initial ())
          ((es.filterMap Event.arrival).map Prod.snd) ∧
        ∀ c, let sent := es.filterMap (Event.sentBy c)
          let received := es.filterMap (Event.receivedBy c)
          sent = (List.range sent.length).map (packetAt [[0x80], [0x61]]) ∧
            sent.length ≤ frames 1 ∧ es.filterMap (Event.servedOf c) <+: sent ∧
            received <+: es.filterMap (Event.answerTo c) ∧ sent.length ≤ received.length + 1 := by
  obtain ⟨⟨s, es⟩, hrun⟩ := Option.isSome_iff_exists.1 overtaken_runs
  exact ⟨s, es, hrun, exchanges_in_step (fun _ => records_twoLines) (fun _ => by decide) (by decide)
    hrun⟩

theorem stuck_overtaken {s : Udp Bool Unit} {es : List (UdpEvent Bool)}
    (hrun : (udp echo).run twoClients overtaken = some (s, es)) :
    Stuck rtpClient (rtpServer echo) s := by
  have hmessages : ((udp echo).run twoClients overtaken).map
      (fun r => (r.1.requests, r.1.replies)) = some ([], []) := by decide +kernel
  have hclients : ∀ c, ((udp echo).run twoClients overtaken).map
      (fun r => r.1.waiting c || (rtpClient.send (r.1.client c)).isNone) = some true := by
    decide +kernel
  rw [hrun] at hmessages
  obtain ⟨hrequests, hreplies⟩ := Prod.mk.inj (Option.some.inj hmessages)
  refine stuck_of_idle hrequests hreplies fun c => ?_
  have hidle := hclients c
  rw [hrun] at hidle
  simpa using hidle

theorem completes_iff_nothing_lost_overtaken :
    ∃ s es, (udp echo).run twoClients overtaken = some (s, es) ∧
      overtaken.length ≤ 3 * ∑ _ : Bool, frames 1 ∧
      ∀ c, (es.filterMap (Event.receivedBy c)).length = frames 1 ↔ Event.lost c ∉ es := by
  obtain ⟨⟨s, es⟩, hrun⟩ := Option.isSome_iff_exists.1 overtaken_runs
  obtain ⟨hlength, hall⟩ := completes_iff_nothing_lost (fun _ => records_twoLines)
    (fun _ => by decide) (by decide) hrun
  exact ⟨s, es, hrun, hlength, hall (stuck_overtaken hrun)⟩

theorem arrivals_overtaken {s : Udp Bool Unit} {es : List (UdpEvent Bool)}
    (hrun : (udp echo).run twoClients overtaken = some (s, es)) :
    es.filterMap Event.arrival = [(false, [0x80])] ∧ Event.lost false ∉ es := by
  have hevents : ((udp echo).run twoClients overtaken).map (fun r =>
      (r.2.filterMap Event.arrival, r.2.countP (Event.losesOf false))) =
        some ([(false, [0x80])], 0) := by decide +kernel
  rw [hrun] at hevents
  obtain ⟨harrivals, hlosses⟩ := Prod.mk.inj (Option.some.inj hevents)
  exact ⟨harrivals, fun hmem => List.countP_eq_zero.1 hlosses _ hmem rfl⟩

theorem alone_hears_recording_overtaken :
    ∃ s es, (udp echo).run twoClients overtaken = some (s, es) ∧
      let received := es.filterMap (Event.receivedBy false)
      let answers := (rtpServer echo).outputs (.initial ())
        ((List.range (frames 1)).map (packetAt [[0x80], [0x61]]))
      received <+: answers ∧ received = answers := by
  obtain ⟨⟨s, es⟩, hrun⟩ := Option.isSome_iff_exists.1 overtaken_runs
  obtain ⟨harrivals, hlost⟩ := arrivals_overtaken hrun
  obtain ⟨hbegins, hall⟩ := alone_hears_recording (fun _ => records_twoLines) (fun _ => by decide)
    (by decide) hrun (c := false) fun x hx => by
      rw [harrivals, List.mem_singleton] at hx
      rw [hx]
  exact ⟨s, es, hrun, hbegins, hall (stuck_overtaken hrun) hlost⟩

/-- The first request is served twice, and the client takes the second answer for the answer to
its second request. -/
def doubled : List (Action Unit) :=
  [.send (), .duplicateRequest 0, .serve 0, .serve 0, .receive 0, .send (), .receive 0]

theorem replies_are_own_doubled :
    ∃ s es, (udp echo).run (.initial () (fun _ => twoLines) fun _ => 2) doubled = some (s, es) ∧
      let sent := es.filterMap (Event.sentBy ())
      let received := es.filterMap (Event.receivedBy ())
      sent = (List.range sent.length).map (packetAt [[0x80], [0x61]]) ∧ sent.length ≤ frames 2 ∧
        es.filterMap (Event.servedOf ()) ⊆ sent ∧ received ⊆ es.filterMap (Event.answerTo ()) ∧
        received.length ≤ sent.length ∧ sent.length ≤ received.length + 1 := by
  have hruns : ((udp echo).run (.initial () (fun _ => twoLines) fun _ => 2) doubled).isSome := by
    decide +kernel
  obtain ⟨⟨s, es⟩, hrun⟩ := Option.isSome_iff_exists.1 hruns
  exact ⟨s, es, hrun, replies_are_own (fun _ => records_twoLines) (fun _ => by decide) hrun ()⟩

end RtpServer.Verify.Exchange
