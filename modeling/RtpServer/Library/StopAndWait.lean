import RtpServer.Library.Machine
import Mathlib.Algebra.BigOperators.Ring.Finset
import Mathlib.Algebra.Order.BigOperators.Group.Finset
import Mathlib.Data.Fintype.BigOperators

/-!
# Stop and wait over an unreliable network

Clients send a request, wait for a reply and go on; a server answers one request after the
other; the network may lose, duplicate and reorder what is in flight. Without duplicates every
client stays in step with the server, and stops exactly when something of its own is lost.
-/
namespace RtpServer.Library

/-- A client that goes on after a reply without looking at it. -/
structure Requester (γ α : Type*) where
  send : γ → Option (α × γ)
  proceed : γ → γ

namespace Requester

variable {γ α : Type*} (p : Requester γ α)

/-- The client is in the second state after exchanges with these requests. -/
inductive Follows (g : γ) : List α → γ → Prop where
  | start : Follows g [] g
  | exchange {requests : List α} {h h' : γ} {request : α} (hbefore : Follows g requests h)
      (hsend : p.send h = some (request, h')) : Follows g (requests ++ [request]) (p.proceed h')

end Requester

namespace StopAndWait

inductive Action (κ : Type*) where
  | send (client : κ)
  | serve (request : Nat)
  | receive (reply : Nat)
  | loseRequest (request : Nat)
  | loseReply (reply : Nat)
  | duplicateRequest (request : Nat)
  | duplicateReply (reply : Nat)

def Action.duplicates {κ : Type*} : Action κ → Bool
  | .duplicateRequest _ | .duplicateReply _ => true
  | _ => false

/-- What a client or the server does by itself. -/
def Action.proper {κ : Type*} : Action κ → Bool
  | .send _ | .serve _ | .receive _ => true
  | _ => false

inductive Event (κ α β : Type*) where
  | sent (client : κ) (request : α)
  | served (client : κ) (request : α) (reply : β)
  | received (client : κ) (reply : β)
  | lost (client : κ)
  | duplicated (client : κ)

structure Network (κ α β γ σ : Type*) where
  server : σ
  client : κ → γ
  waiting : κ → Bool
  requests : List (κ × α)
  replies : List (κ × β)

variable {κ α β γ σ : Type*}

namespace Event

def client : Event κ α β → κ
  | sent c _ | served c _ _ | received c _ | lost c | duplicated c => c

/-- The request served, and whose it was. -/
def arrival : Event κ α β → Option (κ × α)
  | served c a _ => some (c, a)
  | _ => none

def answer : Event κ α β → Option β
  | served _ _ b => some b
  | _ => none

variable [DecidableEq κ]

def sentBy (c : κ) : Event κ α β → Option α
  | sent d a => if d = c then some a else none
  | _ => none

def servedOf (c : κ) : Event κ α β → Option α
  | served d a _ => if d = c then some a else none
  | _ => none

def answerTo (c : κ) : Event κ α β → Option β
  | served d _ b => if d = c then some b else none
  | _ => none

def receivedBy (c : κ) : Event κ α β → Option β
  | received d b => if d = c then some b else none
  | _ => none

def losesOf (c : κ) : Event κ α β → Bool
  | lost d => d = c
  | _ => false

attribute [simp] client arrival answer sentBy servedOf answerTo receivedBy losesOf

end Event

/-- Nothing sent yet. -/
def Network.initial (server : σ) (client : κ → γ) : Network κ α β γ σ :=
  ⟨server, client, fun _ => false, [], []⟩

/-- One action, where it is possible. A reply waits until its client listens. -/
def network [DecidableEq κ] (p : Requester γ α) (m : Machine σ α β) :
    FaultingMachine (Network κ α β γ σ) (Action κ) (Event κ α β) where
  step s
    | .send c =>
      if s.waiting c then none
      else (p.send (s.client c)).map fun r =>
        ({ s with
          client := Function.update s.client c r.2
          waiting := Function.update s.waiting c true
          requests := s.requests ++ [(c, r.1)] }, .sent c r.1)
    | .serve i => (s.requests[i]?).map fun r =>
      ({ s with
        server := (m.step s.server r.2).1
        requests := s.requests.eraseIdx i
        replies := s.replies ++ [(r.1, (m.step s.server r.2).2)] },
        .served r.1 r.2 (m.step s.server r.2).2)
    | .receive i => (s.replies[i]?).bind fun r =>
      if s.waiting r.1 then
        some ({ s with
          client := Function.update s.client r.1 (p.proceed (s.client r.1))
          waiting := Function.update s.waiting r.1 false
          replies := s.replies.eraseIdx i }, .received r.1 r.2)
      else none
    | .loseRequest i => (s.requests[i]?).map fun r =>
      ({ s with requests := s.requests.eraseIdx i }, .lost r.1)
    | .loseReply i => (s.replies[i]?).map fun r =>
      ({ s with replies := s.replies.eraseIdx i }, .lost r.1)
    | .duplicateRequest i => (s.requests[i]?).map fun r =>
      ({ s with requests := s.requests ++ [r] }, .duplicated r.1)
    | .duplicateReply i => (s.replies[i]?).map fun r =>
      ({ s with replies := s.replies ++ [r] }, .duplicated r.1)

section

variable [DecidableEq κ] {p : Requester γ α} {m : Machine σ α β} {s s' : Network κ α β γ σ}
  {es : List (Event κ α β)} {e : Event κ α β} {act : Action κ} {c : κ}

/-- The actions by the events they make. -/
inductive Does (p : Requester γ α) (m : Machine σ α β) (s : Network κ α β γ σ) :
    Action κ → Event κ α β → Network κ α β γ σ → Prop where
  | sent {c : κ} {a : α} {g : γ} (hready : s.waiting c = false)
      (hsend : p.send (s.client c) = some (a, g)) :
      Does p m s (.send c) (.sent c a) { s with
        client := Function.update s.client c g
        waiting := Function.update s.waiting c true
        requests := s.requests ++ [(c, a)] }
  | served {i : Nat} {before after : List (κ × α)} {c : κ} {a : α}
      (hrequests : s.requests = before ++ (c, a) :: after) :
      Does p m s (.serve i) (.served c a (m.step s.server a).2) { s with
        server := (m.step s.server a).1
        requests := before ++ after
        replies := s.replies ++ [(c, (m.step s.server a).2)] }
  | received {i : Nat} {before after : List (κ × β)} {c : κ} {b : β}
      (hreplies : s.replies = before ++ (c, b) :: after) (hwaits : s.waiting c = true) :
      Does p m s (.receive i) (.received c b) { s with
        client := Function.update s.client c (p.proceed (s.client c))
        waiting := Function.update s.waiting c false
        replies := before ++ after }
  | lostRequest {i : Nat} {before after : List (κ × α)} {c : κ} {a : α}
      (hrequests : s.requests = before ++ (c, a) :: after) :
      Does p m s (.loseRequest i) (.lost c) { s with requests := before ++ after }
  | lostReply {i : Nat} {before after : List (κ × β)} {c : κ} {b : β}
      (hreplies : s.replies = before ++ (c, b) :: after) :
      Does p m s (.loseReply i) (.lost c) { s with replies := before ++ after }
  | duplicatedRequest {i : Nat} {c : κ} {a : α} (hmem : (c, a) ∈ s.requests) :
      Does p m s (.duplicateRequest i) (.duplicated c) { s with requests := s.requests ++ [(c, a)] }
  | duplicatedReply {i : Nat} {c : κ} {b : β} (hmem : (c, b) ∈ s.replies) :
      Does p m s (.duplicateReply i) (.duplicated c) { s with replies := s.replies ++ [(c, b)] }

/-- The element at an index, and the list without it. -/
theorem exists_split {δ : Type*} {l : List δ} {i : Nat} {x : δ} (h : l[i]? = some x) :
    ∃ before after, l = before ++ x :: after ∧ l.eraseIdx i = before ++ after := by
  obtain ⟨hi, rfl⟩ := List.getElem?_eq_some_iff.1 h
  refine ⟨l.take i, l.drop (i + 1), ?_, List.eraseIdx_eq_take_drop_succ ..⟩
  rw [List.getElem_cons_drop, List.take_append_drop]

theorem does_of_step (h : (network p m).step s act = some (s', e)) : Does p m s act e s' := by
  cases act with
  | send c =>
    simp only [network] at h
    split at h
    · cases h
    · rename_i hready
      obtain ⟨⟨a, g⟩, hsend, heq⟩ := Option.map_eq_some_iff.1 h
      cases heq
      exact .sent (by simpa using hready) hsend
  | serve i =>
    obtain ⟨⟨c, a⟩, hget, heq⟩ := Option.map_eq_some_iff.1 h
    obtain ⟨before, after, hrequests, herase⟩ := exists_split hget
    cases heq
    rw [herase]
    exact .served hrequests
  | receive i =>
    obtain ⟨⟨c, b⟩, hget, heq⟩ := Option.bind_eq_some_iff.1 h
    obtain ⟨before, after, hreplies, herase⟩ := exists_split hget
    split at heq
    · rename_i hwaits
      cases heq
      rw [herase]
      exact .received hreplies hwaits
    · cases heq
  | loseRequest i =>
    obtain ⟨⟨c, a⟩, hget, heq⟩ := Option.map_eq_some_iff.1 h
    obtain ⟨before, after, hrequests, herase⟩ := exists_split hget
    cases heq
    rw [herase]
    exact .lostRequest hrequests
  | loseReply i =>
    obtain ⟨⟨c, b⟩, hget, heq⟩ := Option.map_eq_some_iff.1 h
    obtain ⟨before, after, hreplies, herase⟩ := exists_split hget
    cases heq
    rw [herase]
    exact .lostReply hreplies
  | duplicateRequest i =>
    obtain ⟨⟨c, a⟩, hget, heq⟩ := Option.map_eq_some_iff.1 h
    cases heq
    exact .duplicatedRequest (List.mem_of_getElem? hget)
  | duplicateReply i =>
    obtain ⟨⟨c, b⟩, hget, heq⟩ := Option.map_eq_some_iff.1 h
    cases heq
    exact .duplicatedReply (List.mem_of_getElem? hget)

/-- What concerns one client: the requests it sent and those of them the server took, the
replies the server gave them and those it received, what is in flight and what was lost. -/
structure View (α β : Type*) where
  sent : List α
  served : List α
  answers : List β
  received : List β
  waiting : Bool
  requests : List α
  replies : List β
  lost : Nat

def inFlight {δ : Type*} (c : κ) (l : List (κ × δ)) : List δ :=
  l.filterMap fun x => if x.1 = c then some x.2 else none

def view (c : κ) (es : List (Event κ α β)) (s : Network κ α β γ σ) : View α β where
  sent := es.filterMap (Event.sentBy c)
  served := es.filterMap (Event.servedOf c)
  answers := es.filterMap (Event.answerTo c)
  received := es.filterMap (Event.receivedBy c)
  waiting := s.waiting c
  requests := inFlight c s.requests
  replies := inFlight c s.replies
  lost := es.countP (Event.losesOf c)

section

variable {δ : Type*} {l before after : List (κ × δ)} {d : κ} {x : δ}

@[simp] theorem inFlight_append (c : κ) (l l' : List (κ × δ)) :
    inFlight c (l ++ l') = inFlight c l ++ inFlight c l' := List.filterMap_append

@[simp] theorem inFlight_cons_self (c : κ) (x : δ) (l : List (κ × δ)) :
    inFlight c ((c, x) :: l) = x :: inFlight c l := by simp [inFlight]

theorem inFlight_cons_of_ne (h : d ≠ c) : inFlight c ((d, x) :: l) = inFlight c l := by
  simp [inFlight, h]

@[simp] theorem inFlight_nil (c : κ) : inFlight c ([] : List (κ × δ)) = [] := rfl

end

/-- At most one message of the client is in flight, and none unless it waits. -/
inductive InStep : View α β → Prop where
  | idle (as : List α) (bs : List β) : InStep ⟨as, as, bs, bs, false, [], [], 0⟩
  | asked (as : List α) (bs : List β) (a : α) :
      InStep ⟨as ++ [a], as, bs, bs, true, [a], [], 0⟩
  | answered (as : List α) (bs : List β) (b : β) :
      InStep ⟨as, as, bs ++ [b], bs, true, [], [b], 0⟩
  | requestLost (as : List α) (bs : List β) (a : α) :
      InStep ⟨as ++ [a], as, bs, bs, true, [], [], 1⟩
  | replyLost (as : List α) (bs : List β) (b : β) :
      InStep ⟨as, as, bs ++ [b], bs, true, [], [], 1⟩

namespace InStep

variable {v : View α β} {a : α} {b : β}

theorem sent (h : InStep v) (hready : v.waiting = false) (a : α) :
    InStep { v with sent := v.sent ++ [a], waiting := true, requests := v.requests ++ [a] } := by
  cases h with
  | idle as bs => exact .asked as bs a
  | asked as bs a' => cases hready
  | answered as bs b => cases hready
  | requestLost as bs a' => cases hready
  | replyLost as bs b => cases hready

theorem singleton_split {δ : Type*} {x y : δ} {before after : List δ}
    (h : [x] = before ++ y :: after) : before = [] ∧ y = x ∧ after = [] := by
  cases before with
  | nil =>
    cases h
    exact ⟨rfl, rfl, rfl⟩
  | cons z zs => cases zs <;> cases h

/-- A request in flight is the last one sent, and the only message. -/
theorem asked_of_request (h : InStep v) {before after : List α}
    (hrequests : v.requests = before ++ a :: after) : before = [] ∧ after = [] ∧
      ∃ as bs, v = ⟨as ++ [a], as, bs, bs, true, [a], [], 0⟩ := by
  cases h with
  | asked as bs a' =>
    obtain ⟨rfl, rfl, rfl⟩ := singleton_split hrequests
    exact ⟨rfl, rfl, as, bs, rfl⟩
  | idle as bs => simp at hrequests
  | answered as bs b => simp at hrequests
  | requestLost as bs a' => simp at hrequests
  | replyLost as bs b => simp at hrequests

/-- A reply in flight is the last answer, and the only message. -/
theorem answered_of_reply (h : InStep v) {before after : List β}
    (hreplies : v.replies = before ++ b :: after) : before = [] ∧ after = [] ∧
      ∃ as bs, v = ⟨as, as, bs ++ [b], bs, true, [], [b], 0⟩ := by
  cases h with
  | answered as bs b' =>
    obtain ⟨rfl, rfl, rfl⟩ := singleton_split hreplies
    exact ⟨rfl, rfl, as, bs, rfl⟩
  | idle as bs => simp at hreplies
  | asked as bs a => simp at hreplies
  | requestLost as bs a' => simp at hreplies
  | replyLost as bs b => simp at hreplies

theorem served (h : InStep v) {before after : List α} (hrequests : v.requests = before ++ a :: after)
    (b : β) : InStep { v with
      served := v.served ++ [a]
      answers := v.answers ++ [b]
      requests := before ++ after
      replies := v.replies ++ [b] } := by
  obtain ⟨rfl, rfl, as, bs, rfl⟩ := h.asked_of_request hrequests
  exact .answered (as ++ [a]) bs b

theorem received (h : InStep v) {before after : List β}
    (hreplies : v.replies = before ++ b :: after) : InStep { v with
      received := v.received ++ [b]
      waiting := false
      replies := before ++ after } := by
  obtain ⟨rfl, rfl, as, bs, rfl⟩ := h.answered_of_reply hreplies
  exact .idle as (bs ++ [b])

theorem lostRequest (h : InStep v) {before after : List α}
    (hrequests : v.requests = before ++ a :: after) :
    InStep { v with requests := before ++ after, lost := v.lost + 1 } := by
  obtain ⟨rfl, rfl, as, bs, rfl⟩ := h.asked_of_request hrequests
  exact .requestLost as bs a

theorem lostReply (h : InStep v) {before after : List β}
    (hreplies : v.replies = before ++ b :: after) :
    InStep { v with replies := before ++ after, lost := v.lost + 1 } := by
  obtain ⟨rfl, rfl, as, bs, rfl⟩ := h.answered_of_reply hreplies
  exact .replyLost as bs b

end InStep

/-- An event of another client changes nothing of this one's. -/
theorem view_other (h : Does p m s act e s') (hother : e.client ≠ c) :
    view c (es ++ [e]) s' = view c es s := by
  have hne : c ≠ e.client := fun heq => hother heq.symm
  cases h with
  | sent hready hsend =>
    simp only [Event.client] at hother hne
    simp [view, hother, inFlight_cons_of_ne hother, Function.update_of_ne hne]
  | served hrequests =>
    simp only [Event.client] at hother
    simp [view, hother, hrequests, inFlight_cons_of_ne hother]
  | received hreplies hwaits =>
    simp only [Event.client] at hother hne
    simp [view, hother, hreplies, inFlight_cons_of_ne hother, Function.update_of_ne hne]
  | lostRequest hrequests =>
    simp only [Event.client] at hother
    simp [view, hother, hrequests, inFlight_cons_of_ne hother]
  | lostReply hreplies =>
    simp only [Event.client] at hother
    simp [view, hother, hreplies, inFlight_cons_of_ne hother]
  | duplicatedRequest hmem =>
    simp only [Event.client] at hother
    simp [view, inFlight_cons_of_ne hother]
  | duplicatedReply hmem =>
    simp only [Event.client] at hother
    simp [view, inFlight_cons_of_ne hother]

theorem inStep_step (h : Does p m s act e s') (hdup : act.duplicates = false)
    (hv : InStep (view c es s)) : InStep (view c (es ++ [e]) s') := by
  by_cases hother : e.client = c
  · subst hother
    cases h with
    | @sent d a g hready hsend =>
      have hnext := hv.sent hready a
      simpa [view, List.filterMap_cons] using hnext
    | @served i before after d a hrequests =>
      have hsplit := congrArg (inFlight d) hrequests
      rw [inFlight_append, inFlight_cons_self] at hsplit
      have hnext := hv.served hsplit (m.step s.server a).2
      simpa [view, List.filterMap_cons] using hnext
    | @received i before after d b hreplies hwaits =>
      have hsplit := congrArg (inFlight d) hreplies
      rw [inFlight_append, inFlight_cons_self] at hsplit
      have hnext := hv.received hsplit
      simpa [view, List.filterMap_cons] using hnext
    | @lostRequest i before after d a hrequests =>
      have hsplit := congrArg (inFlight d) hrequests
      rw [inFlight_append, inFlight_cons_self] at hsplit
      have hnext := hv.lostRequest hsplit
      simpa [view, List.filterMap_cons] using hnext
    | @lostReply i before after d b hreplies =>
      have hsplit := congrArg (inFlight d) hreplies
      rw [inFlight_append, inFlight_cons_self] at hsplit
      have hnext := hv.lostReply hsplit
      simpa [view, List.filterMap_cons] using hnext
    | duplicatedRequest hmem => cases hdup
    | duplicatedReply hmem => cases hdup
  · rw [view_other h hother]
    exact hv

/-- Where a client stands: after its last reply, or waiting for the reply to its last request. -/
def Stands (p : Requester γ α) (g : γ) (sent : List α) (waiting : Bool) (g' : γ) : Prop :=
  (waiting = false ∧ p.Follows g sent g') ∨
    (waiting = true ∧ ∃ before h a, sent = before ++ [a] ∧ p.Follows g before h ∧
      p.send h = some (a, g'))

theorem stands_step {g : κ → γ} (h : Does p m s act e s')
    (hs : Stands p (g c) (es.filterMap (Event.sentBy c)) (s.waiting c) (s.client c)) :
    Stands p (g c) ((es ++ [e]).filterMap (Event.sentBy c)) (s'.waiting c) (s'.client c) := by
  rw [List.filterMap_append]
  cases h with
  | @sent d a g' hready hsend =>
    by_cases hd : d = c
    · subst hd
      rcases hs with ⟨-, hfollows⟩ | ⟨hwaits, -⟩
      · refine Or.inr ⟨Function.update_self _ _ _, _, _, a, ?_, hfollows, ?_⟩
        · simp
        · simpa using hsend
      · rw [hready] at hwaits
        cases hwaits
    · simpa [hd, Function.update_of_ne (fun heq => hd heq.symm)] using hs
  | @received i before after d b hreplies hwaits =>
    by_cases hd : d = c
    · subst hd
      rcases hs with ⟨hready, -⟩ | ⟨-, before, h, a, hsent, hfollows, hsend⟩
      · rw [hwaits] at hready
        cases hready
      · refine Or.inl ⟨Function.update_self _ _ _, ?_⟩
        simpa [hsent, List.filterMap_cons] using hfollows.exchange hsend
    · simpa [List.filterMap_cons, Function.update_of_ne (fun heq => hd heq.symm)]
        using hs
  | served hrequests => simpa [List.filterMap_cons] using hs
  | lostRequest hrequests => simpa [List.filterMap_cons] using hs
  | lostReply hreplies => simpa [List.filterMap_cons] using hs
  | duplicatedRequest hmem => simpa [List.filterMap_cons] using hs
  | duplicatedReply hmem => simpa [List.filterMap_cons] using hs

/-- The server answers the requests as they arrive, whoever sent them. -/
def Serves (m : Machine σ α β) (start : σ) (es : List (Event κ α β)) (server : σ) : Prop :=
  server = m.after start ((es.filterMap Event.arrival).map Prod.snd) ∧
    es.filterMap Event.answer = m.outputs start ((es.filterMap Event.arrival).map Prod.snd)

omit [DecidableEq κ] in
/-- An event that is no answer. -/
theorem Serves.other {start server : σ} (hs : Serves m start es server)
    (harrival : e.arrival = none) (hanswer : e.answer = none) :
    Serves m start (es ++ [e]) server := by
  obtain ⟨hserver, hanswers⟩ := hs
  unfold Serves
  rw [List.filterMap_append, List.filterMap_append, List.filterMap_cons_none harrival,
    List.filterMap_cons_none hanswer, List.filterMap_nil, List.filterMap_nil, List.append_nil,
    List.append_nil]
  exact ⟨hserver, hanswers⟩

theorem serves_step {start : σ} (h : Does p m s act e s') (hs : Serves m start es s.server) :
    Serves m start (es ++ [e]) s'.server := by
  cases h with
  | @served i before after d a hrequests =>
    obtain ⟨hserver, hanswers⟩ := hs
    unfold Serves
    simp only [List.filterMap_append, List.map_append, Event.arrival, Event.answer,
      List.filterMap_cons, List.filterMap_nil, List.map_cons, List.map_nil, m.after_concat,
      m.outputs_concat]
    rw [← hserver, hanswers]
    exact ⟨rfl, rfl⟩
  | sent => exact hs.other rfl rfl
  | received => exact hs.other rfl rfl
  | lostRequest => exact hs.other rfl rfl
  | lostReply => exact hs.other rfl rfl
  | duplicatedRequest => exact hs.other rfl rfl
  | duplicatedReply => exact hs.other rfl rfl

theorem Stands.follows {g g' : γ} {sent : List α} {waiting : Bool}
    (h : Stands p g sent waiting g') : ∃ h, p.Follows g sent h := by
  rcases h with ⟨-, hfollows⟩ | ⟨-, before, h, a, rfl, hfollows, hsend⟩
  · exact ⟨g', hfollows⟩
  · exact ⟨_, hfollows.exchange hsend⟩

section

variable {start : σ} {g : κ → γ} {acts : List (Action κ)}

theorem stands_run (h : (network p m).run (.initial start g) acts = some (s, es)) (c : κ) :
    Stands p (g c) (es.filterMap (Event.sentBy c)) (s.waiting c) (s.client c) := by
  refine (network p m).run_invariant (P := fun es s =>
    Stands p (g c) (es.filterMap (Event.sentBy c)) (s.waiting c) (s.client c)) ?_ ?_
    (fun _ _ => trivial) h
  · exact Or.inl ⟨rfl, .start⟩
  · intro es s act s' e _ hs hstep
    exact stands_step (does_of_step hstep) hs

theorem serves_run (h : (network p m).run (.initial start g) acts = some (s, es)) :
    Serves m start es s.server := by
  refine (network p m).run_invariant (P := fun es s => Serves m start es s.server) ⟨rfl, rfl⟩ ?_
    (fun _ _ => trivial) h
  intro es s act s' e _ hs hstep
  exact serves_step (does_of_step hstep) hs

/-- What a run without duplicates keeps. -/
structure Orderly (es : List (Event κ α β)) (s : Network κ α β γ σ) : Prop where
  inStep : ∀ c, InStep (view c es s)
  undoubled : ∀ c, Event.duplicated c ∉ es

theorem orderly_run (hdup : ∀ act ∈ acts, act.duplicates = false)
    (h : (network p m).run (.initial start g) acts = some (s, es)) : Orderly es s := by
  refine (network p m).run_invariant (P := Orderly) ?_ ?_ hdup h
  · exact ⟨fun c => .idle [] [], fun c => List.not_mem_nil⟩
  · intro es s act s' e hact hs hstep
    have hdoes := does_of_step hstep
    refine ⟨fun c => inStep_step hdoes hact (hs.inStep c), fun c hmem => ?_⟩
    rcases List.mem_append.1 hmem with hmem | hmem
    · exact hs.undoubled c hmem
    · cases List.mem_singleton.1 hmem
      cases hdoes with
      | duplicatedRequest hmem => cases hact
      | duplicatedReply hmem => cases hact

end

theorem length_served (c : κ) (es : List (Event κ α β)) :
    (es.filterMap (Event.servedOf c)).length = (es.filterMap (Event.answerTo c)).length := by
  induction es with
  | nil => rfl
  | cons e es ih =>
    cases e with
    | served d a b =>
      by_cases hd : d = c
      · simp [hd, ih]
      · simp [hd, ih]
    | sent d a => simpa [List.filterMap_cons] using ih
    | received d b => simpa [List.filterMap_cons] using ih
    | lost d => simpa [List.filterMap_cons] using ih
    | duplicated d => simpa [List.filterMap_cons] using ih

/-- All that the server took is one client's. -/
theorem serves_alone (h : ∀ x ∈ es.filterMap Event.arrival, x.1 = c) :
    (es.filterMap Event.arrival).map Prod.snd = es.filterMap (Event.servedOf c) ∧
      es.filterMap Event.answer = es.filterMap (Event.answerTo c) := by
  have hserved : ∀ d a b, Event.served d a b ∈ es → d = c := fun d a b hmem =>
    h (d, a) (List.mem_filterMap.2 ⟨_, hmem, rfl⟩)
  rw [List.map_filterMap]
  refine ⟨List.filterMap_congr fun e he => ?_, List.filterMap_congr fun e he => ?_⟩
  · cases e with
    | served d a b => simp [hserved d a b he]
    | sent d a => rfl
    | received d b => rfl
    | lost d => rfl
    | duplicated d => rfl
  · cases e with
    | served d a b => simp [hserved d a b he]
    | sent d a => rfl
    | received d b => rfl
    | lost d => rfl
    | duplicated d => rfl

theorem InStep.prefixes {v : View α β} (h : InStep v) :
    v.served <+: v.sent ∧ v.received <+: v.answers := by
  cases h with
  | idle as bs => exact ⟨List.prefix_rfl, List.prefix_rfl⟩
  | asked as bs a => exact ⟨List.prefix_append _ _, List.prefix_rfl⟩
  | answered as bs b => exact ⟨List.prefix_rfl, List.prefix_append _ _⟩
  | requestLost as bs a => exact ⟨List.prefix_append _ _, List.prefix_rfl⟩
  | replyLost as bs b => exact ⟨List.prefix_rfl, List.prefix_append _ _⟩

theorem InStep.length_le {v : View α β} (h : InStep v) (hlen : v.served.length = v.answers.length) :
    v.sent.length ≤ v.received.length + 1 ∧
      v.sent.length + v.served.length + v.received.length + v.lost ≤ 3 * v.sent.length := by
  cases h <;> simp only [List.length_append, List.length_singleton] at * <;> omega

/-! ### Where a run ends -/

/-- Neither a client nor the server can do anything more. -/
def Stuck (p : Requester γ α) (m : Machine σ α β) (s : Network κ α β γ σ) : Prop :=
  ∀ act : Action κ, act.proper = true → (network p m).step s act = none

theorem Stuck.requests_eq_nil (h : Stuck p m s) : s.requests = [] := by
  cases hrequests : s.requests with
  | nil => rfl
  | cons x rest =>
    have hserve := h (.serve 0) rfl
    simp [network, hrequests] at hserve

theorem Stuck.not_waiting_of_reply (h : Stuck p m s) {b : β} (hmem : (c, b) ∈ s.replies) :
    s.waiting c = false := by
  obtain ⟨i, hi⟩ := List.mem_iff_getElem?.1 hmem
  have hreceive := h (.receive i) rfl
  simpa [network, hi] using hreceive

theorem Stuck.send_eq_none (h : Stuck p m s) (hready : s.waiting c = false) :
    p.send (s.client c) = none := by
  have hsend := h (.send c) rfl
  simpa [network, hready] using hsend

theorem stuck_of_idle (hrequests : s.requests = []) (hreplies : s.replies = [])
    (hidle : ∀ c, s.waiting c = true ∨ p.send (s.client c) = none) : Stuck p m s := by
  intro act hproper
  cases act with
  | send c =>
    cases hidle c with
    | inl hwaits => simp [network, hwaits]
    | inr hnone => simp [network, hnone]
  | serve i => simp [network, hrequests]
  | receive i => simp [network, hreplies]
  | loseRequest i => cases hproper
  | loseReply i => cases hproper
  | duplicateRequest i => cases hproper
  | duplicateReply i => cases hproper

/-- When nothing moves any more a client has come to its end unless it lost a message. -/
theorem InStep.ended_iff (h : InStep (view c es s)) (hstuck : Stuck p m s) :
    (s.waiting c = false ∧ p.send (s.client c) = none) ↔ Event.lost c ∉ es := by
  have hlost : Event.lost c ∉ es ↔ (view c es s).lost = 0 := by
    change _ ↔ es.countP (Event.losesOf c) = 0
    rw [List.countP_eq_zero]
    constructor
    · intro hmem e he hloses
      cases e with
      | lost d =>
        obtain rfl : d = c := by simpa using hloses
        exact hmem he
      | sent d a => cases hloses
      | served d a b => cases hloses
      | received d b => cases hloses
      | duplicated d => cases hloses
    · intro hall hmem
      exact hall _ hmem (by simp)
  have hrequests : (view c es s).requests = [] := congrArg (inFlight c) hstuck.requests_eq_nil
  have hreplies : ∀ b, b ∈ (view c es s).replies → (view c es s).waiting = false := by
    intro b hb
    obtain ⟨⟨d, b'⟩, hmem, heq⟩ := List.mem_filterMap.1 hb
    by_cases hd : d = c
    · subst hd
      exact hstuck.not_waiting_of_reply hmem
    · simp [hd] at heq
  have hwaiting : s.waiting c = false ↔ (view c es s).lost = 0 := by
    change (view c es s).waiting = false ↔ _
    generalize view c es s = v at h hrequests hreplies
    cases h with
    | idle as bs => simp
    | asked as bs a => cases hrequests
    | answered as bs b => cases hreplies b (List.mem_singleton_self b)
    | requestLost as bs a => simp
    | replyLost as bs b => simp
  rw [hlost, ← hwaiting]
  exact ⟨fun hend => hend.1, fun hready => ⟨hready, hstuck.send_eq_none hready⟩⟩

theorem length_eq_sum [Fintype κ] (es : List (Event κ α β)) :
    es.length = ∑ c, es.countP fun e => e.client = c := by
  induction es with
  | nil => simp
  | cons e es ih => simp [-Event.client, List.countP_cons, Finset.sum_add_distrib, ih]

theorem countP_client (hdup : ∀ c, Event.duplicated c ∉ es) (c : κ) :
    (es.countP fun e => e.client = c) =
      (es.filterMap (Event.sentBy c)).length + (es.filterMap (Event.servedOf c)).length +
        (es.filterMap (Event.receivedBy c)).length + es.countP (Event.losesOf c) := by
  induction es with
  | nil => rfl
  | cons e es ih =>
    have hrest := ih fun d hmem => hdup d (List.mem_cons_of_mem _ hmem)
    rw [List.countP_cons, hrest, List.countP_cons]
    cases e with
    | sent d a =>
      by_cases hd : d = c <;> simp [List.filterMap_cons, hd]
      omega
    | served d a b =>
      by_cases hd : d = c <;> simp [List.filterMap_cons, hd]
      omega
    | received d b =>
      by_cases hd : d = c <;> simp [List.filterMap_cons, hd]
      omega
    | lost d =>
      by_cases hd : d = c <;> simp [List.filterMap_cons, hd]
      omega
    | duplicated d => exact absurd List.mem_cons_self (hdup d)

/-- Each request takes three actions at most: sent, served and received, or lost on the way. -/
theorem Orderly.length_le [Fintype κ] (h : Orderly es s) :
    es.length ≤ 3 * ∑ c, (es.filterMap (Event.sentBy c)).length := by
  rw [length_eq_sum, Finset.mul_sum]
  refine Finset.sum_le_sum fun c _ => ?_
  rw [countP_client h.undoubled]
  exact ((h.inStep c).length_le (length_served c es)).2

/-! ### With duplicates -/

/-- What every run keeps: nothing is served that was not sent, nothing received that is not the
answer to a request of the same client, and each client still waits for one reply at a time. -/
structure Owned (es : List (Event κ α β)) (s : Network κ α β γ σ) : Prop where
  requests : ∀ c a, (c, a) ∈ s.requests → a ∈ es.filterMap (Event.sentBy c)
  replies : ∀ c b, (c, b) ∈ s.replies → b ∈ es.filterMap (Event.answerTo c)
  served : ∀ c, es.filterMap (Event.servedOf c) ⊆ es.filterMap (Event.sentBy c)
  received : ∀ c, es.filterMap (Event.receivedBy c) ⊆ es.filterMap (Event.answerTo c)
  balance : ∀ c, (es.filterMap (Event.sentBy c)).length =
    (es.filterMap (Event.receivedBy c)).length + (s.waiting c).toNat

theorem Owned.balance_step (hs : Owned es s) (h : Does p m s act e s') (c : κ) :
    ((es ++ [e]).filterMap (Event.sentBy c)).length =
      ((es ++ [e]).filterMap (Event.receivedBy c)).length + (s'.waiting c).toNat := by
  have hbefore := hs.balance c
  rw [List.filterMap_append, List.filterMap_append]
  cases h with
  | @sent d a g hready hsend =>
    by_cases hd : d = c
    · subst hd
      rw [hready] at hbefore
      simpa [List.filterMap_cons] using hbefore
    · simpa [List.filterMap_cons, hd,
        Function.update_of_ne (fun heq => hd heq.symm)] using hbefore
  | @received i before after d b hreplies hwaits =>
    by_cases hd : d = c
    · subst hd
      rw [hwaits] at hbefore
      simpa [List.filterMap_cons] using hbefore
    · simpa [List.filterMap_cons, hd,
        Function.update_of_ne (fun heq => hd heq.symm)] using hbefore
  | served hrequests =>
    simpa [List.filterMap_cons] using hbefore
  | lostRequest hrequests =>
    simpa [List.filterMap_cons] using hbefore
  | lostReply hreplies =>
    simpa [List.filterMap_cons] using hbefore
  | duplicatedRequest hmem =>
    simpa [List.filterMap_cons] using hbefore
  | duplicatedReply hmem =>
    simpa [List.filterMap_cons] using hbefore

theorem mem_of_without {δ : Type*} {x y : δ} {before after : List δ} (h : x ∈ before ++ after) :
    x ∈ before ++ y :: after :=
  (List.mem_append.1 h).elim (List.mem_append_left _)
    fun hmem => List.mem_append_right _ (List.mem_cons_of_mem _ hmem)

theorem mem_filterMap_concat {δ ε : Type*} {f : δ → Option ε} {l : List δ} {x : ε}
    (h : x ∈ l.filterMap f) (y : δ) : x ∈ (l ++ [y]).filterMap f :=
  List.filterMap_append ▸ List.mem_append_left _ h

theorem Owned.requests_step (hs : Owned es s) (h : Does p m s act e s') {a : α}
    (hmem : (c, a) ∈ s'.requests) : a ∈ (es ++ [e]).filterMap (Event.sentBy c) := by
  cases h with
  | @sent d a' g hready hsend =>
    rcases List.mem_append.1 hmem with hmem | hmem
    · exact mem_filterMap_concat (hs.requests c a hmem) _
    · cases List.mem_singleton.1 hmem
      simp
  | served hrequests =>
    exact mem_filterMap_concat (hs.requests c a (hrequests ▸ mem_of_without hmem)) _
  | lostRequest hrequests =>
    exact mem_filterMap_concat (hs.requests c a (hrequests ▸ mem_of_without hmem)) _
  | duplicatedRequest hold =>
    rcases List.mem_append.1 hmem with hmem | hmem
    · exact mem_filterMap_concat (hs.requests c a hmem) _
    · cases List.mem_singleton.1 hmem
      exact mem_filterMap_concat (hs.requests c a hold) _
  | received hreplies hwaits => exact mem_filterMap_concat (hs.requests c a hmem) _
  | lostReply hreplies => exact mem_filterMap_concat (hs.requests c a hmem) _
  | duplicatedReply hold => exact mem_filterMap_concat (hs.requests c a hmem) _

theorem Owned.replies_step (hs : Owned es s) (h : Does p m s act e s') {b : β}
    (hmem : (c, b) ∈ s'.replies) : b ∈ (es ++ [e]).filterMap (Event.answerTo c) := by
  cases h with
  | @served i before after d a hrequests =>
    rcases List.mem_append.1 hmem with hmem | hmem
    · exact mem_filterMap_concat (hs.replies c b hmem) _
    · cases List.mem_singleton.1 hmem
      simp
  | received hreplies hwaits =>
    exact mem_filterMap_concat (hs.replies c b (hreplies ▸ mem_of_without hmem)) _
  | lostReply hreplies =>
    exact mem_filterMap_concat (hs.replies c b (hreplies ▸ mem_of_without hmem)) _
  | duplicatedReply hold =>
    rcases List.mem_append.1 hmem with hmem | hmem
    · exact mem_filterMap_concat (hs.replies c b hmem) _
    · cases List.mem_singleton.1 hmem
      exact mem_filterMap_concat (hs.replies c b hold) _
  | sent hready hsend => exact mem_filterMap_concat (hs.replies c b hmem) _
  | lostRequest hrequests => exact mem_filterMap_concat (hs.replies c b hmem) _
  | duplicatedRequest hold => exact mem_filterMap_concat (hs.replies c b hmem) _

theorem Owned.served_step (hs : Owned es s) (h : Does p m s act e s') {a : α}
    (ha : a ∈ (es ++ [e]).filterMap (Event.servedOf c)) :
    a ∈ (es ++ [e]).filterMap (Event.sentBy c) := by
  rw [List.filterMap_append] at ha
  rcases List.mem_append.1 ha with ha | ha
  · exact mem_filterMap_concat (hs.served c ha) e
  · cases h with
    | @served i before after d a' hrequests =>
      have hmem : (d, a') ∈ s.requests := hrequests ▸ by simp
      by_cases hd : d = c
      · subst hd
        obtain rfl : a = a' := by simpa [List.filterMap_cons] using ha
        exact mem_filterMap_concat (hs.requests d a hmem) _
      · simp [hd] at ha
    | sent hready hsend => cases ha
    | received hreplies hwaits => cases ha
    | lostRequest hrequests => cases ha
    | lostReply hreplies => cases ha
    | duplicatedRequest hmem => cases ha
    | duplicatedReply hmem => cases ha

theorem Owned.received_step (hs : Owned es s) (h : Does p m s act e s') {b : β}
    (hb : b ∈ (es ++ [e]).filterMap (Event.receivedBy c)) :
    b ∈ (es ++ [e]).filterMap (Event.answerTo c) := by
  rw [List.filterMap_append] at hb
  rcases List.mem_append.1 hb with hb | hb
  · exact mem_filterMap_concat (hs.received c hb) e
  · cases h with
    | @received i before after d b' hreplies hwaits =>
      have hmem : (d, b') ∈ s.replies := hreplies ▸ by simp
      by_cases hd : d = c
      · subst hd
        obtain rfl : b = b' := by simpa [List.filterMap_cons] using hb
        exact mem_filterMap_concat (hs.replies d b hmem) _
      · simp [hd] at hb
    | sent hready hsend => cases hb
    | served hrequests => cases hb
    | lostRequest hrequests => cases hb
    | lostReply hreplies => cases hb
    | duplicatedRequest hmem => cases hb
    | duplicatedReply hmem => cases hb

theorem owned_run {start : σ} {g : κ → γ} {acts : List (Action κ)}
    (h : (network p m).run (.initial start g) acts = some (s, es)) : Owned es s := by
  refine (network p m).run_invariant (P := Owned) ?_ ?_
    (fun _ _ => trivial) h
  · exact ⟨fun c a hmem => (List.not_mem_nil hmem).elim,
      fun c b hmem => (List.not_mem_nil hmem).elim, fun c => List.Subset.refl _,
      fun c => List.Subset.refl _, fun c => rfl⟩
  · intro es s act s' e _ hs hstep
    have hdoes := does_of_step hstep
    exact ⟨fun c a => hs.requests_step hdoes, fun c b => hs.replies_step hdoes,
      fun c a => hs.served_step hdoes, fun c b => hs.received_step hdoes,
      hs.balance_step hdoes⟩

end

end StopAndWait

end RtpServer.Library
