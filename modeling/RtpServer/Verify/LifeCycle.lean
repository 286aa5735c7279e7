import RtpServer.Library.Lifecycle
import RtpServer.Library.Machine
import RtpServer.Verify.Decoder

/-!
# Life cycle of the codec modules

The decoder and the encoder module make their calls in the same way: `init` opens the
codec, `use` encodes or decodes, `release` gives the memory back. Both publish their
internal structure before `Init` has succeeded and keep an old one when a later `init`
fails, and their check of `NumAlloc` lets either half of a failure pass.
-/
namespace RtpServer.Verify.LifeCycle

open RtpServer.Library RtpServer.Source RtpServer.Source.TypeDef RtpServer.Source.Upd
open RtpServer.Source.Usc RtpServer.Source.EvsCodec RtpServer.Verify.Decoder

def eventOf : UscCall → Option (Event UscHandle)
  | .getInfo _ => none
  | .numAlloc status nbanks => some (.sized (status = uscNoError ∧ nbanks = evsNbufs))
  | .memAlloc _ => some .allocate
  | .init status handle => some (.created (if status = uscNoError then some handle else none))
  | .control _ handle _ => some (.used handle)
  | .decode handle _ _ => some (.used handle)
  | .encode handle _ _ => some (.used handle)

def eventsOf (calls : List UscCall) : List (Event UscHandle) := calls.filterMap eventOf

section

variable {σ : Type} (fxns : UscFxns σ) (s : σ) (params : UscOption)
  (adjust : UscOption → UscOption)

def infoAnswer : Answer σ UscOption := fxns.getInfo s params

def adjusted : UscOption := adjust (infoAnswer fxns s params).value

def numAnswer : Answer σ Int :=
  fxns.numAlloc (infoAnswer fxns s params).next (adjusted fxns s params adjust)

def memAnswer : Answer σ Int :=
  fxns.memAlloc (numAnswer fxns s params adjust).next (adjusted fxns s params adjust)

def blockAnswer : Answer σ UscHandle := fxns.mallocInternal (memAnswer fxns s params adjust).next

def bankAnswer : Answer σ Nat :=
  fxns.mallocBank (blockAnswer fxns s params adjust).next (memAnswer fxns s params adjust).value

def initAnswer : Answer σ UscHandle :=
  fxns.init (bankAnswer fxns s params adjust).next (adjusted fxns s params adjust)
    ⟨(bankAnswer fxns s params adjust).value, (memAnswer fxns s params adjust).value⟩
    (blockAnswer fxns s params adjust).value

def openingCalls : List UscCall :=
  [.getInfo (infoAnswer fxns s params).status,
    .numAlloc (numAnswer fxns s params adjust).status (numAnswer fxns s params adjust).value,
    .memAlloc (memAnswer fxns s params adjust).status]

theorem uscOpen_cases :
    ((infoAnswer fxns s params).status ≠ uscNoError ∧
        uscOpen fxns.logging (s, []) params adjust =
          (.getInfoFailed (infoAnswer fxns s params).status, (infoAnswer fxns s params).next,
            (openingCalls fxns s params adjust).take 1)) ∨
      ((infoAnswer fxns s params).status = uscNoError ∧
        ((numAnswer fxns s params adjust).status ≠ uscNoError ∧
          (numAnswer fxns s params adjust).value ≠ evsNbufs) ∧
        uscOpen fxns.logging (s, []) params adjust =
          (.numAllocFailed (numAnswer fxns s params adjust).status,
            (numAnswer fxns s params adjust).next, (openingCalls fxns s params adjust).take 2)) ∨
      ((infoAnswer fxns s params).status = uscNoError ∧
        ¬ ((numAnswer fxns s params adjust).status ≠ uscNoError ∧
          (numAnswer fxns s params adjust).value ≠ evsNbufs) ∧
        (memAnswer fxns s params adjust).status ≠ uscNoError ∧
        uscOpen fxns.logging (s, []) params adjust =
          (.memAllocFailed (memAnswer fxns s params adjust).status,
            (memAnswer fxns s params adjust).next, openingCalls fxns s params adjust)) ∨
      ((infoAnswer fxns s params).status = uscNoError ∧
        ¬ ((numAnswer fxns s params adjust).status ≠ uscNoError ∧
          (numAnswer fxns s params adjust).value ≠ evsNbufs) ∧
        (memAnswer fxns s params adjust).status = uscNoError ∧
        uscOpen fxns.logging (s, []) params adjust =
          (.initialised (initAnswer fxns s params adjust).status (adjusted fxns s params adjust)
              (bankAnswer fxns s params adjust).value (initAnswer fxns s params adjust).value,
            (initAnswer fxns s params adjust).next,
            openingCalls fxns s params adjust ++
              [.init (initAnswer fxns s params adjust).status
                (initAnswer fxns s params adjust).value])) := by
  by_cases hinfo : (infoAnswer fxns s params).status = uscNoError
  · apply Or.inr
    by_cases hnum : (numAnswer fxns s params adjust).status ≠ uscNoError ∧
        (numAnswer fxns s params adjust).value ≠ evsNbufs
    · refine Or.inl ⟨hinfo, hnum, ?_⟩
      exact (if_neg (not_not.2 hinfo)).trans (if_pos hnum)
    · apply Or.inr
      by_cases hmem : (memAnswer fxns s params adjust).status = uscNoError
      · refine Or.inr ⟨hinfo, hnum, hmem, ?_⟩
        exact (if_neg (not_not.2 hinfo)).trans ((if_neg hnum).trans (if_neg (not_not.2 hmem)))
      · refine Or.inl ⟨hinfo, hnum, hmem, ?_⟩
        exact (if_neg (not_not.2 hinfo)).trans ((if_neg hnum).trans (if_pos hmem))
  · exact Or.inl ⟨hinfo, if_pos hinfo⟩

/-- The answers under which an initialisation is sound: no step fails while an internal
structure is `held`, `NumAlloc` reports the one bank exactly if it succeeds, and where
`Init` is reached the bank was obtained and `Init` succeeds. -/
structure OpenSound (held : Prop) : Prop where
  info : (infoAnswer fxns s params).status ≠ uscNoError → ¬ held
  numAlloc : (infoAnswer fxns s params).status = uscNoError →
    ((numAnswer fxns s params adjust).status = uscNoError ↔
      (numAnswer fxns s params adjust).value = evsNbufs) ∧
    ((numAnswer fxns s params adjust).status ≠ uscNoError → ¬ held)
  memAlloc : (infoAnswer fxns s params).status = uscNoError →
    (numAnswer fxns s params adjust).status = uscNoError →
    (memAnswer fxns s params adjust).status ≠ uscNoError → ¬ held
  init : (infoAnswer fxns s params).status = uscNoError →
    (numAnswer fxns s params adjust).status = uscNoError →
    (memAnswer fxns s params adjust).status = uscNoError →
    (bankAnswer fxns s params adjust).value ≠ 0 ∧
      (initAnswer fxns s params adjust).status = uscNoError

/-- Opened soundly, the codec is called in order, and the call ends without an internal
structure or with a live handle in it. -/
theorem uscOpen_sound {held : Prop} (h : OpenSound fxns s params adjust held)
    (m : Monitor UscHandle) :
    let r := uscOpen fxns.logging (s, []) params adjust
    m.Obeys (eventsOf r.2.2) ∧
      match r.1 with
      | .initialised status _ pMem handle =>
        status = uscNoError ∧ pMem ≠ 0 ∧ handle ∈ (m.after (eventsOf r.2.2)).live
      | _ => ¬ held := by
  intro r
  rcases uscOpen_cases fxns s params adjust with
    ⟨hinfo, hr⟩ | ⟨hinfo, hnum, hr⟩ | ⟨hinfo, hnum, hmem, hr⟩ | ⟨hinfo, hnum, hmem, hr⟩
  · rw [show r = _ from hr]
    exact ⟨trivial, h.info hinfo⟩
  · rw [show r = _ from hr]
    exact ⟨⟨trivial, trivial⟩, (h.numAlloc hinfo).2 hnum.1⟩
  all_goals
    -- past `NumAlloc`, which can only have succeeded
    obtain ⟨hboth, -⟩ := h.numAlloc hinfo
    have hok : (numAnswer fxns s params adjust).status = uscNoError := by
      by_contra hne
      exact hnum ⟨hne, fun hv => hne (hboth.2 hv)⟩
    have hsized : (decide ((numAnswer fxns s params adjust).status = uscNoError ∧
        (numAnswer fxns s params adjust).value = evsNbufs)) = true :=
      decide_eq_true ⟨hok, hboth.1 hok⟩
    rw [show r = _ from hr]
  · exact ⟨⟨trivial, hsized, trivial⟩, h.memAlloc hinfo hok hmem⟩
  · obtain ⟨hbank, hinit⟩ := h.init hinfo hok hmem
    refine ⟨⟨trivial, hsized, hsized, trivial⟩, hinit, hbank, ?_⟩
    -- the last event is the creation of the handle
    change _ ∈ (Monitor.next _ (.created
      (if (initAnswer fxns s params adjust).status = uscNoError then
        some (initAnswer fxns s params adjust).value else none))).live
    rw [if_pos hinit]
    exact Set.mem_insert _ _

end

/-- What one use of a module may do: nothing without an internal structure, and otherwise
only calls with the handle in it. -/
def UsesHandle {σ : Type} (s next : σ × List UscCall) (ecode : Ecode) (handle : Option UscHandle) : Prop :=
  match handle with
  | none => ecode ≠ eaNoErrors ∧ next = s
  | some handle => ∃ calls, next.2 = s.2 ++ calls ∧ ∀ e ∈ eventsOf calls, e = .used handle

/-- A codec module as its caller sees it: the three operations on its data, over a codec
that logs the calls made to it, and what each of them does to the internal structure. -/
structure CodecModule (σ α π : Type) where
  fxns : UscFxns σ
  params : UscOption
  adjust : UscOption → UscOption
  held : α → Option (Nat × UscHandle)
  zero : α
  init : σ × List UscCall → α → Ecode × α × σ × List UscCall
  use : σ × List UscCall → α → π → Ecode × α × σ × List UscCall
  release : α → Ecode × α
  held_zero : held zero = none
  init_spec : ∀ s a, (init s a).2.2 = (uscOpen fxns.logging s params adjust).2 ∧
    match (uscOpen fxns.logging s params adjust).1 with
    | .initialised status _ pMem handle =>
      held (init s a).2.1 = some (pMem, handle) ∧
        (status = uscNoError → (init s a).1 = eaNoErrors)
    | _ => held (init s a).2.1 = held a
  use_spec : ∀ s a p, held (use s a p).2.1 = held a ∧
    UsesHandle s (use s a p).2.2 (use s a p).1 ((held a).map Prod.snd)
  release_spec : ∀ a, match held a with
    | none => held (release a).2 = none
    | some (pMem, _) => pMem ≠ 0 → held (release a).2 = none

inductive Op (π : Type) where
  | init
  | use (p : π)
  | release

/-- The data between two operations, with what its history allows. -/
structure DriverState (σ α : Type) where
  codec : σ
  data : α
  monitor : Monitor UscHandle
  /-- The last initialisation returned an error. -/
  initFailed : Bool

structure Outcome where
  ecode : Ecode
  calls : List UscCall
  events : List (Event UscHandle)

section

variable {σ α π : Type} (m : CodecModule σ α π)

def driver : Machine (DriverState σ α) (Op π) Outcome where
  step st
    | .init =>
      let (ecode, data, codec, calls) := m.init (st.codec, []) st.data
      (⟨codec, data, st.monitor.after (eventsOf calls), ecode ≠ eaNoErrors⟩,
        ⟨ecode, calls, eventsOf calls⟩)
    | .use p =>
      let (ecode, data, codec, calls) := m.use (st.codec, []) st.data p
      (⟨codec, data, st.monitor.after (eventsOf calls), st.initFailed⟩,
        ⟨ecode, calls, eventsOf calls⟩)
    | .release =>
      let (ecode, data) := m.release st.data
      let events := (m.held st.data).toList.map fun held => .released held.2
      (⟨st.codec, data, st.monitor.after events, st.initFailed⟩, ⟨ecode, [], events⟩)

def DriverState.start (codec : σ) : DriverState σ α := ⟨codec, m.zero, Monitor.initial, false⟩

/-- The life cycle is kept: every call is admitted where it is made, and after a failed
initialisation encoding and decoding fail without a call. -/
def KeepsLifeCycle (codec : σ) (ops : List (Op π)) : Prop :=
  (driver m).Throughout (.start m codec) ops fun _ st op =>
    let outcome := ((driver m).step st op).2
    st.monitor.Obeys outcome.events ∧
      ∀ p, op = .use p → st.initFailed = true →
        outcome.ecode ≠ eaNoErrors ∧ outcome.calls = []

def SoundRun (codec : σ) (ops : List (Op π)) : Prop :=
  (driver m).Throughout (.start m codec) ops fun _ st op =>
    op = .init → OpenSound m.fxns st.codec m.params m.adjust ((m.held st.data).isSome)

/-- An internal structure means that the last initialisation succeeded, and it holds a bank
and a live handle. -/
def Live (st : DriverState σ α) : Prop :=
  ∀ pMem handle, m.held st.data = some (pMem, handle) →
    pMem ≠ 0 ∧ handle ∈ st.monitor.live ∧ st.initFailed = false

theorem step_init (st : DriverState σ α) :
    let opened := uscOpen m.fxns.logging (st.codec, []) m.params m.adjust
    let next := (driver m).step st .init
    next.2.events = eventsOf opened.2.2 ∧
      next.1.monitor = st.monitor.after (eventsOf opened.2.2) ∧ next.1.codec = opened.2.1 := by
  intro opened next
  have hnext : (m.init (st.codec, []) st.data).2.2 = opened.2 := (m.init_spec _ _).1
  have hevents : next.2.events = eventsOf opened.2.2 := by
    rw [← hnext]
    rfl
  exact ⟨hevents, congrArg st.monitor.after hevents, congrArg Prod.fst hnext⟩

/-- A use keeps the internal structure and, with a live handle in it or without one, the order. -/
theorem step_use {st : DriverState σ α} (p : π)
    (hlive : ∀ held, m.held st.data = some held → held.2 ∈ st.monitor.live) :
    let next := (driver m).step st (.use p)
    m.held next.1.data = m.held st.data ∧ st.monitor.Obeys next.2.events ∧
      next.1.monitor = st.monitor ∧
      (m.held st.data = none → next.2.ecode ≠ eaNoErrors ∧ next.2.calls = []) := by
  intro next
  obtain ⟨hsame, hcalls⟩ := m.use_spec (st.codec, []) st.data p
  refine ⟨hsame, ?_⟩
  cases hheld : m.held st.data with
  | none =>
    rw [hheld] at hcalls
    have hnone : next.2.calls = [] := congrArg Prod.snd hcalls.2
    have hevents : next.2.events = [] := by
      change eventsOf next.2.calls = []
      rw [hnone]
      rfl
    exact ⟨by rw [hevents]; trivial, congrArg st.monitor.after hevents,
      fun _ => ⟨hcalls.1, hnone⟩⟩
  | some held =>
    rw [hheld] at hcalls
    obtain ⟨calls, hlog, hused⟩ := hcalls
    have hevents : next.2.events = eventsOf calls := congrArg eventsOf hlog
    obtain ⟨hobeys, hafter⟩ := st.monitor.obeys_used (hlive held hheld) hused
    exact ⟨by rw [hevents]; exact hobeys, (congrArg st.monitor.after hevents).trans hafter,
      fun hnone => by cases hnone⟩

/-- A release is always in order, and gives a structure with a bank back. -/
theorem step_release (st : DriverState σ α) :
    st.monitor.Obeys ((driver m).step st .release).2.events ∧
      ((∀ held, m.held st.data = some held → held.1 ≠ 0) →
        m.held ((driver m).step st .release).1.data = none) := by
  constructor
  · change st.monitor.Obeys ((m.held st.data).toList.map fun held => .released held.2)
    cases m.held st.data with
    | none => trivial
    | some held => exact ⟨trivial, trivial⟩
  · intro hbank
    have hspec := m.release_spec st.data
    change m.held (m.release st.data).2 = none
    cases hheld : m.held st.data with
    | none =>
      rw [hheld] at hspec
      exact hspec
    | some held =>
      rw [hheld] at hspec
      exact hspec (hbank held hheld)

theorem live_init {st : DriverState σ α}
    (hsound : OpenSound m.fxns st.codec m.params m.adjust ((m.held st.data).isSome)) :
    Live m ((driver m).step st .init).1 ∧
      st.monitor.Obeys ((driver m).step st .init).2.events := by
  obtain ⟨-, hheld⟩ := m.init_spec (st.codec, []) st.data
  obtain ⟨hobeys, hopened⟩ := uscOpen_sound m.fxns st.codec m.params m.adjust hsound st.monitor
  obtain ⟨hevents, hmonitor, -⟩ := step_init m st
  refine ⟨?_, by rw [hevents]; exact hobeys⟩
  intro pMem handle hnow
  change m.held (m.init (st.codec, []) st.data).2.1 = some (pMem, handle) at hnow
  -- only a completed `Init` leaves a structure, and it has succeeded
  cases hr : (uscOpen m.fxns.logging (st.codec, []) m.params m.adjust).1 with
  | initialised status params pMem' handle' =>
    rw [hr] at hheld hopened
    obtain ⟨hstatus, hbank, hlive⟩ := hopened
    obtain ⟨rfl, rfl⟩ := Prod.mk.inj (Option.some.inj (hheld.1.symm.trans hnow))
    refine ⟨hbank, by rw [hmonitor]; exact hlive, ?_⟩
    exact decide_eq_false (not_not.2 (hheld.2 hstatus))
  | getInfoFailed status =>
    rw [hr] at hheld hopened
    rw [hheld] at hnow
    exact absurd (by rw [hnow]; rfl) hopened
  | numAllocFailed status =>
    rw [hr] at hheld hopened
    rw [hheld] at hnow
    exact absurd (by rw [hnow]; rfl) hopened
  | memAllocFailed status =>
    rw [hr] at hheld hopened
    rw [hheld] at hnow
    exact absurd (by rw [hnow]; rfl) hopened

theorem live_use {st : DriverState σ α} (h : Live m st) (p : π) :
    Live m ((driver m).step st (.use p)).1 ∧
      st.monitor.Obeys ((driver m).step st (.use p)).2.events ∧
      (st.initFailed = true → ((driver m).step st (.use p)).2.ecode ≠ eaNoErrors ∧
        ((driver m).step st (.use p)).2.calls = []) := by
  obtain ⟨hsame, hobeys, hmonitor, hidle⟩ :=
    step_use m p fun held hheld => (h held.1 held.2 hheld).2.1
  refine ⟨?_, hobeys, fun hf => hidle ?_⟩
  · intro pMem handle hnow
    rw [hmonitor]
    exact h pMem handle (hsame.symm.trans hnow)
  · cases hheld : m.held st.data with
    | none => rfl
    | some held => exact absurd ((h held.1 held.2 hheld).2.2.symm.trans hf) (by decide)

theorem live_release {st : DriverState σ α} (h : Live m st) :
    Live m ((driver m).step st .release).1 ∧
      st.monitor.Obeys ((driver m).step st .release).2.events := by
  obtain ⟨hobeys, hgiven⟩ := step_release m st
  refine ⟨?_, hobeys⟩
  intro pMem handle hnow
  rw [hgiven fun held hheld => (h held.1 held.2 hheld).1] at hnow
  cases hnow

theorem live_step {st : DriverState σ α} (h : Live m st) (op : Op π)
    (hsound : op = .init →
      OpenSound m.fxns st.codec m.params m.adjust ((m.held st.data).isSome)) :
    Live m ((driver m).step st op).1 ∧
      st.monitor.Obeys ((driver m).step st op).2.events ∧
      ∀ p, op = .use p → st.initFailed = true →
        ((driver m).step st op).2.ecode ≠ eaNoErrors ∧ ((driver m).step st op).2.calls = [] := by
  cases op with
  | init =>
    obtain ⟨hlive, hobeys⟩ := live_init m (hsound rfl)
    exact ⟨hlive, hobeys, fun p hp => by cases hp⟩
  | use p =>
    obtain ⟨hlive, hobeys, hfailed⟩ := live_use m h p
    exact ⟨hlive, hobeys, fun _ _ => hfailed⟩
  | release =>
    obtain ⟨hlive, hobeys⟩ := live_release m h
    exact ⟨hlive, hobeys, fun p hp => by cases hp⟩

theorem keepsLifeCycle_of_sound (codec : σ) (ops : List (Op π)) (h : SoundRun m codec ops) :
    KeepsLifeCycle m codec ops := by
  have h0 : Live m (DriverState.start m codec) := by
    intro pMem handle hheld
    have hnone := m.held_zero
    rw [show m.held m.zero = some (pMem, handle) from hheld] at hnone
    cases hnone
  refine (h.invariant _ h0 fun _ st op hsound hlive => (live_step m hlive op hsound).1).mono _ ?_
  intro pre op hall
  obtain ⟨hsound, hlive⟩ := hall
  exact (live_step m hlive op hsound).2

end

/-- One call of `m_evs_dec` or `m_evs_enc`: the members its caller has set, and the packets. -/
structure Request (α : Type) (n k : Nat) where
  settings : α
  input : Option (UpdPacket n)
  output : Option (UpdPacket k)

theorem UsesHandle.idle {σ : Type} (s : σ × List UscCall) (ecode : Ecode) (handle : UscHandle) :
    UsesHandle s s ecode (some handle) :=
  ⟨[], (List.append_nil _).symm, fun _ he => absurd he List.not_mem_nil⟩

section

variable {σ : Type} (fxns : UscFxns σ) {n k : Nat}

theorem mEvsDec_calls (s : σ × List UscCall) (evsDec : CodecDecData) (input : Option (UpdPacket n))
    (output : Option (UpdPacket k)) :
    let r := mEvsDec fxns.logging s evsDec input output
    r.evsDec.internal = evsDec.internal ∧
      UsesHandle s r.next r.ecode (evsDec.internal.map (·.decHandle)) := by
  intro r
  have hnull : eMEvsUnexpectedNullPointer ≠ eaNoErrors := by decide
  cases hi : evsDec.internal with
  | none =>
    have hr : r = ⟨eMEvsUnexpectedNullPointer, evsDec, output, s⟩ := by
      simp only [r, mEvsDec, hi]
    rw [hr]
    exact ⟨hi, hnull, rfl⟩
  | some internal =>
    cases output with
    | none =>
      have hr : r = ⟨eMEvsUnexpectedNullPointer, evsDec, none, s⟩ := by
        simp only [r, mEvsDec, hi]
      rw [hr]
      exact ⟨hi, UsesHandle.idle _ _ _⟩
    | some linPcm =>
      cases input with
      | none =>
        have hr : r = ⟨eMEvsUnexpectedNullPointer, evsDec, some linPcm, s⟩ := by
          simp only [r, mEvsDec, hi]
        rw [hr]
        exact ⟨hi, UsesHandle.idle _ _ _⟩
      | some packet =>
        simp only [r, mEvsDec, hi, UscFxns.logging, Answer.logged]
        split
        · exact ⟨rfl, UsesHandle.idle _ _ _⟩
        · split
          · exact ⟨rfl, [_], rfl, by simp [eventsOf, eventOf]⟩
          · split
            · exact ⟨rfl, [_, _], List.append_assoc _ _ _, by simp [eventsOf, eventOf]⟩
            · exact ⟨rfl, [_, _], List.append_assoc _ _ _, by simp [eventsOf, eventOf]⟩

theorem mEvsEnc_calls (s : σ × List UscCall) (evsEnc : CodecEncData) (input : Option (UpdPacket n))
    (output : Option (UpdPacket k)) :
    let r := mEvsEnc fxns.logging s evsEnc input output
    r.evsEnc.internal = evsEnc.internal ∧
      UsesHandle s r.next r.ecode (evsEnc.internal.map (·.encHandle)) := by
  intro r
  have hnull : eMEvsUnexpectedNullPointer ≠ eaNoErrors := by decide
  cases hi : evsEnc.internal with
  | none =>
    have hr : r = ⟨eMEvsUnexpectedNullPointer, evsEnc, output, s⟩ := by
      simp only [r, mEvsEnc, hi]
    rw [hr]
    exact ⟨hi, hnull, rfl⟩
  | some internal =>
    cases input with
    | none =>
      have hr : r = ⟨eMEvsUnexpectedNullPointer, evsEnc, output, s⟩ := by
        simp only [r, mEvsEnc, hi]
      rw [hr]
      exact ⟨hi, UsesHandle.idle _ _ _⟩
    | some linPcm =>
      cases output with
      | none =>
        have hr : r = ⟨eMEvsUnexpectedNullPointer, evsEnc, none, s⟩ := by
          simp only [r, mEvsEnc, hi]
        rw [hr]
        exact ⟨hi, UsesHandle.idle _ _ _⟩
      | some packet =>
        simp only [r, mEvsEnc, hi, UscFxns.logging, Answer.logged]
        split
        · exact ⟨rfl, UsesHandle.idle _ _ _⟩
        · split
          · exact ⟨rfl, UsesHandle.idle _ _ _⟩
          · split
            · exact ⟨rfl, [_], rfl, by simp [eventsOf, eventOf]⟩
            · split
              · exact ⟨rfl, [_, _], List.append_assoc _ _ _, by simp [eventsOf, eventOf]⟩
              · exact ⟨hi, [_, _], List.append_assoc _ _ _, by simp [eventsOf, eventOf]⟩

def decoderModule : CodecModule σ CodecDecData (Request CodecDecData n k) where
  fxns := fxns
  params := decParams
  adjust := adjustDecParams
  held evsDec := evsDec.internal.map fun i => (i.pMem, i.decHandle)
  zero := {}
  init s evsDec := mEvsDecInit fxns.logging s evsDec
  use s evsDec p :=
    let r := mEvsDec fxns.logging s { p.settings with internal := evsDec.internal } p.input p.output
    (r.ecode, r.evsDec, r.next)
  release := mEvsDecRelease
  held_zero := rfl
  init_spec := by
    intro s evsDec
    simp only [mEvsDecInit]
    rcases uscOpen fxns.logging s decParams adjustDecParams with ⟨opened, next⟩
    cases opened with
    | initialised status params pMem handle =>
      dsimp only
      by_cases hok : status = uscNoError
      · rw [if_neg (not_not.2 hok)]
        exact ⟨rfl, rfl, fun _ => rfl⟩
      · rw [if_pos hok]
        exact ⟨rfl, rfl, fun h => absurd h hok⟩
    | getInfoFailed status => exact ⟨rfl, rfl⟩
    | numAllocFailed status => exact ⟨rfl, rfl⟩
    | memAllocFailed status => exact ⟨rfl, rfl⟩
  use_spec := by
    intro s evsDec p
    obtain ⟨hsame, huses⟩ := mEvsDec_calls fxns s { p.settings with internal := evsDec.internal }
      p.input p.output
    refine ⟨congrArg (Option.map _) hsame, ?_⟩
    rw [Option.map_map]
    exact huses
  release_spec := by
    intro evsDec
    cases hi : evsDec.internal with
    | none => simp [mEvsDecRelease, hi]
    | some internal =>
      intro hbank
      simp [mEvsDecRelease, hi, hbank]

def encoderModule : CodecModule σ CodecEncData (Request CodecEncData n k) where
  fxns := fxns
  params := {}
  adjust := adjustEncParams
  held evsEnc := evsEnc.internal.map fun i => (i.pMem, i.encHandle)
  zero := {}
  init s evsEnc := mEvsEncInit fxns.logging s evsEnc
  use s evsEnc p :=
    let r := mEvsEnc fxns.logging s { p.settings with internal := evsEnc.internal } p.input p.output
    (r.ecode, r.evsEnc, r.next)
  release := mEvsEncRelease
  held_zero := rfl
  init_spec := by
    intro s evsEnc
    simp only [mEvsEncInit]
    rcases uscOpen fxns.logging s {} adjustEncParams with ⟨opened, next⟩
    cases opened with
    | initialised status params pMem handle =>
      dsimp only
      by_cases hok : status = uscNoError
      · rw [if_neg (not_not.2 hok)]
        exact ⟨rfl, rfl, fun _ => rfl⟩
      · rw [if_pos hok]
        exact ⟨rfl, rfl, fun h => absurd h hok⟩
    | getInfoFailed status => exact ⟨rfl, rfl⟩
    | numAllocFailed status => exact ⟨rfl, rfl⟩
    | memAllocFailed status => exact ⟨rfl, rfl⟩
  use_spec := by
    intro s evsEnc p
    obtain ⟨hsame, huses⟩ := mEvsEnc_calls fxns s { p.settings with internal := evsEnc.internal }
      p.input p.output
    refine ⟨congrArg (Option.map _) hsame, ?_⟩
    rw [Option.map_map]
    exact huses
  release_spec := by
    intro evsEnc
    cases hi : evsEnc.internal with
    | none => simp [mEvsEncRelease, hi]
    | some internal =>
      intro hbank
      simp [mEvsEncRelease, hi, hbank]

/-- The life cycle is kept by both modules in every run whose initialisations are sound. -/
theorem lifeCycle_of_sound (codec : σ) :
    (∀ ops : List (Op (Request CodecDecData n k)),
      SoundRun (decoderModule fxns) codec ops → KeepsLifeCycle (decoderModule fxns) codec ops) ∧
    (∀ ops : List (Op (Request CodecEncData n k)),
      SoundRun (encoderModule fxns) codec ops → KeepsLifeCycle (encoderModule fxns) codec ops) :=
  ⟨keepsLifeCycle_of_sound _ codec, keepsLifeCycle_of_sound _ codec⟩

end

theorem countingCodec_openSound (decodeStatus : Nat → UscStatus) (s : Nat) (params : UscOption)
    (adjust : UscOption → UscOption) (held : Prop) :
    OpenSound (countingCodec decodeStatus) s params adjust held where
  info := fun h => absurd rfl h
  numAlloc := fun _ => ⟨⟨fun _ => rfl, fun _ => rfl⟩, fun h => absurd rfl h⟩
  memAlloc := fun _ _ h => absurd rfl h
  init := fun _ _ _ => ⟨show 0x1000 ≠ 0 by decide, rfl⟩

def plainRun : List (Op (Request CodecDecData 8 320)) :=
  [.init, .use ⟨{}, some (UpdPacket.zero 8), some (UpdPacket.zero 320)⟩, .release]

theorem lifeCycle_of_sound_plainRun :
    KeepsLifeCycle (decoderModule (countingCodec fun _ => uscNoError)) 0 plainRun :=
  (lifeCycle_of_sound (n := 8) (k := 320) (countingCodec fun _ => uscNoError) 0).1 plainRun
    fun _ _ _ _ _ => countingCodec_openSound _ _ _ _ _

def initFails : UscFxns Nat :=
  { countingCodec fun _ => uscNoError with init := fun s _ _ _ => ⟨-1, 0, s⟩ }

def numAllocFails : UscFxns Nat :=
  { countingCodec fun _ => uscNoError with numAlloc := fun s _ => ⟨-1, evsNbufs, s⟩ }

/-- After a failed `Init` the decoder is called all the same, and after a failed `NumAlloc` the
encoder goes on to `MemAlloc`. -/
theorem not_keepsLifeCycle :
    ¬ KeepsLifeCycle (decoderModule initFails) 0 plainRun ∧
      ¬ KeepsLifeCycle (encoderModule (n := 320) (k := 8) numAllocFails) 0 [.init] := by
  constructor
  · intro h
    obtain ⟨-, hfailed⟩ := h [.init] _ [.release] rfl
    exact absurd (hfailed _ rfl rfl).2 (List.cons_ne_nil _ _)
  · intro h
    obtain ⟨⟨-, hsized, -⟩, -⟩ := h [] .init [] rfl
    have hfalse : decide ((-1 : UscStatus) = uscNoError ∧ evsNbufs = evsNbufs) = true := hsized
    exact absurd hfalse (by decide)

end RtpServer.Verify.LifeCycle
