import RtpServer.Library.Machine
import RtpServer.Source.UscEvs

/-!
# The EVS codec's objects over any run of calls

The functions of the table applied to any number of handles in any order. An object keeps
the direction it was created for and modes that were checked, a refused call changes
nothing, and the objects of other handles are left alone.
-/
namespace RtpServer.Verify.EvsWrapper

open RtpServer.Library RtpServer.Source RtpServer.Source.Usc RtpServer.Source.UscEvs
open RtpServer.Source.EvsSerial

section

variable {ε δ : Type} (lib : IntelEvs ε δ)

/-- Created for one direction, with modes that passed the checks. -/
structure WellFormed (obj : EvsObject ε δ) : Prop where
  direction : obj.header.direction = uscEncode ∨ obj.header.direction = uscDecode
  vad : checkVad obj.header.vad = true
  rate : obj.header.direction = uscEncode → 0 ≤ checkRateEvs obj.header.bitrate

/-- What a call that answers `status` may do to a well-formed object. -/
structure Keeps (status : UscStatus) (obj obj' : EvsObject ε δ) : Prop where
  refused : status ≠ uscNoError → obj' = obj
  direction : obj'.header.direction = obj.header.direction
  wellFormed : WellFormed obj'

theorem Keeps.refl {obj : EvsObject ε δ} (h : WellFormed obj) (status : UscStatus) :
    Keeps status obj obj := ⟨fun _ => rfl, rfl, h⟩

theorem modesStatus_ok {modes : UscModes} (h : ¬ modesStatus modes ≠ uscNoError) :
    checkVad modes.vad = true ∧ 0 ≤ checkRateEvs modes.bitrate := by
  unfold modesStatus at h
  split at h
  · exact absurd (by decide) h
  · rename_i hvad
    split at h
    · exact absurd (by decide) h
    · rename_i hrate
      exact ⟨by simpa using hvad, Int.not_lt.1 hrate⟩

/-- A call that stores modes that were checked. -/
theorem Keeps.modes {obj obj' : EvsObject ε δ} (h : WellFormed obj) {modes : UscModes}
    (hmodes : ¬ modesStatus modes ≠ uscNoError)
    (hdirection : obj'.header.direction = obj.header.direction)
    (hvad : obj'.header.vad = modes.vad) (hrate : obj'.header.bitrate = modes.bitrate) :
    Keeps uscNoError obj obj' := by
  obtain ⟨hvad', hrate'⟩ := modesStatus_ok hmodes
  refine ⟨fun hne => absurd rfl hne, hdirection, ?_, ?_, fun _ => ?_⟩
  · rw [hdirection]
    exact h.direction
  · rw [hvad]
    exact hvad'
  · rw [hrate]
    exact hrate'

theorem control_keeps {obj : EvsObject ε δ} (h : WellFormed obj) (modes : UscModes) :
    Keeps (UscEvs.control lib modes obj).1 obj (UscEvs.control lib modes obj).2 := by
  unfold UscEvs.control
  split
  · exact Keeps.refl h _
  · rename_i hmodes
    rcases h.direction with hd | hd
    · rw [if_pos hd]
      exact .modes h hmodes rfl rfl rfl
    · have hne : ¬ obj.header.direction = uscEncode := by rw [hd]; decide
      rw [if_neg hne, if_pos hd]
      exact .modes h hmodes rfl rfl rfl

theorem reinit_keeps {obj : EvsObject ε δ} (h : WellFormed obj) (modes : UscModes) :
    Keeps (reinit lib modes obj).1 obj (reinit lib modes obj).2 := by
  unfold reinit
  split
  · exact Keeps.refl h _
  · rename_i hmodes
    rcases h.direction with hd | hd
    · rw [if_pos hd]
      exact .modes h hmodes rfl rfl rfl
    · have hne : ¬ obj.header.direction = uscEncode := by rw [hd]; decide
      rw [if_neg hne, if_pos hd]
      exact .modes h hmodes rfl rfl rfl

theorem encodeStatus_ok {input : UscPcmStream} {pcmType : UscPcmType} {obj : EvsObject ε δ}
    (h : ¬ encodeStatus input pcmType obj ≠ uscNoError) :
    obj.header.direction = uscEncode ∧ 0 ≤ checkRateEvs input.bitrate := by
  unfold encodeStatus at h
  split at h
  · exact absurd (by decide) h
  · split at h
    · exact absurd (by decide) h
    · rename_i hd
      split at h
      · exact absurd (by decide) h
      · rename_i hrate
        exact ⟨not_not.1 hd, Int.not_lt.1 hrate⟩

/-- A frame that is encoded was asked for at a rate of the table, from an encoder. -/
theorem encode_keeps {obj obj' : EvsObject ε δ} (h : WellFormed obj) {input : UscPcmStream}
    {pcmType : UscPcmType} {buffer : List Uint8} {status : UscStatus} {out : Option EvsEncoded}
    (hr : encode lib input pcmType buffer obj = some (status, obj', out)) :
    Keeps status obj obj' ∧
      (out.isSome → obj.header.direction = uscEncode ∧ 0 ≤ checkRateEvs input.bitrate) := by
  unfold encode at hr
  split at hr
  · obtain ⟨rfl, rfl, rfl⟩ := hr
    exact ⟨Keeps.refl h _, fun ho => absurd ho Bool.false_ne_true⟩
  · rename_i hstatus
    obtain ⟨hd, hrate⟩ := encodeStatus_ok hstatus
    obtain ⟨r, -, hout⟩ := Option.map_eq_some_iff.1 hr
    obtain ⟨rfl, rfl, rfl⟩ := hout
    exact ⟨⟨fun hne => absurd rfl hne, rfl, ⟨h.direction, h.vad, fun _ => hrate⟩⟩,
      fun _ => ⟨hd, hrate⟩⟩

theorem decodeStatus_ok {input : Option EvsBitstream} {obj : EvsObject ε δ}
    (h : ¬ decodeStatus input obj ≠ uscNoError) :
    obj.header.direction = uscDecode ∧
      ∀ stream, input = some stream → 0 ≤ evsRate2EvsMode stream.bitrate := by
  unfold decodeStatus at h
  split at h
  · exact absurd (by decide) h
  · rename_i hd
    refine ⟨not_not.1 hd, ?_⟩
    rintro stream rfl
    dsimp only at h
    split at h
    · exact absurd (by decide) h
    · rename_i hrate
      exact Int.not_lt.1 hrate

/-- A frame that is decoded came with a rate the decoder has a mode for, to a decoder. -/
theorem decode_keeps {obj : EvsObject ε δ} (h : WellFormed obj) (input : Option EvsBitstream) :
    Keeps (decode lib input obj).1 obj (decode lib input obj).2.1 ∧
      ((decode lib input obj).2.2.isSome → obj.header.direction = uscDecode ∧
        ∀ stream, input = some stream → 0 ≤ evsRate2EvsMode stream.bitrate) := by
  unfold decode
  split
  · exact ⟨Keeps.refl h _, fun ho => absurd ho Bool.false_ne_true⟩
  · rename_i hstatus
    obtain ⟨hd, hrate⟩ := decodeStatus_ok hstatus
    have hne : ¬ obj.header.direction = uscEncode := by rw [hd]; decide
    exact ⟨⟨fun hne => absurd rfl hne, rfl, ⟨h.direction, h.vad, fun he => absurd he hne⟩⟩,
      fun _ => ⟨hd, hrate⟩⟩

theorem initStatus_ok {options : UscEvsOption} {bank : UscMemBank}
    (h : ¬ initStatus options bank ≠ uscNoError) :
    bank.pMem ≠ 0 ∧ checkVad options.modes.vad = true ∧ 0 ≤ checkRateEvs options.modes.bitrate := by
  unfold initStatus at h
  split at h
  · exact absurd (by decide) h
  · rename_i hmem
    split at h
    · exact absurd (by decide) h
    · split at h
      · exact absurd (by decide) h
      · rename_i hvad
        split at h
        · exact absurd (by decide) h
        · split at h
          · exact absurd (by decide) h
          · rename_i hrate
            exact ⟨hmem, by simpa using hvad, Int.not_lt.1 hrate⟩

/-- A successful `Init` creates a well-formed object for the direction asked for, at the
address of the bank. -/
theorem init_creates {options : UscEvsOption} {bank jb : UscMemBank} {handle : UscHandle}
    {obj : EvsObject ε δ} (hok : (init lib options bank jb handle obj).1 = uscNoError) :
    (init lib options bank jb handle obj).2.1 = bank.pMem ∧ bank.pMem ≠ 0 ∧
      WellFormed (init lib options bank jb handle obj).2.2 ∧
      (init lib options bank jb handle obj).2.2.header.direction = options.direction := by
  unfold init at hok ⊢
  split at hok
  · rename_i hstatus
    exact absurd hok hstatus
  · rename_i hstatus
    obtain ⟨hmem, hvad, hrate⟩ := initStatus_ok hstatus
    rw [if_neg hstatus]
    dsimp only at hok ⊢
    by_cases henc : options.direction = uscEncode
    · rw [if_pos henc]
      exact ⟨rfl, hmem, ⟨Or.inl henc, hvad, fun _ => hrate⟩, rfl⟩
    · rw [if_neg henc] at hok ⊢
      by_cases hdec : options.direction = uscDecode
      · rw [if_pos hdec] at hok ⊢
        have hformed : ∀ (header : EvsHandleHeader) (dec : δ),
            header.direction = options.direction → header.vad = options.modes.vad →
            WellFormed { obj with header := header, dec := dec } := fun header dec hd hv =>
          ⟨Or.inr (hd.trans hdec), by rw [hv]; exact hvad, fun he => absurd (hd.symm.trans he) henc⟩
        split at hok
        · split at hok
          · exact absurd hok (show uscBadDataPointer ≠ uscNoError by decide)
          · split at hok
            · exact absurd hok (show uscNotInitialized ≠ uscNoError by decide)
            · rename_i hjb hmem' hsize
              rw [if_pos hjb, if_neg hmem', if_neg hsize]
              exact ⟨rfl, hmem, hformed _ _ rfl rfl, rfl⟩
        · rename_i hjb
          rw [if_neg hjb]
          exact ⟨rfl, hmem, hformed _ _ rfl rfl, rfl⟩
      · rw [if_neg hdec] at hok
        exact absurd hok (show uscNoOperation ≠ uscNoError by decide)

/-- A call of the function table. -/
inductive ApiCall where
  | init (options : UscEvsOption) (bank jb : UscMemBank)
  | getInfo (params : UscEvsOption) (handle : UscHandle)
  | reinit (modes : UscModes) (handle : UscHandle)
  | control (modes : UscModes) (handle : UscHandle)
  | encode (input : UscPcmStream) (pcmType : UscPcmType) (buffer : List Uint8) (handle : UscHandle)
  | decode (input : Option EvsBitstream) (handle : UscHandle)

def ApiCall.handle : ApiCall → UscHandle
  | .init _ bank _ => bank.pMem
  | .getInfo _ handle => handle
  | .reinit _ handle => handle
  | .control _ handle => handle
  | .encode _ _ _ handle => handle
  | .decode _ handle => handle

/-- The rate a frame is encoded or decoded at, where the caller gives one. -/
def ApiCall.rate : ApiCall → Option Int
  | .encode input _ _ _ => some input.bitrate
  | .decode input _ => input.map (·.bitrate)
  | _ => none

/-- What a call gives back. -/
structure Answers where
  status : UscStatus
  info : Option UscEvsOption := none
  encoded : Option EvsEncoded := none
  decoded : Option EvsDecoded := none

/-- The blocks and the handles of the objects created in them. -/
structure ApiState (ε δ : Type) where
  memory : UscHandle → EvsObject ε δ
  created : List UscHandle

def ApiState.store (s : ApiState ε δ) (handle : UscHandle) (obj : EvsObject ε δ) : ApiState ε δ :=
  { s with memory := fun h => if h = handle then obj else s.memory h }

/-- One call; an `encode` whose frame does not fit the buffer has no answer in C and changes
nothing here. -/
def api : Machine (ApiState ε δ) ApiCall Answers where
  step s
    | .init options bank jb =>
      let r := UscEvs.init lib options bank jb 0 (s.memory bank.pMem)
      let s' := s.store bank.pMem r.2.2
      (if r.1 = uscNoError then { s' with created := bank.pMem :: s'.created } else s',
        { status := r.1 })
    | .getInfo params handle =>
      (s, { status := uscNoError, info := some (getInfo lib (some (s.memory handle)) params) })
    | .reinit modes handle =>
      let r := UscEvs.reinit lib modes (s.memory handle)
      (s.store handle r.2, { status := r.1 })
    | .control modes handle =>
      let r := UscEvs.control lib modes (s.memory handle)
      (s.store handle r.2, { status := r.1 })
    | .encode input pcmType buffer handle =>
      match UscEvs.encode lib input pcmType buffer (s.memory handle) with
      | some r => (s.store handle r.2.1, { status := r.1, encoded := r.2.2 })
      | none => (s, { status := uscNoError })
    | .decode input handle =>
      let r := UscEvs.decode lib input (s.memory handle)
      (s.store handle r.2.1, { status := r.1, decoded := r.2.2 })

/-- A call its caller may make: memory for a new object is not that of an old one, and other
calls name an object created before. -/
def Permitted (s : ApiState ε δ) (c : ApiCall) : Prop :=
  match c with
  | .init _ bank _ => bank.pMem ∉ s.created
  | c => c.handle ∈ s.created

/-- What one call may do. -/
structure Sound (s : ApiState ε δ) (c : ApiCall) : Prop where
  others : ∀ h, h ≠ c.handle → ((api lib).step s c).1.memory h = s.memory h
  directions : ∀ h ∈ s.created,
    (((api lib).step s c).1.memory h).header.direction = (s.memory h).header.direction
  refused : ((api lib).step s c).2.status ≠ uscNoError →
    ∀ h ∈ s.created, ((api lib).step s c).1.memory h = s.memory h
  encoded : ((api lib).step s c).2.encoded.isSome →
    (s.memory c.handle).header.direction = uscEncode ∧ ∀ rate ∈ c.rate, 0 ≤ checkRateEvs rate
  decoded : ((api lib).step s c).2.decoded.isSome →
    (s.memory c.handle).header.direction = uscDecode ∧ ∀ rate ∈ c.rate, 0 ≤ evsRate2EvsMode rate

def AllWellFormed (s : ApiState ε δ) : Prop := ∀ h ∈ s.created, WellFormed (s.memory h)

theorem store_self (s : ApiState ε δ) (handle : UscHandle) (obj : EvsObject ε δ) :
    (s.store handle obj).memory handle = obj := if_pos rfl

theorem store_ne (s : ApiState ε δ) {h handle : UscHandle} (hne : h ≠ handle)
    (obj : EvsObject ε δ) : (s.store handle obj).memory h = s.memory h := if_neg hne

theorem store_keeps {s : ApiState ε δ} {handle : UscHandle} {obj : EvsObject ε δ}
    {status : UscStatus} (hk : Keeps status (s.memory handle) obj) :
    (∀ h, ((s.store handle obj).memory h).header.direction = (s.memory h).header.direction) ∧
      (status ≠ uscNoError → ∀ h, (s.store handle obj).memory h = s.memory h) ∧
      (AllWellFormed s → AllWellFormed (s.store handle obj)) := by
  refine ⟨fun h => ?_, fun hne h => ?_, fun hall h hh => ?_⟩
  all_goals by_cases he : h = handle
  · subst he
    rw [store_self]
    exact hk.direction
  · rw [store_ne s he]
  · subst he
    rw [store_self]
    exact hk.refused hne
  · rw [store_ne s he]
  · subst he
    rw [store_self]
    exact hk.wellFormed
  · rw [store_ne s he]
    exact hall h hh

theorem init_sound {s : ApiState ε δ} (hall : AllWellFormed s) {options : UscEvsOption}
    {bank jb : UscMemBank} (hfresh : bank.pMem ∉ s.created) :
    AllWellFormed ((api lib).step s (.init options bank jb)).1 ∧
      Sound lib s (.init options bank jb) := by
  have hmemory : ∀ h, h ≠ bank.pMem →
      ((api lib).step s (.init options bank jb)).1.memory h = s.memory h := by
    intro h hne
    change (if (UscEvs.init lib options bank jb 0 (s.memory bank.pMem)).1 = uscNoError then _
      else _ : ApiState ε δ).memory h = _
    split <;> exact store_ne s hne _
  have hold : ∀ h ∈ s.created,
      ((api lib).step s (.init options bank jb)).1.memory h = s.memory h := fun h hh =>
    hmemory h fun he => hfresh (he ▸ hh)
  refine ⟨?_, hmemory, fun h hh => by rw [hold h hh], fun _ => hold,
    fun ho => absurd ho Bool.false_ne_true, fun ho => absurd ho Bool.false_ne_true⟩
  intro h hh
  by_cases hok : (UscEvs.init lib options bank jb 0 (s.memory bank.pMem)).1 = uscNoError
  · have hstep : ((api lib).step s (.init options bank jb)).1 =
        { s.store bank.pMem (UscEvs.init lib options bank jb 0 (s.memory bank.pMem)).2.2 with
          created := bank.pMem :: s.created } := if_pos hok
    rw [hstep] at hh
    rcases List.mem_cons.1 hh with rfl | hh
    · rw [hstep]
      change WellFormed ((s.store bank.pMem _).memory bank.pMem)
      rw [store_self]
      exact (init_creates lib hok).2.2.1
    · rw [hold h hh]
      exact hall h hh
  · have hstep : ((api lib).step s (.init options bank jb)).1 =
        s.store bank.pMem (UscEvs.init lib options bank jb 0 (s.memory bank.pMem)).2.2 :=
      if_neg hok
    rw [hstep] at hh
    rw [hold h hh]
    exact hall h hh

end

/-- Objects without a state: every frame is encoded without bits and decoded into silence. -/
def silentLib : IntelEvs Unit Unit where
  encoderSize := 8
  encoderInit _ _ := ()
  encoderGetControl _ := {}
  encoderSetParams _ _ := ()
  encoderExec _ _ _ := ((), Buffer.replicate _ ⟨0, -1⟩)
  decoderSize := 8
  decoderInit _ _ := ()
  decoderJbInit _ _ := ()
  decoderGetControl _ := { outputFsFx := 16000 }
  decoderSetParams _ _ := ()
  decoderExec _ _ := ((), List.replicate 320 0)

def blankObject : EvsObject Unit Unit := ⟨⟨0, 0, 0, 0, 0, 0, 0, 0, 0, 0, 0⟩, (), ()⟩

end RtpServer.Verify.EvsWrapper
