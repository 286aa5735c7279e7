import RtpServer.Verify.EvsWrapper
import RtpServer.Verify.LifeCycle

/-!
# Opening the EVS codec

What the two initialisation functions leave behind when the codec under them is the one of
`uscEVS.c`: of their calls only `Init` can fail, for want of a bank, and the life cycle is
broken exactly by the requests that reach the codec after such a failure.
-/
namespace RtpServer.Verify.EvsOpening

open RtpServer.Library RtpServer.Source RtpServer.Source.TypeDef RtpServer.Source.Usc
open RtpServer.Source.Upd RtpServer.Source.EvsCodec RtpServer.Source.UscEvs
open RtpServer.Verify.Decoder RtpServer.Verify.EvsWrapper RtpServer.Verify.LifeCycle

section

variable {ε δ : Type} (lib : IntelEvs ε δ) (ipps : IppsMalloc)

/-- The options `Init` is called with by `m_evs_dec_init`. -/
def decOptions : UscEvsOption :=
  { direction := uscDecode
    modes := { bitrate := 128000, truncate := 1, vad := 1 }
    framesize := 320
    pcmType := ⟨16000, 16, 1⟩ }

def encOptions : UscEvsOption :=
  { direction := uscEncode
    modes := { bitrate := 6600, truncate := 1, vad := 1 }
    framesize := 320
    pcmType := ⟨16000, 16, 1⟩ }

def startedDecoder (obj : EvsObject ε δ) : EvsObject ε δ :=
  { obj with
    header := { obj.header with
      direction := uscDecode, trunc := 1, vad := 1, bitrate := 128000, bitrateOld := 128000
      usedRate := 128000, resetFlag := 0, resetFlagOld := 1, bitstreamformat := 0 }
    dec := lib.decoderInit obj.dec { outputFsFx := 16000, totalBrateFx := 128000 } }

theorem initStatus_modules {bank : UscMemBank} (hmem : bank.pMem ≠ 0) (hsize : 0 < bank.nbytes) :
    initStatus decOptions bank = uscNoError ∧ initStatus encOptions bank = uscNoError := by
  have hbytes : ¬ bank.nbytes ≤ 0 := Int.not_le.2 hsize
  unfold initStatus
  rw [if_neg hmem, if_neg hbytes, if_neg hmem, if_neg hbytes]
  exact ⟨by decide, by decide⟩

theorem init_dec {bank : UscMemBank} (hmem : bank.pMem ≠ 0) (hsize : 0 < bank.nbytes)
    (handle : UscHandle) (obj : EvsObject ε δ) :
    UscEvs.init lib decOptions bank ⟨0, 0⟩ handle obj =
      (uscNoError, bank.pMem, startedDecoder lib obj) := by
  rw [UscEvs.init, if_neg (not_not.2 (initStatus_modules hmem hsize).1)]
  rfl

/-- `Init` of either module fails exactly for want of a bank. -/
theorem init_ok_iff (bank : UscMemBank) (hsize : 0 < bank.nbytes) (handle : UscHandle)
    (obj : EvsObject ε δ) :
    ((UscEvs.init lib decOptions bank ⟨0, 0⟩ handle obj).1 = uscNoError ↔ bank.pMem ≠ 0) ∧
      ((UscEvs.init lib encOptions bank ⟨0, 0⟩ handle obj).1 = uscNoError ↔ bank.pMem ≠ 0) := by
  have hstatus : ∀ options : UscEvsOption, options.jbmEnabled = 0 →
      (options.direction = uscEncode ∨ options.direction = uscDecode) →
      (UscEvs.init lib options bank ⟨0, 0⟩ handle obj).1 = initStatus options bank := by
    intro options hjb hdir
    rw [UscEvs.init]
    split
    · rfl
    · next hok =>
      rw [not_not.1 hok]
      rcases hdir with hdir | hdir
      · simp [hdir]
      · simp [hdir, hjb, uscEncode, uscDecode]
  have hnull : ∀ options, bank.pMem = 0 → initStatus options bank ≠ uscNoError := by
    intro options hbank
    rw [initStatus, if_pos hbank]
    decide
  rw [hstatus decOptions rfl (Or.inr rfl), hstatus encOptions rfl (Or.inl rfl)]
  constructor
  · exact ⟨fun hok hbank => hnull _ hbank hok, fun hbank => (initStatus_modules hbank hsize).1⟩
  · exact ⟨fun hok hbank => hnull _ hbank hok, fun hbank => (initStatus_modules hbank hsize).2⟩

def decoderBytes : Int := lib.decoderSize + evsHandleHeaderSize

def encoderBytes : Int := lib.encoderSize + evsHandleHeaderSize

theorem bytes_pos : 0 < decoderBytes lib ∧ 0 < encoderBytes lib := by
  unfold decoderBytes encoderBytes evsHandleHeaderSize
  omega

/-- The address of the decoder's bank. -/
def decoderBlock (s : EvsWorld ε δ) : Nat := ipps.address (s.blocks + 1) (decoderBytes lib)

/-- Blocks at multiples of a page. -/
def spacious : IppsMalloc := ⟨fun block _ => 4096 * (block + 1), fun _ => 0⟩

def blankWorld : EvsWorld Unit Unit := ⟨{}, fun _ => blankObject, 0⟩

theorem spacious_address (block : Nat) (nbytes : Int) : spacious.address block nbytes ≠ 0 := by
  change 4096 * (block + 1) ≠ 0
  omega

/-- The process after a successful `m_evs_dec_init`. -/
def openedDecoder (s : EvsWorld ε δ) : EvsWorld ε δ :=
  EvsWorld.store
    { s with params := getInfo lib none { toUscOption := decParams }, blocks := s.blocks + 2 }
    (decoderBlock lib ipps s) (startedDecoder lib (s.memory (decoderBlock lib ipps s)))

/-- The calls made when none fails before `Init`. -/
theorem uscOpen_reaches_init {σ : Type} {fxns : UscFxns σ} {s : σ} {params : UscOption}
    {adjust : UscOption → UscOption} (hinfo : (infoAnswer fxns s params).status = uscNoError)
    (hnum : (numAnswer fxns s params adjust).status = uscNoError)
    (hmem : (memAnswer fxns s params adjust).status = uscNoError) :
    uscOpen fxns s params adjust =
      (.initialised (initAnswer fxns s params adjust).status (adjusted fxns s params adjust)
        (bankAnswer fxns s params adjust).value (initAnswer fxns s params adjust).value,
        (initAnswer fxns s params adjust).next) :=
  (if_neg (not_not.2 hinfo)).trans ((if_neg fun h => h.1 hnum).trans (if_neg (not_not.2 hmem)))

theorem uscOpen_dec (s : EvsWorld ε δ) (hmem : decoderBlock lib ipps s ≠ 0) :
    uscOpen (uscEvsFxns lib ipps) s decParams adjustDecParams =
      (.initialised uscNoError decOptions.toUscOption (decoderBlock lib ipps s)
        (decoderBlock lib ipps s), openedDecoder lib ipps s) := by
  have hinit := @init_dec _ _ lib ⟨decoderBlock lib ipps s, decoderBytes lib⟩ hmem
    (bytes_pos lib).1 (ipps.held s.blocks) (s.memory (decoderBlock lib ipps s))
  refine (uscOpen_reaches_init rfl rfl rfl).trans ?_
  exact congrArg (fun r => (UscOpened.initialised r.1 decOptions.toUscOption
    (decoderBlock lib ipps s) r.2.1, EvsWorld.store
      { s with params := getInfo lib none { toUscOption := decParams }, blocks := s.blocks + 2 }
      (decoderBlock lib ipps s) r.2.2)) hinit

theorem mEvsDecInit_eq (s : EvsWorld ε δ) (hmem : decoderBlock lib ipps s ≠ 0)
    (evsDec : CodecDecData) :
    mEvsDecInit (uscEvsFxns lib ipps) s evsDec =
      (eaNoErrors,
        { evsDec with
          internal := some ⟨decoderBlock lib ipps s, decoderBlock lib ipps s, 0⟩
          extraEcode := eaNoErrors }, openedDecoder lib ipps s) := by
  rw [mEvsDecInit, uscOpen_dec lib ipps s hmem]
  rfl

/-- What the codec answers while it is opened: only `Init` fails, exactly for want of a bank. -/
structure Opens (fxns : UscFxns (EvsWorld ε δ)) (params : UscOption)
    (adjust : UscOption → UscOption) (bytes : Int) : Prop where
  info : ∀ s, (infoAnswer fxns s params).status = uscNoError
  num : ∀ s, (numAnswer fxns s params adjust).status = uscNoError ∧
    (numAnswer fxns s params adjust).value = evsNbufs
  mem : ∀ s, (memAnswer fxns s params adjust).status = uscNoError
  bank : ∀ s, (bankAnswer fxns s params adjust).value = ipps.address (s.blocks + 1) bytes
  init : ∀ s, (initAnswer fxns s params adjust).status = uscNoError ↔
    ipps.address (s.blocks + 1) bytes ≠ 0
  blocks : ∀ s, (initAnswer fxns s params adjust).next.blocks = s.blocks + 2

theorem opens_dec :
    Opens ipps (uscEvsFxns lib ipps) decParams adjustDecParams (decoderBytes lib) where
  info := fun _ => rfl
  num := fun _ => ⟨rfl, rfl⟩
  mem := fun _ => rfl
  bank := fun _ => rfl
  init := fun s =>
    let bank : UscMemBank := ⟨ipps.address (s.blocks + 1) (decoderBytes lib), decoderBytes lib⟩
    (init_ok_iff lib bank (bytes_pos lib).1 (ipps.held s.blocks) (s.memory bank.pMem)).1
  blocks := fun _ => rfl

theorem opens_enc : Opens ipps (uscEvsFxns lib ipps) {} adjustEncParams (encoderBytes lib) where
  info := fun _ => rfl
  num := fun _ => ⟨rfl, rfl⟩
  mem := fun _ => rfl
  bank := fun _ => rfl
  init := fun s =>
    let bank : UscMemBank := ⟨ipps.address (s.blocks + 1) (encoderBytes lib), encoderBytes lib⟩
    (init_ok_iff lib bank (bytes_pos lib).2 (ipps.held s.blocks) (s.memory bank.pMem)).2
  blocks := fun _ => rfl

section

variable {ipps} {fxns : UscFxns (EvsWorld ε δ)} {params : UscOption}
  {adjust : UscOption → UscOption} {bytes : Int}

/-- Every initialisation gets as far as `Init`. -/
theorem Opens.uscOpen (h : Opens ipps fxns params adjust bytes) (s : EvsWorld ε δ) :
    EvsCodec.uscOpen fxns.logging (s, []) params adjust =
      (.initialised (initAnswer fxns s params adjust).status (adjusted fxns s params adjust)
          (ipps.address (s.blocks + 1) bytes) (initAnswer fxns s params adjust).value,
        (initAnswer fxns s params adjust).next,
        openingCalls fxns s params adjust ++
          [.init (initAnswer fxns s params adjust).status
            (initAnswer fxns s params adjust).value]) := by
  rw [← h.bank]
  rcases uscOpen_cases fxns s params adjust with
    ⟨hinfo, -⟩ | ⟨-, hnum, -⟩ | ⟨-, -, hmem, -⟩ | ⟨-, -, -, hr⟩
  · exact absurd (h.info s) hinfo
  · exact absurd (h.num s).1 hnum.1
  · exact absurd (h.mem s) hmem
  · exact hr

/-- Its calls are in order, and with a bank the handle is live afterwards. -/
theorem Opens.obeys (h : Opens ipps fxns params adjust bytes) (s : EvsWorld ε δ)
    (monitor : Monitor UscHandle) :
    let events := eventsOf (EvsCodec.uscOpen fxns.logging (s, []) params adjust).2.2
    monitor.Obeys events ∧ (ipps.address (s.blocks + 1) bytes ≠ 0 →
      (initAnswer fxns s params adjust).value ∈ (monitor.after events).live) := by
  intro events
  have hsized : (decide ((numAnswer fxns s params adjust).status = uscNoError ∧
      (numAnswer fxns s params adjust).value = evsNbufs)) = true := decide_eq_true (h.num s)
  rw [show events = eventsOf _ from congrArg (fun r => eventsOf r.2.2) (h.uscOpen s)]
  refine ⟨⟨trivial, hsized, hsized, trivial⟩, fun hbank => ?_⟩
  -- the last event is the creation of the handle
  change _ ∈ (Monitor.next _ (.created
    (if (initAnswer fxns s params adjust).status = uscNoError then
      some (initAnswer fxns s params adjust).value else none))).live
  rw [if_pos ((h.init s).2 hbank)]
  exact Set.mem_insert _ _

end

/-- A request either reaches the codec, which allocates nothing, or fails without a call. -/
def Attempt (s : EvsWorld ε δ) (reached : Prop) (ecode : Ecode)
    (next : EvsWorld ε δ × List UscCall) : Prop :=
  reached ∧ next.2 ≠ [] ∧ next.1.blocks = s.blocks ∨
    ¬ reached ∧ ecode ≠ eaNoErrors ∧ next = (s, [])

/-- A module over this codec; `reaches` holds of the requests that get as far as the codec once
there is an internal structure. -/
structure OverEvs {α π : Type} (m : CodecModule (EvsWorld ε δ) α π) (bytes : Int)
    (reaches : π → Prop) : Prop where
  opens : Opens ipps m.fxns m.params m.adjust bytes
  fails : ∀ s a, (initAnswer m.fxns s m.params m.adjust).status ≠ uscNoError →
    (m.init (s, []) a).1 ≠ eaNoErrors
  use : ∀ s a p, Attempt s ((m.held a).isSome ∧ reaches p) (m.use (s, []) a p).1
    (m.use (s, []) a p).2.2
  releaseNull : ∀ a handle, m.held a = some (0, handle) → m.held (m.release a).2 = some (0, 0)

def opens {π : Type} (ops : List (Op π)) : Nat := ops.countP fun op => op matches .init

/-- Every request that reaches the codec after an initialisation finds the bank of the last one
obtained. Each initialisation allocates two blocks, the internal structure and the bank. -/
def BanksObtained {π : Type} (first : Nat) (bytes : Int) (reaches : π → Prop)
    (ops : List (Op π)) : Prop :=
  ∀ pre p post, ops = pre ++ .use p :: post → reaches p →
    ∀ i, opens pre = i + 1 → ipps.address (first + 2 * i + 1) bytes ≠ 0

section

variable {ipps} {α π : Type} {m : CodecModule (EvsWorld ε δ) α π} {bytes : Int}
  {reaches : π → Prop}

theorem opens_concat (pre : List (Op π)) (op : Op π) :
    opens (pre ++ [op]) = opens pre + if op matches .init then 1 else 0 := by
  rw [opens, List.countP_append]
  cases op <;> rfl

variable (ipps m bytes) in
/-- What a run says of the state behind it: the last initialisation failed exactly if it got no
bank, and then there is a structure without one, else a structure has a bank and a live handle. -/
structure Tracks (first : Nat) (pre : List (Op π)) (st : DriverState (EvsWorld ε δ) α) : Prop where
  blocks : st.codec.blocks = first + 2 * opens pre
  failed : st.initFailed = true ↔
    ∃ i, opens pre = i + 1 ∧ ipps.address (first + 2 * i + 1) bytes = 0
  null : st.initFailed = true → ∃ handle, m.held st.data = some (0, handle)
  live : st.initFailed = false → ∀ pMem handle, m.held st.data = some (pMem, handle) →
    pMem ≠ 0 ∧ handle ∈ st.monitor.live

theorem tracks_start (codec : EvsWorld ε δ) :
    Tracks ipps m bytes codec.blocks [] (DriverState.start m codec) where
  blocks := rfl
  failed := iff_of_false Bool.false_ne_true fun ⟨_, h, _⟩ => absurd h.symm (Nat.succ_ne_zero _)
  null := fun h => absurd h Bool.false_ne_true
  live := by
    intro _ pMem handle hheld
    have hnone := m.held_zero
    rw [show m.held m.zero = some (pMem, handle) from hheld] at hnone
    cases hnone

variable {first : Nat} {pre : List (Op π)} {st : DriverState (EvsWorld ε δ) α}

theorem tracks_init (h : OverEvs ipps m bytes reaches) (ht : Tracks ipps m bytes first pre st) :
    Tracks ipps m bytes first (pre ++ [.init]) ((driver m).step st .init).1 ∧
      st.monitor.Obeys ((driver m).step st .init).2.events := by
  obtain ⟨-, hheld⟩ := m.init_spec (st.codec, []) st.data
  obtain ⟨hobeys, hlive⟩ := h.opens.obeys st.codec st.monitor
  obtain ⟨hevents, hmonitor, hcodec⟩ := step_init m st
  have hopened := h.opens.uscOpen st.codec
  rw [hopened] at hheld hcodec
  obtain ⟨hheld, hok⟩ := hheld
  have hfailed : ((driver m).step st .init).1.initFailed = true ↔
      ipps.address (st.codec.blocks + 1) bytes = 0 := by
    change decide ((m.init (st.codec, []) st.data).1 ≠ eaNoErrors) = true ↔ _
    rw [decide_eq_true_iff]
    constructor
    · intro hne
      by_contra hbank
      exact hne (hok ((h.opens.init _).2 hbank))
    · intro hnull
      exact h.fails _ _ fun hstatus => (h.opens.init _).1 hstatus hnull
  refine ⟨⟨?_, ?_, ?_, ?_⟩, by rw [hevents]; exact hobeys⟩
  · rw [hcodec, h.opens.blocks, ht.blocks, opens_concat]
    rfl
  · rw [hfailed, ht.blocks, opens_concat]
    constructor
    · intro hnull
      exact ⟨opens pre, rfl, hnull⟩
    · intro hall
      obtain ⟨i, hi, hnull⟩ := hall
      rwa [Nat.succ.inj hi]
  · intro hf
    rw [hfailed] at hf
    exact ⟨_, hheld.trans (by rw [hf])⟩
  · intro hf pMem handle hnow
    have hbank : ipps.address (st.codec.blocks + 1) bytes ≠ 0 := by
      intro hnull
      rw [hfailed.2 hnull] at hf
      cases hf
    obtain ⟨rfl, rfl⟩ := Prod.mk.inj (Option.some.inj (hheld.symm.trans hnow))
    exact ⟨hbank, by rw [hmonitor]; exact hlive hbank⟩

theorem tracks_use (h : OverEvs ipps m bytes reaches) (ht : Tracks ipps m bytes first pre st)
    (p : π) :
    Tracks ipps m bytes first (pre ++ [.use p]) ((driver m).step st (.use p)).1 ∧
      (st.initFailed = false → st.monitor.Obeys ((driver m).step st (.use p)).2.events) := by
  have hopens : opens (pre ++ [.use p]) = opens pre := opens_concat pre (.use p)
  have hsame : m.held ((driver m).step st (.use p)).1.data = m.held st.data :=
    (m.use_spec (st.codec, []) st.data p).1
  have huse : st.initFailed = false → _ := fun hf =>
    step_use m p fun held hheld => (ht.live hf held.1 held.2 hheld).2
  refine ⟨⟨?_, ?_, ?_, ?_⟩, fun hf => (huse hf).2.1⟩
  · rw [hopens, ← ht.blocks]
    rcases h.use st.codec st.data p with ⟨-, -, hblocks⟩ | ⟨-, -, hidle⟩
    · exact hblocks
    · exact congrArg (·.1.blocks) hidle
  · rw [hopens]
    exact ht.failed
  · intro hf
    obtain ⟨handle, hheld⟩ := ht.null hf
    exact ⟨handle, hsame.trans hheld⟩
  · intro hf pMem handle hnow
    rw [(huse hf).2.2.1]
    exact ht.live hf pMem handle (hsame.symm.trans hnow)

theorem tracks_release (h : OverEvs ipps m bytes reaches) (ht : Tracks ipps m bytes first pre st) :
    Tracks ipps m bytes first (pre ++ [.release]) ((driver m).step st .release).1 ∧
      st.monitor.Obeys ((driver m).step st .release).2.events := by
  have hopens : opens (pre ++ [.release]) = opens pre := opens_concat pre .release
  obtain ⟨hobeys, hgiven⟩ := step_release m st
  refine ⟨⟨?_, ?_, ?_, ?_⟩, hobeys⟩
  · rw [hopens]
    exact ht.blocks
  · rw [hopens]
    exact ht.failed
  · intro hf
    obtain ⟨handle, hheld⟩ := ht.null hf
    exact ⟨0, h.releaseNull st.data handle hheld⟩
  · intro hf pMem handle hnow
    rw [hgiven fun held hheld => (ht.live hf held.1 held.2 hheld).1] at hnow
    cases hnow

theorem tracks_after (h : OverEvs ipps m bytes reaches) (codec : EvsWorld ε δ)
    (ops : List (Op π)) :
    Tracks ipps m bytes codec.blocks ops ((driver m).after (.start m codec) ops) := by
  refine (driver m).after_history (tracks_start codec) (fun pre op ht => ?_) ops
  cases op with
  | init => exact (tracks_init h ht).1
  | use p => exact (tracks_use h ht p).1
  | release => exact (tracks_release h ht).1

theorem keepsLifeCycle_iff (h : OverEvs ipps m bytes reaches) (codec : EvsWorld ε δ)
    (ops : List (Op π)) :
    KeepsLifeCycle m codec ops ↔ BanksObtained ipps codec.blocks bytes reaches ops := by
  constructor
  · intro hkeeps pre p post he hp i hi hnull
    have ht := tracks_after h codec pre
    have hfailed := ht.failed.2 ⟨i, hi, hnull⟩
    obtain ⟨handle, hheld⟩ := ht.null hfailed
    obtain ⟨-, hsilent⟩ := hkeeps pre (.use p) post he
    rcases h.use ((driver m).after (.start m codec) pre).codec
        ((driver m).after (.start m codec) pre).data p with ⟨-, hcalls, -⟩ | ⟨hidle, -⟩
    · exact hcalls (hsilent p rfl hfailed).2
    · exact hidle ⟨by rw [hheld]; rfl, hp⟩
  · intro hbanks pre op post he
    have ht := tracks_after h codec pre
    cases op with
    | init => exact ⟨(tracks_init h ht).2, fun p hp => by cases hp⟩
    | release => exact ⟨(tracks_release h ht).2, fun p hp => by cases hp⟩
    | use p =>
      cases hf : ((driver m).after (.start m codec) pre).initFailed with
      | false =>
        exact ⟨(tracks_use h ht p).2 hf, fun _ _ htrue => absurd htrue Bool.false_ne_true⟩
      | true =>
        -- a request after a failed initialisation does not reach the codec
        obtain ⟨i, hi, hnull⟩ := ht.failed.1 hf
        rcases h.use ((driver m).after (.start m codec) pre).codec
            ((driver m).after (.start m codec) pre).data p with ⟨hr, -⟩ | ⟨-, herror, hidle⟩
        · exact absurd hnull (hbanks pre p post he hr.2 i hi)
        · have hcalls := congrArg Prod.snd hidle
          refine ⟨?_, fun p' hp' _ => ?_⟩
          · change Monitor.Obeys _ (eventsOf (m.use _ _ p).2.2.2)
            rw [hcalls]
            trivial
          · cases hp'
            exact ⟨herror, hcalls⟩

end

/-- A request to decode that `m_evs_dec` does not refuse by itself. -/
def Decodes {n k : Nat} (p : Request CodecDecData n k) : Prop :=
  p.output.isSome ∧ ∃ packet, p.input = some packet ∧ KnownForm packet

/-- A request to encode that `m_evs_enc` does not refuse by itself. -/
def Encodes {n k : Nat} (p : Request CodecEncData n k) : Prop :=
  p.input.isSome ∧ p.output.isSome ∧
    (p.settings.evsMode = updEvsPrimaryMode ∨ p.settings.evsMode = updEvsWbioMode) ∧
    p.settings.mode < numberOfEvsModes p.settings.evsMode

section

variable {n k : Nat} (s : EvsWorld ε δ)

theorem control_blocks (modes : UscModes) (handle : UscHandle) :
    ((uscEvsFxns lib ipps).control s modes handle).next.blocks = s.blocks := by
  simp only [uscEvsFxns]
  split <;> rfl

theorem decode_blocks (handle : UscHandle) (input : UscBitstream) :
    ((uscEvsFxns lib ipps).decode s handle input).next.blocks = s.blocks := by
  simp only [uscEvsFxns]
  split <;> rfl

theorem encode_blocks (handle : UscHandle) (input : UscPcmStream) :
    ((uscEvsFxns lib ipps).encode s handle input).next.blocks = s.blocks := by
  simp only [uscEvsFxns]
  split
  · rfl
  · split <;> rfl

theorem mEvsDec_attempt (evsDec : CodecDecData) (p : Request CodecDecData n k) :
    let r := mEvsDec (uscEvsFxns lib ipps).logging (s, [])
      { p.settings with internal := evsDec.internal } p.input p.output
    Attempt s (evsDec.internal.isSome ∧ Decodes p) r.ecode r.next := by
  intro r
  have hnull : eMEvsUnexpectedNullPointer ≠ eaNoErrors := by decide
  cases hi : evsDec.internal with
  | none =>
    refine Or.inr ⟨fun h => absurd h.1 Bool.false_ne_true, ?_⟩
    simp only [r, mEvsDec, hi]
    exact ⟨hnull, trivial⟩
  | some internal =>
    cases ho : p.output with
    | none =>
      refine Or.inr ⟨fun h => absurd h.2.1 (by rw [ho]; exact Bool.false_ne_true), ?_⟩
      simp only [r, mEvsDec, hi, ho]
      exact ⟨hnull, trivial⟩
    | some linPcm =>
      cases hp : p.input with
      | none =>
        refine Or.inr ⟨?_, ?_⟩
        · rintro ⟨-, -, packet, hpacket, -⟩
          rw [hp] at hpacket
          cases hpacket
        · simp only [r, mEvsDec, hi, ho, hp]
          exact ⟨hnull, trivial⟩
      | some packet =>
        by_cases hform : packet.form ≠ updEvsPrimaryMode ∧ packet.form ≠ updEvsWbioMode
        · refine Or.inr ⟨?_, ?_⟩
          · rintro ⟨-, -, packet', hpacket, hknown⟩
            rw [hp] at hpacket
            cases hpacket
            exact hknown.elim hform.1 hform.2
          · simp only [r, mEvsDec, hi, ho, hp, if_pos hform]
            exact ⟨by decide, trivial⟩
        · refine Or.inl ⟨⟨rfl, by rw [ho]; rfl, packet, hp, known_of_checked hform⟩, ?_⟩
          simp only [r, mEvsDec, hi, ho, hp, if_neg hform, UscFxns.logging, Answer.logged]
          split
          · exact ⟨by simp, control_blocks lib ipps s _ _⟩
          · split <;>
              exact ⟨by simp, (decode_blocks lib ipps _ _ _).trans (control_blocks lib ipps s _ _)⟩

theorem mEvsEnc_attempt (evsEnc : CodecEncData) (p : Request CodecEncData n k) :
    let r := mEvsEnc (uscEvsFxns lib ipps).logging (s, [])
      { p.settings with internal := evsEnc.internal } p.input p.output
    Attempt s (evsEnc.internal.isSome ∧ Encodes p) r.ecode r.next := by
  intro r
  have hnull : eMEvsUnexpectedNullPointer ≠ eaNoErrors := by decide
  cases hi : evsEnc.internal with
  | none =>
    refine Or.inr ⟨fun h => absurd h.1 Bool.false_ne_true, ?_⟩
    simp only [r, mEvsEnc, hi]
    exact ⟨hnull, trivial⟩
  | some internal =>
    cases hp : p.input with
    | none =>
      refine Or.inr ⟨fun h => absurd h.2.1 (by rw [hp]; exact Bool.false_ne_true), ?_⟩
      simp only [r, mEvsEnc, hi, hp]
      exact ⟨hnull, trivial⟩
    | some linPcm =>
      cases ho : p.output with
      | none =>
        refine Or.inr ⟨fun h => absurd h.2.2.1 (by rw [ho]; exact Bool.false_ne_true), ?_⟩
        simp only [r, mEvsEnc, hi, hp, ho]
        exact ⟨hnull, trivial⟩
      | some packet =>
        by_cases hform : p.settings.evsMode ≠ updEvsPrimaryMode ∧
            p.settings.evsMode ≠ updEvsWbioMode
        · refine Or.inr ⟨fun h => h.2.2.2.1.elim hform.1 hform.2, ?_⟩
          simp only [r, mEvsEnc, hi, hp, ho, if_pos hform]
          exact ⟨by decide, trivial⟩
        · by_cases hmode : numberOfEvsModes p.settings.evsMode ≤ p.settings.mode
          · refine Or.inr ⟨fun h => absurd h.2.2.2.2 (Nat.not_lt.2 hmode), ?_⟩
            simp only [r, mEvsEnc, hi, hp, ho, if_neg hform, if_pos hmode]
            exact ⟨by decide, trivial⟩
          · refine Or.inl ⟨⟨rfl, by rw [hp]; rfl, by rw [ho]; rfl, known_of_checked hform,
              Nat.not_le.1 hmode⟩, ?_⟩
            simp only [r, mEvsEnc, hi, hp, ho, if_neg hform, if_neg hmode, UscFxns.logging,
              Answer.logged]
            split
            · exact ⟨by simp, control_blocks lib ipps s _ _⟩
            · split <;>
                exact ⟨by simp,
                  (encode_blocks lib ipps _ _ _).trans (control_blocks lib ipps s _ _)⟩

theorem overEvs_dec :
    OverEvs ipps (decoderModule (n := n) (k := k) (uscEvsFxns lib ipps)) (decoderBytes lib)
      Decodes where
  opens := opens_dec lib ipps
  fails := by
    intro s evsDec hstatus
    change (initAnswer (uscEvsFxns lib ipps) s decParams adjustDecParams).status ≠ _ at hstatus
    change (mEvsDecInit (uscEvsFxns lib ipps).logging (s, []) evsDec).1 ≠ eaNoErrors
    simp only [mEvsDecInit, (opens_dec lib ipps).uscOpen s, if_pos hstatus]
    decide
  use := by
    intro s evsDec p
    have hattempt := mEvsDec_attempt lib ipps s evsDec p
    rwa [← Option.isSome_map] at hattempt
  releaseNull := by
    intro evsDec handle hheld
    obtain ⟨internal, hi, heq⟩ := Option.map_eq_some_iff.1 hheld
    obtain ⟨hbank, -⟩ := Prod.mk.inj heq
    change (mEvsDecRelease evsDec).2.internal.map _ = _
    simp only [mEvsDecRelease, hi, hbank, if_true, Option.map_some]

theorem overEvs_enc :
    OverEvs ipps (encoderModule (n := n) (k := k) (uscEvsFxns lib ipps)) (encoderBytes lib)
      Encodes where
  opens := opens_enc lib ipps
  fails := by
    intro s evsEnc hstatus
    change (initAnswer (uscEvsFxns lib ipps) s {} adjustEncParams).status ≠ _ at hstatus
    change (mEvsEncInit (uscEvsFxns lib ipps).logging (s, []) evsEnc).1 ≠ eaNoErrors
    simp only [mEvsEncInit, (opens_enc lib ipps).uscOpen s, if_pos hstatus]
    decide
  use := by
    intro s evsEnc p
    have hattempt := mEvsEnc_attempt lib ipps s evsEnc p
    rwa [← Option.isSome_map] at hattempt
  releaseNull := by
    intro evsEnc handle hheld
    obtain ⟨internal, hi, heq⟩ := Option.map_eq_some_iff.1 hheld
    obtain ⟨hbank, -⟩ := Prod.mk.inj heq
    change (mEvsEncRelease evsEnc).2.internal.map _ = _
    simp only [mEvsEncRelease, hi, hbank, if_true, Option.map_some]

/-- Over the codec of the repository either module keeps the life cycle exactly in the runs in
which every request that reaches the codec finds a bank. -/
theorem modules_keep_lifeCycle_iff (codec : EvsWorld ε δ) :
    (∀ ops : List (Op (Request CodecDecData n k)),
      KeepsLifeCycle (decoderModule (uscEvsFxns lib ipps)) codec ops ↔
        BanksObtained ipps codec.blocks (decoderBytes lib) Decodes ops) ∧
    (∀ ops : List (Op (Request CodecEncData n k)),
      KeepsLifeCycle (encoderModule (uscEvsFxns lib ipps)) codec ops ↔
        BanksObtained ipps codec.blocks (encoderBytes lib) Encodes ops) :=
  ⟨keepsLifeCycle_iff (overEvs_dec lib ipps) codec, keepsLifeCycle_iff (overEvs_enc lib ipps) codec⟩

end

end

end RtpServer.Verify.EvsOpening
