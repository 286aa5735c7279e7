import RtpServer.Verify.EvsWrapper

/-!
# What the function table is for

A handle is a channel of one direction: the settings its callers can ask for, what a decoder
tells the library with every frame, and the object of the library. The other members of the
header (the two reset flags, the old and the used rate) are written and never read, so they are
no part of it. Every call answers and changes what the channels say, whatever is called in
whatever order.
-/
namespace RtpServer.Verify.EvsChannels

open RtpServer.Library RtpServer.Source RtpServer.Source.Usc RtpServer.Source.UscEvs
open RtpServer.Source.EvsSerial RtpServer.Verify.EvsWrapper

/-- What `GetInfo` tells of the modes an object was given. -/
structure Settings where
  bitrate : Int
  truncate : Int
  vad : Int
  deriving DecidableEq

/-- What a decoder passes on to the library with a frame. -/
structure Hints where
  usePartialCopy : Int
  nextCoderType : Int
  bitstreamformat : Int
  deriving DecidableEq

/-- An object as its callers see it. -/
inductive Channel (ε δ : Type) where
  | encoder (settings : Settings) (enc : ε)
  | decoder (settings : Settings) (hints : Hints) (dec : δ)

section

variable {ε δ : Type} (lib : IntelEvs ε δ)

namespace Channel

/-- The settings and the direction, and the rate of sampling the library's object works at. -/
def getInfo (params : UscEvsOption) (channel : Channel ε δ) : UscEvsOption :=
  match channel with
  | encoder settings enc =>
    let cntrl := lib.encoderGetControl enc
    { params with
      direction := uscEncode
      framesize := cntrl.inputFsFx.tdiv 50 * 2
      pcmType := { params.pcmType with sampleFrequency := cntrl.inputFsFx }
      modes := { params.modes with
        bitrate := settings.bitrate
        truncate := settings.truncate
        vad := settings.vad
        optRfOn := cntrl.optRfOn.toInt
        rfFecOffset := cntrl.rfFecOffset.toInt
        rfFecIndicator := cntrl.rfFecIndicator.toInt
        maxBwidthFx := cntrl.maxBwidthFx.toInt
        intervalSidFx := cntrl.intervalSidFx.toInt } }
  | decoder settings _ dec =>
    let cntrl := lib.decoderGetControl dec
    { params with
      direction := uscDecode
      framesize := cntrl.outputFsFx.tdiv 50 * 2
      pcmType := { params.pcmType with sampleFrequency := cntrl.outputFsFx }
      modes := { params.modes with
        bitrate := settings.bitrate, truncate := settings.truncate, vad := settings.vad } }

/-- Modes that pass the checks start the library's object anew. -/
def reinit (modes : UscModes) (channel : Channel ε δ) : UscStatus × Channel ε δ :=
  if modesStatus modes ≠ uscNoError then (modesStatus modes, channel)
  else
    (uscNoError,
      match channel with
      | encoder settings enc =>
        encoder { settings with bitrate := modes.bitrate, vad := modes.vad }
          (lib.encoderInit enc { encoderCntrlOf modes (lib.encoderGetControl enc) with
            intervalSidFx := fixedSidRate, brateBwUpdate := evsUpdateBrate ||| evsUpdateBwidth })
      | decoder settings hints dec =>
        decoder { settings with bitrate := modes.bitrate, vad := modes.vad }
          { hints with bitstreamformat := modes.bitstreamformat }
          (lib.decoderInit dec { lib.decoderGetControl dec with
            totalBrateFx := modes.bitrate, bitstreamformat := toWord16 modes.bitstreamformat }))

/-- Modes that pass the checks are given to the library's encoder at once, and to its decoder
with the next frame. -/
def control (modes : UscModes) (channel : Channel ε δ) : UscStatus × Channel ε δ :=
  if modesStatus modes ≠ uscNoError then (modesStatus modes, channel)
  else
    (uscNoError,
      match channel with
      | encoder _ enc =>
        encoder ⟨modes.bitrate, modes.truncate, modes.vad⟩
          (lib.encoderSetParams enc { encoderCntrlOf modes (lib.encoderGetControl enc) with
            intervalSidFx := toWord16 modes.intervalSidFx
            brateBwUpdate := (if modes.updateBrateOn ≠ 0 then evsUpdateBrate else 0) |||
              (if modes.updateBwidthOn ≠ 0 then evsUpdateBwidth else 0) })
      | decoder _ _ dec =>
        decoder ⟨modes.bitrate, modes.truncate, modes.vad⟩
          ⟨modes.useParitalCopy, modes.nextCoderType, modes.bitstreamformat⟩ dec)

/-- An encoder executes the samples at the rate asked for, and the indices it answers with are
serialised; `none` when they do not fit the buffer. -/
def encode (input : UscPcmStream) (pcmType : UscPcmType) (buffer : List Uint8)
    (channel : Channel ε δ) : Option (UscStatus × Channel ε δ × Option EvsEncoded) :=
  match channel with
  | encoder settings enc =>
    if !checkPcmType pcmType then some (uscUnsupportedPcmType, channel, none)
    else if checkRateEvs input.bitrate < 0 then some (uscUnsupportedBitRate, channel, none)
    else
      let r := lib.encoderExec (lib.encoderSetParams enc
        { lib.encoderGetControl enc with totalBrateFx := input.bitrate }) input.pBuffer
        (toWord16 (input.nbytes / 2))
      (evsIndicesToSerialGeneric r.2.cells maxNumIndices buffer 0).map fun frame =>
        (uscNoError, encoder { settings with bitrate := input.bitrate } r.1,
          some ⟨frame.1, (frame.2.toInt + 7) / 8, frame.2.toInt * 50⟩)
  | decoder _ _ _ =>
    some (if !checkPcmType pcmType then uscUnsupportedPcmType else uscNoOperation, channel, none)

/-- The rate of an input is one the decoder has a mode for. -/
def knownRate (input : Option EvsBitstream) : Bool :=
  input.all fun stream => 0 ≤ evsRate2EvsMode stream.bitrate

/-- A decoder executes the frame, or a lost one without an input, at the rate of the input or at
the one it had; the samples are of the rate of sampling it was started with. -/
def decode (input : Option EvsBitstream) (channel : Channel ε δ) :
    UscStatus × Channel ε δ × Option EvsDecoded :=
  match channel with
  | encoder _ _ => (uscNoOperation, channel, none)
  | decoder settings hints dec =>
    if !knownRate input then (uscUnsupportedBitRate, channel, none)
    else
      let cntrl := lib.decoderGetControl dec
      let given := decodeInput input cntrl
      let r := lib.decoderExec (lib.decoderSetParams dec { cntrl with
        totalBrateFx := given.1
        bfiFx := given.2.1
        amrwbRfc4867Flag := 0
        usePartialCopy := toWord16 hints.usePartialCopy
        nextCoderType := toWord16 hints.nextCoderType
        bitstreamformat := toWord16 hints.bitstreamformat }) given.2.2
      (uscNoError, decoder { settings with bitrate := given.1 } hints r.1,
        some ⟨r.2, (cntrl.outputFsFx * 2).tdiv 50,
          ⟨cntrl.outputFsFx, evsBitsPerSample, evsNchannels⟩, given.1⟩)

/-- What an accepted `Init` makes of a block. Two of the hints are what the block held. -/
def opened (options : UscEvsOption) (block : EvsObject ε δ) : Channel ε δ :=
  let settings : Settings := ⟨options.modes.bitrate, options.modes.truncate, options.modes.vad⟩
  if options.direction = uscEncode then
    encoder settings (lib.encoderInit block.enc (initEncoderCntrl options))
  else
    let buffered := { initDecoderCntrl options with bitstreamformat := 2 }
    decoder settings ⟨block.header.useParitalCopy, block.header.nextCoderType,
        options.modes.bitstreamformat⟩
      (if options.jbmEnabled ≠ 0 then
        lib.decoderInit (lib.decoderJbInit block.dec buffered) buffered
      else lib.decoderInit block.dec (initDecoderCntrl options))

end Channel

/-- What `Init` answers. -/
def openStatus (options : UscEvsOption) (bank jb : UscMemBank) : UscStatus :=
  if initStatus options bank ≠ uscNoError then initStatus options bank
  else if options.direction = uscEncode then uscNoError
  else if options.direction ≠ uscDecode then uscNoOperation
  else if options.jbmEnabled = 0 then uscNoError
  else if jb.pMem = 0 then uscBadDataPointer
  else if jb.nbytes ≤ 0 then uscNotInitialized
  else uscNoError

/-- A call on one channel, and nothing without one. -/
def onChannel {α : Type} (channels : UscHandle → Option (Channel ε δ)) (handle : UscHandle)
    (call : Channel ε δ → Channel ε δ × α) (idle : α) :
    (UscHandle → Option (Channel ε δ)) × α :=
  match channels handle with
  | some channel => (Function.update channels handle (some (call channel).1), (call channel).2)
  | none => (channels, idle)

/-- The table as a machine of channels, over memory with these contents. -/
def table (memory : UscHandle → EvsObject ε δ) :
    Machine (UscHandle → Option (Channel ε δ)) ApiCall Answers where
  step channels
    | .init options bank jb =>
      let status := openStatus options bank jb
      (if status = uscNoError then
        Function.update channels bank.pMem (some (Channel.opened lib options (memory bank.pMem)))
      else channels, { status })
    | .getInfo params handle =>
      onChannel channels handle
        (fun channel => (channel, { status := uscNoError, info := some (channel.getInfo lib params) }))
        { status := uscInvalidHandler }
    | .reinit modes handle =>
      onChannel channels handle
        (fun channel => ((channel.reinit lib modes).2, { status := (channel.reinit lib modes).1 }))
        { status := uscInvalidHandler }
    | .control modes handle =>
      onChannel channels handle
        (fun channel => ((channel.control lib modes).2, { status := (channel.control lib modes).1 }))
        { status := uscInvalidHandler }
    | .encode input pcmType buffer handle =>
      onChannel channels handle
        (fun channel =>
          match channel.encode lib input pcmType buffer with
          | some r => (r.2.1, { status := r.1, encoded := r.2.2 })
          | none => (channel, { status := uscNoError }))
        { status := uscInvalidHandler }
    | .decode input handle =>
      onChannel channels handle
        (fun channel =>
          let r := channel.decode lib input
          (r.2.1, { status := r.1, decoded := r.2.2 }))
        { status := uscInvalidHandler }

/-- The channel an object is. -/
def channelOf (obj : EvsObject ε δ) : Channel ε δ :=
  let settings : Settings := ⟨obj.header.bitrate, obj.header.trunc, obj.header.vad⟩
  if obj.header.direction = uscEncode then .encoder settings obj.enc
  else
    .decoder settings
      ⟨obj.header.useParitalCopy, obj.header.nextCoderType, obj.header.bitstreamformat⟩ obj.dec

variable {lib} {obj : EvsObject ε δ}

theorem channelOf_encoder (hd : obj.header.direction = uscEncode) :
    channelOf obj = .encoder ⟨obj.header.bitrate, obj.header.trunc, obj.header.vad⟩ obj.enc :=
  if_pos hd

theorem channelOf_decoder (hd : obj.header.direction = uscDecode) :
    channelOf obj = .decoder ⟨obj.header.bitrate, obj.header.trunc, obj.header.vad⟩
      ⟨obj.header.useParitalCopy, obj.header.nextCoderType, obj.header.bitstreamformat⟩ obj.dec :=
  if_neg (by rw [hd]; decide)

theorem not_encode (hd : obj.header.direction = uscDecode) :
    ¬ obj.header.direction = uscEncode := by
  rw [hd]
  decide

variable (lib)

theorem getInfo_channel (h : WellFormed obj) (params : UscEvsOption) :
    UscEvs.getInfo lib (some obj) params = (channelOf obj).getInfo lib params := by
  rcases h.direction with hd | hd
  · simp only [channelOf_encoder hd, UscEvs.getInfo, Channel.getInfo, hd, if_true]
  · have hne : ¬ uscDecode = uscEncode := by decide
    simp only [channelOf_decoder hd, UscEvs.getInfo, Channel.getInfo, hd, if_neg hne]

theorem reinit_channel (h : WellFormed obj) (modes : UscModes) :
    ((UscEvs.reinit lib modes obj).1, channelOf (UscEvs.reinit lib modes obj).2) =
      (channelOf obj).reinit lib modes := by
  unfold UscEvs.reinit Channel.reinit
  split
  · rfl
  · rcases h.direction with hd | hd
    · rw [channelOf_encoder hd, if_pos hd]
      exact congrArg (Prod.mk uscNoError) (channelOf_encoder hd)
    · rw [channelOf_decoder hd, if_neg (not_encode hd), if_pos hd]
      exact congrArg (Prod.mk uscNoError) (channelOf_decoder hd)

theorem control_channel (h : WellFormed obj) (modes : UscModes) :
    ((UscEvs.control lib modes obj).1, channelOf (UscEvs.control lib modes obj).2) =
      (channelOf obj).control lib modes := by
  unfold UscEvs.control Channel.control
  split
  · rfl
  · rcases h.direction with hd | hd
    · rw [channelOf_encoder hd, if_pos hd]
      exact congrArg (Prod.mk uscNoError) (channelOf_encoder hd)
    · rw [channelOf_decoder hd, if_neg (not_encode hd), if_pos hd]
      exact congrArg (Prod.mk uscNoError) (channelOf_decoder hd)

theorem encode_channel (h : WellFormed obj) (input : UscPcmStream) (pcmType : UscPcmType)
    (buffer : List Uint8) :
    (UscEvs.encode lib input pcmType buffer obj).map (fun r => (r.1, channelOf r.2.1, r.2.2)) =
      (channelOf obj).encode lib input pcmType buffer := by
  rcases h.direction with hd | hd
  · rw [channelOf_encoder hd, Channel.encode, UscEvs.encode, encodeStatus,
      if_neg (not_not.2 hd)]
    by_cases hpcm : checkPcmType pcmType = true
    · by_cases hrate : checkRateEvs input.bitrate < 0
      · have hrefused : uscUnsupportedBitRate ≠ uscNoError := by decide
        simp only [hpcm, Bool.not_true, Bool.false_eq_true, if_false, if_pos hrate,
          if_pos hrefused, Option.map_some, channelOf_encoder hd]
      · simp only [hpcm, Bool.not_true, Bool.false_eq_true, if_false, if_neg hrate, ne_eq,
          not_true_eq_false, Option.map_map]
        refine congrArg (Option.map · _) (funext fun frame => ?_)
        exact congrArg (fun channel => (uscNoError, channel, _)) (channelOf_encoder hd)
    · have hrefused : uscUnsupportedPcmType ≠ uscNoError := by decide
      simp only [Bool.eq_false_iff.2 hpcm, Bool.not_false, if_true, if_pos hrefused,
        Option.map_some, channelOf_encoder hd]
  · have hstatus : encodeStatus input pcmType obj =
        if !checkPcmType pcmType then uscUnsupportedPcmType else uscNoOperation := by
      rw [encodeStatus, if_pos (not_encode hd)]
    have hrefused : encodeStatus input pcmType obj ≠ uscNoError := by
      rw [hstatus]
      split <;> decide
    rw [channelOf_decoder hd, Channel.encode, UscEvs.encode, if_pos hrefused, hstatus,
      Option.map_some, channelOf_decoder hd]

theorem decodeStatus_decoder (hd : obj.header.direction = uscDecode)
    (input : Option EvsBitstream) :
    decodeStatus input obj =
      if !Channel.knownRate input then uscUnsupportedBitRate else uscNoError := by
  refine (if_neg (not_not.2 hd)).trans ?_
  cases input with
  | none => rfl
  | some stream =>
    by_cases hrate : evsRate2EvsMode stream.bitrate < 0
    · simp [Channel.knownRate, hrate]
    · simp [Channel.knownRate, hrate, Int.not_lt.1 hrate]

theorem decode_channel (h : WellFormed obj) (input : Option EvsBitstream) :
    (let r := UscEvs.decode lib input obj; (r.1, channelOf r.2.1, r.2.2)) =
      (channelOf obj).decode lib input := by
  rcases h.direction with hd | hd
  · have hstatus : decodeStatus input obj = uscNoOperation :=
      if_pos (show obj.header.direction ≠ uscDecode by rw [hd]; decide)
    have hrefused : uscNoOperation ≠ uscNoError := by decide
    rw [UscEvs.decode, hstatus, if_pos hrefused, channelOf_encoder hd, Channel.decode]
    exact congrArg (fun channel => (uscNoOperation, channel, none)) (channelOf_encoder hd)
  · rw [channelOf_decoder hd, Channel.decode, UscEvs.decode, decodeStatus_decoder hd]
    cases hknown : Channel.knownRate input with
    | false =>
      have hrefused : uscUnsupportedBitRate ≠ uscNoError := by decide
      simp only [Bool.not_false, if_true, if_pos hrefused, channelOf_decoder hd]
    | true =>
      simp only [Bool.not_true, Bool.false_eq_true, if_false, ne_eq, not_true_eq_false]
      exact congrArg (fun channel => (uscNoError, channel, _)) (channelOf_decoder hd)

/-- What `Init` builds on is in the object as it was in the block. -/
structure Untouched (block obj : EvsObject ε δ) : Prop where
  enc : obj.enc = block.enc
  dec : obj.dec = block.dec
  usePartialCopy : obj.header.useParitalCopy = block.header.useParitalCopy
  nextCoderType : obj.header.nextCoderType = block.header.nextCoderType

theorem opened_decoder {options : UscEvsOption} (hd : ¬ options.direction = uscEncode)
    (block : EvsObject ε δ) :
    Channel.opened lib options block =
      .decoder ⟨options.modes.bitrate, options.modes.truncate, options.modes.vad⟩
        ⟨block.header.useParitalCopy, block.header.nextCoderType, options.modes.bitstreamformat⟩
        (if options.jbmEnabled ≠ 0 then
          lib.decoderInit (lib.decoderJbInit block.dec
            { initDecoderCntrl options with bitstreamformat := 2 })
            { initDecoderCntrl options with bitstreamformat := 2 }
        else lib.decoderInit block.dec (initDecoderCntrl options)) :=
  if_neg hd

theorem init_channel {block : EvsObject ε δ} (h : Untouched block obj) (options : UscEvsOption)
    (bank jb : UscMemBank) (handle : UscHandle) :
    let r := UscEvs.init lib options bank jb handle obj
    r.1 = openStatus options bank jb ∧
      (openStatus options bank jb = uscNoError →
        channelOf r.2.2 = Channel.opened lib options block) ∧
      (openStatus options bank jb ≠ uscNoError → Untouched block r.2.2) := by
  have hpointer : uscBadDataPointer ≠ uscNoError := by decide
  have hsize : uscNotInitialized ≠ uscNoError := by decide
  have hoperation : uscNoOperation ≠ uscNoError := by decide
  obtain ⟨henc, hdec, hcopy, hnext⟩ := h
  intro r
  unfold r UscEvs.init openStatus
  by_cases hstatus : initStatus options bank = uscNoError
  · rw [if_neg (not_not.2 hstatus), if_neg (not_not.2 hstatus)]
    dsimp only
    by_cases hencode : options.direction = uscEncode
    · rw [if_pos hencode, if_pos hencode]
      refine ⟨rfl, fun _ => ?_, fun hne => absurd rfl hne⟩
      rw [channelOf_encoder hencode, Channel.opened, if_pos hencode, ← henc]
    · rw [if_neg hencode, if_neg hencode]
      by_cases hdecode : options.direction = uscDecode
      · rw [if_pos hdecode, if_neg (not_not.2 hdecode)]
        by_cases hjb : options.jbmEnabled = 0
        · rw [if_neg (not_not.2 hjb), if_pos hjb]
          refine ⟨rfl, fun _ => ?_, fun hne => absurd rfl hne⟩
          rw [channelOf_decoder hdecode, opened_decoder lib hencode, if_neg (not_not.2 hjb), ← hdec,
            ← hcopy, ← hnext]
        · rw [if_pos hjb, if_neg hjb]
          by_cases hmem : jb.pMem = 0
          · rw [if_pos hmem, if_pos hmem]
            exact ⟨rfl, fun he => absurd he hpointer, fun _ => ⟨henc, hdec, hcopy, hnext⟩⟩
          · rw [if_neg hmem, if_neg hmem]
            by_cases hbytes : jb.nbytes ≤ 0
            · rw [if_pos hbytes, if_pos hbytes]
              exact ⟨rfl, fun he => absurd he hsize, fun _ => ⟨henc, hdec, hcopy, hnext⟩⟩
            · rw [if_neg hbytes, if_neg hbytes]
              refine ⟨rfl, fun _ => ?_, fun hne => absurd rfl hne⟩
              rw [channelOf_decoder hdecode, opened_decoder lib hencode, if_pos hjb, ← hdec, ← hcopy,
                ← hnext]
      · rw [if_neg hdecode, if_pos hdecode]
        exact ⟨rfl, fun he => absurd he hoperation, fun _ => ⟨henc, hdec, hcopy, hnext⟩⟩
  · rw [if_pos hstatus, if_pos hstatus]
    exact ⟨rfl, fun he => absurd he hstatus, fun _ => ⟨henc, hdec, hcopy, hnext⟩⟩

/-- The blocks behind the channels: every object is well formed, and a block without one holds
what `Init` builds on as it was at the start. -/
structure Shows (memory : UscHandle → EvsObject ε δ) (s : ApiState ε δ)
    (channels : UscHandle → Option (Channel ε δ)) : Prop where
  wellFormed : AllWellFormed s
  channel : ∀ h ∈ s.created, channels h = some (channelOf (s.memory h))
  none : ∀ h, h ∉ s.created → channels h = none
  untouched : ∀ h, h ∉ s.created → Untouched (memory h) (s.memory h)

variable {memory : UscHandle → EvsObject ε δ} {s : ApiState ε δ}
  {channels : UscHandle → Option (Channel ε δ)} {handle : UscHandle}

/-- A call that leaves an object and its channel alike. -/
theorem Shows.store (h : Shows memory s channels) (hcreated : handle ∈ s.created)
    {obj : EvsObject ε δ} {status : UscStatus} (hkeeps : Keeps status (s.memory handle) obj) :
    Shows memory (s.store handle obj)
      (Function.update channels handle (some (channelOf obj))) where
  wellFormed := (store_keeps hkeeps).2.2 h.wellFormed
  channel k hk := by
    by_cases hkh : k = handle
    · rw [hkh, Function.update_self, store_self]
    · rw [Function.update_of_ne hkh, store_ne s hkh]
      exact h.channel k hk
  none k hk := by
    have hkh : k ≠ handle := fun he => hk (he ▸ hcreated)
    rw [Function.update_of_ne hkh]
    exact h.none k hk
  untouched k hk := by
    have hkh : k ≠ handle := fun he => hk (he ▸ hcreated)
    rw [store_ne s hkh]
    exact h.untouched k hk

/-- A call that changes nothing. -/
theorem Shows.same (h : Shows memory s channels) (hcreated : handle ∈ s.created) :
    Shows memory s (Function.update channels handle (some (channelOf (s.memory handle)))) := by
  rw [← h.channel handle hcreated, Function.update_eq_self]
  exact h

theorem onChannel_some {α : Type} {channel : Channel ε δ} (h : channels handle = some channel)
    (call : Channel ε δ → Channel ε δ × α) (idle : α) :
    onChannel channels handle call idle =
      (Function.update channels handle (some (call channel).1), (call channel).2) := by
  simp only [onChannel, h]

theorem init_shows (h : Shows memory s channels) {options : UscEvsOption} {bank jb : UscMemBank}
    (hfresh : bank.pMem ∉ s.created) :
    ((api lib).step s (.init options bank jb)).2 =
        ((table lib memory).step channels (.init options bank jb)).2 ∧
      Shows memory ((api lib).step s (.init options bank jb)).1
        ((table lib memory).step channels (.init options bank jb)).1 := by
  obtain ⟨hstatus, hopened, hfailed⟩ := init_channel lib (h.untouched _ hfresh) options bank jb 0
  have hformed : AllWellFormed ((api lib).step s (.init options bank jb)).1 :=
    (init_sound lib h.wellFormed hfresh).1
  simp only [api, table, hstatus] at hformed ⊢
  by_cases hok : openStatus options bank jb = uscNoError
  · rw [if_pos hok] at hformed
    rw [if_pos hok, if_pos hok]
    refine ⟨trivial, hformed, fun k hk => ?_, fun k hk => ?_, fun k hk => ?_⟩
    · rcases List.mem_cons.1 hk with rfl | hk
      · change _ = some (channelOf ((s.store bank.pMem _).memory bank.pMem))
        rw [Function.update_self, store_self, hopened hok]
      · have hne : k ≠ bank.pMem := fun he => hfresh (he ▸ hk)
        change _ = some (channelOf ((s.store bank.pMem _).memory k))
        rw [Function.update_of_ne hne, store_ne s hne]
        exact h.channel k hk
    · have hne : k ≠ bank.pMem := List.ne_of_not_mem_cons hk
      have hk := List.not_mem_of_not_mem_cons hk
      rw [Function.update_of_ne hne]
      exact h.none k hk
    · have hne : k ≠ bank.pMem := List.ne_of_not_mem_cons hk
      have hk := List.not_mem_of_not_mem_cons hk
      change Untouched _ ((s.store bank.pMem _).memory k)
      rw [store_ne s hne]
      exact h.untouched k hk
  · rw [if_neg hok] at hformed
    rw [if_neg hok, if_neg hok]
    refine ⟨trivial, hformed, fun k hk => ?_, h.none, fun k hk => ?_⟩
    · have hne : k ≠ bank.pMem := fun he => hfresh (he ▸ hk)
      rw [store_ne s hne]
      exact h.channel k hk
    · by_cases hke : k = bank.pMem
      · rw [hke, store_self]
        exact hfailed hok
      · rw [store_ne s hke]
        exact h.untouched k hk

/-- One permitted call on the blocks and on the channels: the same answer, and the blocks keep
showing the channels. -/
theorem step_shows (h : Shows memory s channels) {c : ApiCall} (hc : Permitted s c) :
    ((api lib).step s c).2 = ((table lib memory).step channels c).2 ∧
      Shows memory ((api lib).step s c).1 ((table lib memory).step channels c).1 := by
  cases c with
  | init options bank jb => exact init_shows lib h hc
  | getInfo params handle =>
    have hobj := h.wellFormed handle hc
    simp only [api, table, onChannel_some (h.channel handle hc), ← getInfo_channel lib hobj]
    exact ⟨trivial, h.same hc⟩
  | reinit modes handle =>
    have hobj := h.wellFormed handle hc
    simp only [api, table, onChannel_some (h.channel handle hc), ← reinit_channel lib hobj]
    exact ⟨trivial, h.store hc (reinit_keeps lib hobj modes)⟩
  | control modes handle =>
    have hobj := h.wellFormed handle hc
    simp only [api, table, onChannel_some (h.channel handle hc), ← control_channel lib hobj]
    exact ⟨trivial, h.store hc (control_keeps lib hobj modes)⟩
  | encode input pcmType buffer handle =>
    have hobj := h.wellFormed handle hc
    simp only [api, table, onChannel_some (h.channel handle hc), ← encode_channel lib hobj]
    cases hr : UscEvs.encode lib input pcmType buffer (s.memory handle) with
    | none => exact ⟨rfl, h.same hc⟩
    | some r => exact ⟨rfl, h.store hc (encode_keeps lib hobj hr).1⟩
  | decode input handle =>
    have hobj := h.wellFormed handle hc
    simp only [api, table, onChannel_some (h.channel handle hc), ← decode_channel lib hobj]
    exact ⟨trivial, h.store hc (decode_keeps lib hobj input).1⟩

end

end RtpServer.Verify.EvsChannels
