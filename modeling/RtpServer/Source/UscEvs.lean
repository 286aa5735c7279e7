import RtpServer.Source.EvsSerial
import RtpServer.Source.Usc

/-!
# The EVS codec behind the function table (`uscEVS.c`, `utilEVS.c`)

The functions of `USC_EVS_Fxns`, over the encoder and decoder objects of the IPP library as
a parameter. A handle is the address of a block that holds a header and, behind it, one of
the two objects. Pointers no caller passes as `NULL` are not checked here.
-/
namespace RtpServer.Source.UscEvs

open RtpServer.Library RtpServer.Source.Usc RtpServer.Source.EvsSerial

def uscNotInitialized : UscStatus := -8
def uscInvalidHandler : UscStatus := -7
def uscNoOperation : UscStatus := -6
def uscUnsupportedPcmType : UscStatus := -5
def uscUnsupportedBitRate : UscStatus := -4
def uscUnsupportedVadType : UscStatus := -2
def uscBadDataPointer : UscStatus := -1

/-- An `int` stored in a `Word16` member. -/
def toWord16 (n : Int) : Sint16 := BitVec.ofInt 16 n

structure UscPcmType where
  sampleFrequency : Int := 0
  bitPerSample : Int := 0
  nChannels : Int := 0
  deriving DecidableEq

/-- `USC_Option` with the members only this codec reads; `jbmEnabled` is one of its modes. -/
structure UscEvsOption extends UscOption where
  framesize : Int := 0
  pcmType : UscPcmType := {}
  jbmEnabled : Int := 0
  deriving DecidableEq

/-- `EVS_Handle_Header`, at the start of the block a handle points to. -/
structure EvsHandleHeader where
  direction : Int
  trunc : Int
  bitrate : Int
  vad : Int
  resetFlag : Int
  resetFlagOld : Int
  bitrateOld : Int
  usedRate : Int
  bitstreamformat : Int
  useParitalCopy : Int
  nextCoderType : Int
  deriving DecidableEq

/-- `sizeof(EVS_Handle_Header)`, two reserved members included. -/
def evsHandleHeaderSize : Int := 52

/-- The library's encoder parameters; a 16-bit member takes the low half of what a caller sets. -/
structure EncoderCntrl where
  inputFsFx : Int := 0
  totalBrateFx : Int := 0
  optDtxOnFx : Sint16 := 0
  optRfOn : Sint16 := 0
  rfFecOffset : Sint16 := 0
  rfFecIndicator : Sint16 := 0
  maxBwidthFx : Sint16 := 0
  intervalSidFx : Sint16 := 0
  brateBwUpdate : Sint16 := 0
  deriving DecidableEq

/-- The library's decoder parameters; a bad frame is marked by `bfiFx`. -/
structure DecoderCntrl where
  outputFsFx : Int := 0
  totalBrateFx : Int := 0
  bfiFx : Sint16 := 0
  stiFlag : Sint16 := 0
  bitstreamformat : Sint16 := 0
  amrwbRfc4867Flag : Sint16 := 0
  isAmrwbIoMode : Sint16 := 0
  usePartialCopy : Sint16 := 0
  nextCoderType : Sint16 := 0
  coreMode : Sint16 := 0
  jbmTraceEnable : Sint16 := 0
  deriving DecidableEq

/-- `Intel_EVS_Encoder_*` and `Intel_EVS_Decoder_*`. `Exec` is given the memory its input
pointer names; the encoder fills the index list, the decoder answers with samples. -/
structure IntelEvs (ε δ : Type) where
  encoderSize : Nat
  encoderInit : ε → EncoderCntrl → ε
  encoderGetControl : ε → EncoderCntrl
  encoderSetParams : ε → EncoderCntrl → ε
  encoderExec : ε → List Uint8 → (nSamples : Sint16) → ε × Buffer IndiceFx maxNumIndices
  decoderSize : Nat
  decoderInit : δ → DecoderCntrl → δ
  decoderJbInit : δ → DecoderCntrl → δ
  decoderGetControl : δ → DecoderCntrl
  decoderSetParams : δ → DecoderCntrl → δ
  decoderExec : δ → List Uint8 → δ × List Uint16

/-- The block a handle points to; which of the two objects is there, the direction says. -/
structure EvsObject (ε δ : Type) where
  header : EvsHandleHeader
  enc : ε
  dec : δ

def fixedSidRate : Sint16 := 8
def evsUpdateBrate : Sint16 := 1
def evsUpdateBwidth : Sint16 := 2
def evsFrame : Int := 160
def evsBitsPerSample : Int := 16
def evsNchannels : Int := 1
def evsSampleFrequencies : List Int := [8000, 16000, 32000, 48000]

/-- `CheckRate_EVS`, -1 for a rate it does not know. -/
def checkRateEvs (rateBps : Int) : Int :=
  ([(6600, 0), (8850, 1), (12650, 2), (14250, 3), (15850, 4), (18250, 5), (19850, 6), (23050, 7),
    (23850, 8), (5900, 9), (7200, 10), (8000, 11), (9600, 12), (13200, 13), (16400, 14),
    (24400, 15), (32000, 16), (48000, 17), (64000, 18), (96000, 19),
    (128000, 20)].lookup rateBps).getD (-1)

def rate2AmrwbIoMode (rate : Int) : Int :=
  ([(1750, 9), (6600, 0), (8850, 1), (12650, 2), (14250, 3), (15850, 4), (18250, 5), (19850, 6),
    (23050, 7), (23850, 8)].lookup rate).getD (-1)

/-- `evs_rate2EVSmode`: the modes of a packet for the rates `Decode` is told, -1 for any other. -/
def evsRate2EvsMode (rate : Int) : Int :=
  ([(0, 15), (2400, 12), (2800, 0), (7200, 1), (8000, 2), (9600, 3), (13200, 4), (16400, 5),
    (24400, 6), (32000, 7), (48000, 8), (64000, 9), (96000, 10),
    (128000, 11)].lookup rate).getD (rate2AmrwbIoMode rate)

/-- 16 bits, one channel, and one of the four frequencies. -/
def checkPcmType (pcmType : UscPcmType) : Bool :=
  pcmType.bitPerSample = evsBitsPerSample && pcmType.sampleFrequency ∈ evsSampleFrequencies &&
    pcmType.nChannels = evsNchannels

def checkVad (vad : Int) : Bool := 0 ≤ vad && vad ≤ 1

section

variable {ε δ : Type} (lib : IntelEvs ε δ)

/-- `GetInfo`; a general inquiry without a handle. -/
def getInfo (handle : Option (EvsObject ε δ)) (params : UscEvsOption) : UscEvsOption :=
  match handle with
  | none =>
    { params with
      framesize := evsFrame * 2
      modes := { params.modes with bitrate := 6600, truncate := 1, vad := 1 }
      direction := uscDecode
      pcmType := ⟨16000, evsBitsPerSample, evsNchannels⟩ }
  | some obj =>
    let params :=
      if obj.header.direction = uscEncode then
        let enCntrl := lib.encoderGetControl obj.enc
        { params with
          pcmType := { params.pcmType with sampleFrequency := enCntrl.inputFsFx }
          framesize := enCntrl.inputFsFx.tdiv 50 * 2
          modes := { params.modes with
            optRfOn := enCntrl.optRfOn.toInt
            rfFecOffset := enCntrl.rfFecOffset.toInt
            rfFecIndicator := enCntrl.rfFecIndicator.toInt
            maxBwidthFx := enCntrl.maxBwidthFx.toInt
            intervalSidFx := enCntrl.intervalSidFx.toInt } }
      else
        let deCntrl := lib.decoderGetControl obj.dec
        { params with
          pcmType := { params.pcmType with sampleFrequency := deCntrl.outputFsFx }
          framesize := deCntrl.outputFsFx.tdiv 50 * 2 }
    { params with
      modes := { params.modes with
        bitrate := obj.header.bitrate, truncate := obj.header.trunc, vad := obj.header.vad }
      direction := obj.header.direction }

/-- `NumAlloc`; the second bank is the jitter buffer's. -/
def numAlloc (options : UscEvsOption) : Int :=
  if options.jbmEnabled = 1 ∧ options.direction = uscDecode then 2 else 1

/-- The status and the size asked for the first bank. -/
def memAlloc (options : UscEvsOption) : UscStatus × Int :=
  if 1 < options.modes.vad then (uscUnsupportedVadType, 0)
  else if options.direction = uscEncode then (uscNoError, lib.encoderSize + evsHandleHeaderSize)
  else if options.direction = uscDecode then (uscNoError, lib.decoderSize + evsHandleHeaderSize)
  else (uscNoOperation, 0)

/-- The checks of `Init`, in their order. -/
def initStatus (options : UscEvsOption) (bank : UscMemBank) : UscStatus :=
  if bank.pMem = 0 then uscBadDataPointer
  else if bank.nbytes ≤ 0 then uscNotInitialized
  else if !checkVad options.modes.vad then uscUnsupportedVadType
  else if !checkPcmType options.pcmType then uscUnsupportedPcmType
  else if checkRateEvs options.modes.bitrate < 0 then uscUnsupportedBitRate
  else uscNoError

def initEncoderCntrl (options : UscEvsOption) : EncoderCntrl where
  inputFsFx := options.pcmType.sampleFrequency
  totalBrateFx := options.modes.bitrate
  optDtxOnFx := toWord16 options.modes.vad
  optRfOn := toWord16 options.modes.optRfOn
  rfFecOffset := toWord16 options.modes.rfFecOffset
  rfFecIndicator := toWord16 options.modes.rfFecIndicator
  maxBwidthFx := toWord16 options.modes.maxBwidthFx
  intervalSidFx := 1
  brateBwUpdate := evsUpdateBrate ||| evsUpdateBwidth

def initDecoderCntrl (options : UscEvsOption) : DecoderCntrl where
  outputFsFx := options.pcmType.sampleFrequency
  totalBrateFx := options.modes.bitrate
  bitstreamformat := toWord16 options.modes.bitstreamformat

/-- `Init`, on the block the bank names and the handle variable's old value; `jb` is the bank
of the jitter buffer, looked at only when it is enabled. -/
def init (options : UscEvsOption) (bank jb : UscMemBank) (handle : UscHandle)
    (obj : EvsObject ε δ) : UscStatus × UscHandle × EvsObject ε δ :=
  if initStatus options bank ≠ uscNoError then (initStatus options bank, handle, obj)
  else
    let header := { obj.header with
      direction := options.direction
      trunc := options.modes.truncate
      vad := options.modes.vad
      bitrate := options.modes.bitrate
      bitrateOld := options.modes.bitrate }
    if options.direction = uscEncode then
      (uscNoError, bank.pMem,
        { obj with header := header, enc := lib.encoderInit obj.enc (initEncoderCntrl options) })
    else if options.direction = uscDecode then
      let started := { header with
        usedRate := options.modes.bitrate
        resetFlag := 0
        resetFlagOld := 1
        bitstreamformat := options.modes.bitstreamformat }
      if options.jbmEnabled ≠ 0 then
        if jb.pMem = 0 then (uscBadDataPointer, bank.pMem, { obj with header := header })
        else if jb.nbytes ≤ 0 then (uscNotInitialized, bank.pMem, { obj with header := header })
        else
          let deCntrl := { initDecoderCntrl options with bitstreamformat := 2 }
          (uscNoError, bank.pMem,
            { obj with
              header := started
              dec := lib.decoderInit (lib.decoderJbInit obj.dec deCntrl) deCntrl })
      else
        (uscNoError, bank.pMem,
          { obj with
            header := started
            dec := lib.decoderInit obj.dec (initDecoderCntrl options) })
    else (uscNoOperation, 0, { obj with header := header })

/-- What `Reinit` and `Control` check of the modes. -/
def modesStatus (modes : UscModes) : UscStatus :=
  if !checkVad modes.vad then uscUnsupportedVadType
  else if checkRateEvs modes.bitrate < 0 then uscUnsupportedBitRate
  else uscNoError

/-- The parameters that `Reinit` and `Control` both set. -/
def encoderCntrlOf (modes : UscModes) (enCntrl : EncoderCntrl) : EncoderCntrl :=
  { enCntrl with
    totalBrateFx := modes.bitrate
    optDtxOnFx := toWord16 modes.vad
    optRfOn := toWord16 modes.optRfOn
    rfFecOffset := toWord16 modes.rfFecOffset
    rfFecIndicator := toWord16 modes.rfFecIndicator
    maxBwidthFx := toWord16 modes.maxBwidthFx }

/-- `Reinit`: the object starts again, with the parameters it had and those of the modes. The rate
in use of a decoder becomes 6600 whatever the modes say. -/
def reinit (modes : UscModes) (obj : EvsObject ε δ) : UscStatus × EvsObject ε δ :=
  if modesStatus modes ≠ uscNoError then (modesStatus modes, obj)
  else
    let header := { obj.header with
      vad := modes.vad, bitrate := modes.bitrate, bitrateOld := modes.bitrate }
    if header.direction = uscEncode then
      let enCntrl := { encoderCntrlOf modes (lib.encoderGetControl obj.enc) with
        intervalSidFx := fixedSidRate
        brateBwUpdate := evsUpdateBrate ||| evsUpdateBwidth }
      (uscNoError,
        { obj with
          header := { header with resetFlag := 0 }
          enc := lib.encoderInit obj.enc enCntrl })
    else if header.direction = uscDecode then
      let deCntrl := { lib.decoderGetControl obj.dec with
        totalBrateFx := modes.bitrate
        bitstreamformat := toWord16 modes.bitstreamformat }
      (uscNoError,
        { obj with
          header := { header with
            usedRate := 6600
            resetFlag := 0
            resetFlagOld := 1
            bitstreamformat := modes.bitstreamformat }
          dec := lib.decoderInit obj.dec deCntrl })
    else (uscNoOperation, { obj with header := header })

/-- `Control`. An encoder gets its parameters, a decoder only what `Decode` will read. -/
def control (modes : UscModes) (obj : EvsObject ε δ) : UscStatus × EvsObject ε δ :=
  if modesStatus modes ≠ uscNoError then (modesStatus modes, obj)
  else
    let header := { obj.header with
      trunc := modes.truncate, vad := modes.vad, bitrate := modes.bitrate }
    if header.direction = uscEncode then
      let brate : Sint16 := if modes.updateBrateOn ≠ 0 then evsUpdateBrate else 0
      let bwidth : Sint16 := if modes.updateBwidthOn ≠ 0 then evsUpdateBwidth else 0
      let enCntrl := { encoderCntrlOf modes (lib.encoderGetControl obj.enc) with
        intervalSidFx := toWord16 modes.intervalSidFx
        brateBwUpdate := brate ||| bwidth }
      (uscNoError, { obj with header := header, enc := lib.encoderSetParams obj.enc enCntrl })
    else if header.direction = uscDecode then
      (uscNoError,
        { obj with
          header := { header with
            useParitalCopy := modes.useParitalCopy
            nextCoderType := modes.nextCoderType
            bitstreamformat := modes.bitstreamformat } })
    else (uscNoError, { obj with header := header })

structure EvsEncoded where
  pBuffer : List Uint8
  nbytes : Int
  bitrate : Int
  deriving DecidableEq

def encodeStatus (input : UscPcmStream) (pcmType : UscPcmType) (obj : EvsObject ε δ) : UscStatus :=
  if !checkPcmType pcmType then uscUnsupportedPcmType
  else if obj.header.direction ≠ uscEncode then uscNoOperation
  else if checkRateEvs input.bitrate < 0 then uscUnsupportedBitRate
  else uscNoError

/-- `Encode`; `buffer` is the memory at `out->pBuffer`, and `none` an access outside it. -/
def encode (input : UscPcmStream) (pcmType : UscPcmType) (buffer : List Uint8)
    (obj : EvsObject ε δ) : Option (UscStatus × EvsObject ε δ × Option EvsEncoded) :=
  if encodeStatus input pcmType obj ≠ uscNoError then
    some (encodeStatus input pcmType obj, obj, none)
  else
    let enc := lib.encoderSetParams obj.enc
      { lib.encoderGetControl obj.enc with totalBrateFx := input.bitrate }
    let (enc, indList) := lib.encoderExec enc input.pBuffer (toWord16 (input.nbytes / 2))
    let obj := { obj with header := { obj.header with bitrate := input.bitrate }, enc := enc }
    (evsIndicesToSerialGeneric indList.cells maxNumIndices buffer 0).map fun r =>
      (uscNoError, obj, some ⟨r.1, (r.2.toInt + 7) / 8, r.2.toInt * 50⟩)

structure EvsDecoded where
  samples : List Uint16
  nbytes : Int
  pcmType : UscPcmType
  bitrate : Int
  deriving DecidableEq

/-- The octets of the table `LostFrame`. -/
def lostFrame : List Uint8 := List.replicate 640 0

/-- What `Decode` is given; the buffer pointer may be `NULL`. -/
structure EvsBitstream where
  pBuffer : Option (List Uint8)
  frametype : Int
  bitrate : Int

/-- The checks of `Decode`, in their order; a lost frame has no rate to check. -/
def decodeStatus (input : Option EvsBitstream) (obj : EvsObject ε δ) : UscStatus :=
  if obj.header.direction ≠ uscDecode then uscNoOperation
  else
    match input with
    | some stream =>
      if evsRate2EvsMode stream.bitrate < 0 then uscUnsupportedBitRate else uscNoError
    | none => uscNoError

/-- The rate, the bad frame mark and the memory given to `Exec`. -/
def decodeInput (input : Option EvsBitstream) (deCntrl : DecoderCntrl) : Int × Sint16 × List Uint8 :=
  match input with
  | some stream =>
    match stream.pBuffer with
    | some octets => (stream.bitrate, if stream.frametype = -1 then 1 else 0, octets)
    | none => (stream.bitrate, 1, lostFrame)
  | none => (deCntrl.totalBrateFx, 1, lostFrame)

def decodeCntrl (header : EvsHandleHeader) (rate : Int) (bfi : Sint16) (deCntrl : DecoderCntrl) :
    DecoderCntrl :=
  { deCntrl with
    totalBrateFx := rate
    bfiFx := bfi
    amrwbRfc4867Flag := 0
    usePartialCopy := toWord16 header.useParitalCopy
    nextCoderType := toWord16 header.nextCoderType
    bitstreamformat := toWord16 header.bitstreamformat }

/-- `Decode`; without an input the frame is a lost one. -/
def decode (input : Option EvsBitstream) (obj : EvsObject ε δ) :
    UscStatus × EvsObject ε δ × Option EvsDecoded :=
  if decodeStatus input obj ≠ uscNoError then (decodeStatus input obj, obj, none)
  else
    let deCntrl := lib.decoderGetControl obj.dec
    let (rate, bfi, octets) := decodeInput input deCntrl
    let header := { obj.header with bitrate := rate }
    let dec := lib.decoderSetParams obj.dec (decodeCntrl header rate bfi deCntrl)
    let (dec, samples) := lib.decoderExec dec octets
    (uscNoError, { obj with header := header, dec := dec },
      some ⟨samples, (deCntrl.outputFsFx * 2).tdiv 50,
        ⟨deCntrl.outputFsFx, evsBitsPerSample, evsNchannels⟩, rate⟩)

end

/-! ## The size of an output stream -/

/-- `BitsLenTbl`; of its 21 entries the initialiser names 20. -/
def bitsLenTbl : List Int :=
  [132, 177, 253, 285, 317, 365, 397, 461, 477, 118, 144, 192, 264, 328, 488, 640, 960, 1280, 1920,
    2560, 0]

/-- `getBitstreamSize` for speech: the octets of one coded frame. -/
def getBitstreamSize (rate : Int) : Int := (bitsLenTbl.getD rate.toNat 0 + 7) / 8

/-- `ippsMalloc_8u`: the address of each block in turn, 0 when there is no memory left, and
what a block for an internal structure happens to hold in its handle member. -/
structure IppsMalloc where
  address : (block : Nat) → (nbytes : Int) → Nat
  held : (block : Nat) → UscHandle

/-- The memory of the process as far as the codec knows it, and the members of the option
structure that its callers leave to it between `GetInfo` and `Init`. -/
structure EvsWorld (ε δ : Type) where
  params : UscEvsOption
  memory : UscHandle → EvsObject ε δ
  blocks : Nat

section

variable {ε δ : Type} (lib : IntelEvs ε δ)

def EvsWorld.store (s : EvsWorld ε δ) (handle : UscHandle) (obj : EvsObject ε δ) : EvsWorld ε δ :=
  { s with memory := fun h => if h = handle then obj else s.memory h }

/-- The option structure of a caller who sets its own members in what `GetInfo` filled in. -/
def EvsWorld.options (s : EvsWorld ε δ) (params : UscOption) : UscEvsOption :=
  { s.params with toUscOption := params }

/-- Octets for a frame of `maxNumIndices` indices of 16 bits. -/
def maxFrameSize8 : Nat := 2 * maxNumIndices

/-- The PCM type `m_evs_enc` puts into its stream. -/
def encPcmType : UscPcmType := ⟨16000, evsBitsPerSample, evsNchannels⟩

/-- What `m_evs_enc` sees of the stream; after an error nothing was written. -/
def encodedOctets (out : Option EvsEncoded) : UscEncoded :=
  match out with
  | some out => ⟨out.pBuffer.take out.nbytes.toNat, out.nbytes.toNat, out.bitrate⟩
  | none => ⟨[], 0, 0⟩

/-- `USC_EVS_Fxns`. -/
def uscEvsFxns (ipps : IppsMalloc) : UscFxns (EvsWorld ε δ) where
  getInfo s params :=
    let info := getInfo lib none { toUscOption := params }
    ⟨uscNoError, info.toUscOption, { s with params := info }⟩
  numAlloc s params := ⟨uscNoError, numAlloc (s.options params), s⟩
  memAlloc s params :=
    let r := memAlloc lib (s.options params)
    ⟨r.1, r.2, s⟩
  mallocInternal s := ⟨uscNoError, ipps.held s.blocks, { s with blocks := s.blocks + 1 }⟩
  mallocBank s nbytes := ⟨uscNoError, ipps.address s.blocks nbytes, { s with blocks := s.blocks + 1 }⟩
  init s params bank handle :=
    let r := init lib (s.options params) bank ⟨0, 0⟩ handle (s.memory bank.pMem)
    ⟨r.1, r.2.1, s.store bank.pMem r.2.2⟩
  control s modes handle :=
    if handle = 0 then ⟨uscInvalidHandler, (), s⟩
    else
      let r := control lib modes (s.memory handle)
      ⟨r.1, (), s.store handle r.2⟩
  decode s handle input :=
    if handle = 0 then ⟨uscInvalidHandler, [], s⟩
    else
      let r := decode lib (some ⟨some input.pBuffer, input.frametype, input.bitrate⟩)
        (s.memory handle)
      ⟨r.1, (r.2.2.map (·.samples)).getD [], s.store handle r.2.1⟩
  encode s handle input :=
    if handle = 0 then ⟨uscInvalidHandler, encodedOctets none, s⟩
    else
      match encode lib input encPcmType (List.replicate maxFrameSize8 0) (s.memory handle) with
      | some r => ⟨r.1, encodedOctets r.2.2, s.store handle r.2.1⟩
      | none => ⟨uscNoError, encodedOctets none, s⟩

end

end RtpServer.Source.UscEvs
