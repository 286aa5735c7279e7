import RtpServer.Source.Mgw
import RtpServer.Source.Upd
import RtpServer.Source.Usc

/-!
# EVS codec module (`m_evs.c`)

Initialisation, encoding, decoding and release over an arbitrary codec library. A module
structure is `none` where the source has a `NULL` pointer to it.
-/
namespace RtpServer.Source.EvsCodec

open RtpServer.Library RtpServer.Library.LittleEndian
open RtpServer.Source.TypeDef RtpServer.Source.Upd RtpServer.Source.Usc

def eMEvsSevere : Ecode := severeMask 0x0D4
def eMEvsMinor : Ecode := minorMask 0x0D4

def eMEvsUnexpectedNullPointer : Ecode := eMEvsSevere ||| errorCInternal ||| 0x001
def eMEvsDecInitFailed : Ecode := eMEvsSevere ||| errorCInternal ||| 0x004
def eMEvsEncControlFailed : Ecode := eMEvsMinor ||| errorCInternal ||| 0x001
def eMEvsEncProcessFailed : Ecode := eMEvsMinor ||| errorCInternal ||| 0x002
def eMEvsEncAlgAllocFail : Ecode := eMEvsSevere ||| errorCInternal ||| 0x006
def eMEvsEncCreateFail : Ecode := eMEvsSevere ||| errorCInternal ||| 0x007
def eMEvsDecAlgAllocFail : Ecode := eMEvsSevere ||| errorCInternal ||| 0x008
def eMEvsDecCreateFail : Ecode := eMEvsSevere ||| errorCInternal ||| 0x009
def eMEvsEncUnknownCodecMode : Ecode := eMEvsSevere ||| errorCInternal ||| 0x100
def eMEvsIncorrectUpdCodecType : Ecode := eMEvsSevere ||| errorCInternal ||| 0x101
def eMEvsMemNullPointer : Ecode := eMEvsSevere ||| errorCInternal ||| 0x102
def eMEvsDecUnknownCodecMode : Ecode := eMEvsSevere ||| errorCInternal ||| 0x200
def eMEvsDecControlProcessFailed : Ecode := eMEvsSevere ||| errorCInternal ||| 0x201
def eMEvsDecDecodeProcessFailed : Ecode := eMEvsSevere ||| errorCInternal ||| 0x202

/-- `EVS_ENC_NBUFS` and `EVS_DEC_NBUFS`: the one bank both modules provide. -/
def evsNbufs : Int := 1

/-- `primary_mode_br`, in bit/s; the first entry is no mode. -/
def primaryModeBr : List Int :=
  [0, 5900, 7200, 8000, 9600, 13200, 16400, 24400, 32000, 48000, 64000, 96000, 128000]

def wbioModeBr : List Int :=
  [0, 6600, 8850, 12650, 14250, 15850, 18250, 19850, 23050, 23850]

def evsPrimaryModeBr (mode : Nat) : Int :=
  let i := if updModeEvsPrimary128000.toNat < mode then 0 else mode + 1
  primaryModeBr.getD i 0

def evsWbioModeBr (mode : Nat) : Int :=
  let i := if updModeEvsWbio23850.toNat < mode then 0 else mode + 1
  wbioModeBr.getD i 0

/-- `get_evs_bitrate`; 0 for a form that is neither of the two. -/
def getEvsBitrate (evsMode mode : Nat) : Int :=
  if evsMode = updEvsPrimaryMode.toNat then evsPrimaryModeBr mode
  else if evsMode = updEvsWbioMode.toNat then evsWbioModeBr mode
  else 0

/-- -1 is the codec's mark of a lost frame. -/
def frameTypeUpdPacketToIpp (frameType : BitVec 4) : Int :=
  if frameType = updTypeNoData ∨ frameType = updTypeSpeechLost ∨
      frameType = updTypeNotApplicable ∨ frameType = updTypeSidFirst then -1
  else frameType.toNat

def txSpeech : Int := 0
def txSidFirst : Int := 1
def txSidUpdate : Int := 2
def txNoData : Int := 3

def mapTypeFromUscToUpd (uscType : Int) : BitVec 4 :=
  if uscType = txSpeech then updTypeSpeechGood
  else if uscType = txSidFirst then updTypeSidUpdate
  else if uscType = txSidUpdate then updTypeSidUpdate
  else if uscType = txNoData then updTypeNoData
  else updTypeNotApplicable

/-- `m_internal_evs_dec_data`: the bank, the handle `Init` returned, and a counter that only a
disabled block reads. -/
structure MInternalEvsDecData where
  pMem : Nat
  decHandle : UscHandle
  decFramesNumb : Nat
  deriving DecidableEq

/-- `m_internal_evs_enc_data`, with the options the codec was opened with. -/
structure MInternalEvsEncData where
  pMem : Nat
  encHandle : UscHandle
  codecInfo : UscOption
  deriving DecidableEq

/-- `codec_dec_data_t` without the packet pointers, which `mEvsDec` takes as arguments. -/
structure CodecDecData where
  internal : Option MInternalEvsDecData := none
  extraEcode : Uint32 := 0
  outputSampleRateHz : Nat := 0
  deriving DecidableEq

/-- `codec_enc_data_t` without the packet pointers; the control members are the ones
`m_evs_enc` reads. -/
structure CodecEncData where
  internal : Option MInternalEvsEncData := none
  extraEcode : Uint32 := 0
  evsMode : BitVec 4 := 0
  evsFecEnable : BitVec 1 := 0
  evsFecOffset : BitVec 3 := 0
  mode : Nat := 0
  dtxEnabled : BitVec 1 := 0
  deriving DecidableEq

/-- A codec status in the `uint32` that keeps it. -/
def statusCode (status : Int) : Uint32 := BitVec.ofInt 32 status

/-- How far the initialisation got. From `initialised` on there is an internal structure. -/
inductive UscOpened where
  | getInfoFailed (status : UscStatus)
  | numAllocFailed (status : UscStatus)
  | memAllocFailed (status : UscStatus)
  | initialised (status : UscStatus) (params : UscOption) (pMem : Nat) (handle : UscHandle)
  deriving DecidableEq

/-- The calls both initialisation functions make, in order. `params` is the structure
passed to `GetInfo` and `adjust` what is changed in it afterwards. -/
def uscOpen {σ : Type} (fxns : UscFxns σ) (s : σ) (params : UscOption)
    (adjust : UscOption → UscOption) : UscOpened × σ :=
  let info := fxns.getInfo s params
  if info.status ≠ uscNoError then (.getInfoFailed info.status, info.next)
  else
    let params := adjust info.value
    let num := fxns.numAlloc info.next params
    if num.status ≠ uscNoError ∧ num.value ≠ evsNbufs then (.numAllocFailed num.status, num.next)
    else
      let mem := fxns.memAlloc num.next params
      if mem.status ≠ uscNoError then (.memAllocFailed mem.status, mem.next)
      else
        let block := fxns.mallocInternal mem.next
        let bank := fxns.mallocBank block.next mem.value
        let opened := fxns.init bank.next params ⟨bank.value, mem.value⟩ block.value
        (.initialised opened.status params bank.value opened.value, opened.next)

def decParams : UscOption := { direction := uscDecode }

def adjustDecParams (p : UscOption) : UscOption :=
  { p with modes := { p.modes with bitstreamformat := 0, bitrate := 128000 } }

def adjustEncParams (p : UscOption) : UscOption := { p with direction := uscEncode }

section

variable {σ : Type} (fxns : UscFxns σ)

/-- `m_evs_dec_init`. An initialisation that fails before `Init` leaves an older internal structure
where it is. -/
def mEvsDecInit (s : σ) (evsDec : CodecDecData) : Ecode × CodecDecData × σ :=
  let (opened, s) := uscOpen fxns s decParams adjustDecParams
  match opened with
  | .getInfoFailed status =>
    (eMEvsDecAlgAllocFail, { evsDec with extraEcode := statusCode status }, s)
  | .numAllocFailed status =>
    (eMEvsDecCreateFail, { evsDec with extraEcode := statusCode status }, s)
  | .memAllocFailed status =>
    (eMEvsDecAlgAllocFail, { evsDec with extraEcode := statusCode status }, s)
  | .initialised status _ pMem handle =>
    if status ≠ uscNoError then
      -- the internal structure is already published
      (eMEvsDecInitFailed,
        { evsDec with internal := some ⟨pMem, handle, 0⟩, extraEcode := statusCode status }, s)
    else
      (eaNoErrors,
        { evsDec with internal := some ⟨pMem, handle, 0⟩, extraEcode := eaNoErrors }, s)

/-- `m_evs_enc_init`; the options are kept once `Init` has succeeded. -/
def mEvsEncInit (s : σ) (evsEnc : CodecEncData) : Ecode × CodecEncData × σ :=
  let (opened, s) := uscOpen fxns s {} adjustEncParams
  match opened with
  | .getInfoFailed status =>
    (eMEvsEncAlgAllocFail, { evsEnc with extraEcode := statusCode status }, s)
  | .numAllocFailed status =>
    (eMEvsEncCreateFail, { evsEnc with extraEcode := statusCode status }, s)
  | .memAllocFailed status =>
    (eMEvsEncAlgAllocFail, { evsEnc with extraEcode := statusCode status }, s)
  | .initialised status params pMem handle =>
    if status ≠ uscNoError then
      (eMEvsEncCreateFail,
        { evsEnc with internal := some ⟨pMem, handle, {}⟩, extraEcode := statusCode status }, s)
    else
      (eaNoErrors,
        { evsEnc with internal := some ⟨pMem, handle, params⟩, extraEcode := eaNoErrors }, s)

structure MEvsDecResult (σ : Type) (m : Nat) where
  ecode : Ecode
  evsDec : CodecDecData
  linPcm : Option (UpdPacket m)
  next : σ

/-- The modes given to `Control` before each frame. -/
def decModes (decBitrate : Int) : UscModes :=
  { truncate := 1, bitrate := decBitrate, useParitalCopy := 0, nextCoderType := 0,
    bitstreamformat := 0, vad := 1 }

/-- The stream given to `Decode`: the payload through to the end of its buffer, with the size that
the header of the packet implies. -/
def decInBuf {n : Nat} (codecPacket : UpdPacket n) (decBitrate : Int) : UscBitstream where
  pBuffer := octets codecPacket.payload.cells
  nbytes := size1To8 (lUpdGetPayloadSize1 codecPacket.toUpdHeader)
  frametype := frameTypeUpdPacketToIpp
    (if codecPacket.type = updTypeSpeechNoData ∨ codecPacket.type = updTypeSidNoData then
      updTypeNoData else codecPacket.type)
  -- the decoder does not support 5.9 kbit/s SID packets
  bitrate := if decBitrate = 5900 then 2400 else decBitrate

/-- `m_evs_dec`. The PCM packet is marked as holding no data before the form is checked, and only a
frame that `Decode` has accepted gives it a header of 20 ms at 16 kHz. What `Decode` returned is in
the payload even after an error. -/
def mEvsDec {n m : Nat} (s : σ) (evsDec : CodecDecData) (updInputCodec : Option (UpdPacket n))
    (updLinPcm : Option (UpdPacket m)) : MEvsDecResult σ m :=
  match evsDec.internal, updLinPcm, updInputCodec with
  | some internal, some linPcmPacket, some codecPacket =>
    let linPcmPacket := { linPcmPacket with type := updTypeNoData }
    let evsMode := codecPacket.form
    if evsMode ≠ updEvsPrimaryMode ∧ evsMode ≠ updEvsWbioMode then
      ⟨eMEvsDecUnknownCodecMode, { evsDec with extraEcode := evsMode.setWidth 32 },
        some linPcmPacket, s⟩
    else
      let decBitrate := getEvsBitrate codecPacket.form.toNat codecPacket.mode.toNat
      let control := fxns.control s (decModes decBitrate) internal.decHandle
      if control.status ≠ uscNoError then
        ⟨eMEvsDecControlProcessFailed, { evsDec with extraEcode := statusCode decBitrate },
          some linPcmPacket, control.next⟩
      else
        let decode := fxns.decode control.next internal.decHandle (decInBuf codecPacket decBitrate)
        let linPcmPacket := { linPcmPacket with payload := linPcmPacket.payload.write 0 decode.value }
        if decode.status ≠ uscNoError then
          ⟨eMEvsDecDecodeProcessFailed, { evsDec with extraEcode := statusCode decode.status },
            some linPcmPacket, decode.next⟩
        else
          ⟨eaNoErrors, { evsDec with extraEcode := eaNoErrors },
            some { linPcmPacket with
              codec := updCodecPcm
              type := updTypeSpeechGood
              mode := updModePcm20Ms
              form := updFormPcmLinear16Khz }, decode.next⟩
  | _, _, _ => ⟨eMEvsUnexpectedNullPointer, evsDec, updLinPcm, s⟩

structure MEvsEncResult (σ : Type) (m : Nat) where
  ecode : Ecode
  evsEnc : CodecEncData
  outCodec : Option (UpdPacket m)
  next : σ

/-- The modes given to `Control` before each frame; the bandwidth limit is the bit rate. -/
def encModes (evsEnc : CodecEncData) (internal : MInternalEvsEncData) (encBitrate : Int) :
    UscModes :=
  { vad := evsEnc.dtxEnabled.toNat, truncate := 1, bitrate := encBitrate,
    rfFecIndicator := evsEnc.evsFecEnable.toNat, rfFecOffset := evsEnc.evsFecOffset.toNat,
    maxBwidthFx := encBitrate, optRfOn := internal.codecInfo.modes.optRfOn,
    updateBrateOn := 1, updateBwidthOn := 1, intervalSidFx := 1 }

def numberOfEvsModes (evsMode : BitVec 4) : Nat :=
  if evsMode = updEvsPrimaryMode then 12 else 9

/-- Type and mode by the rate the codec returns: 2400 bit/s and 0 are SID frames of mode 12, every
other rate is speech in the mode asked for. -/
def encFrametypeMode (outBitrate : Int) (evsBitrateMode : Nat) : Int × Nat :=
  if outBitrate = 2400 then (txSidFirst, 12)
  else if outBitrate = 0 then (txSidUpdate, 12)
  else (txSpeech, evsBitrateMode)

/-- `m_evs_enc`. The codec writes into the payload of the packet out, so its octets are there even
if it fails; the header is set only at the end. -/
def mEvsEnc {n m : Nat} (s : σ) (evsEnc : CodecEncData) (updLinPcm : Option (UpdPacket n))
    (updOutCodec : Option (UpdPacket m)) : MEvsEncResult σ m :=
  match evsEnc.internal, updLinPcm, updOutCodec with
  | some internal, some linPcmPacket, some outCodecPacket =>
    let evsPrimaryMode := evsEnc.evsMode
    if evsPrimaryMode ≠ updEvsPrimaryMode ∧ evsPrimaryMode ≠ updEvsWbioMode then
      ⟨eMEvsEncUnknownCodecMode, { evsEnc with extraEcode := evsPrimaryMode.setWidth 32 },
        updOutCodec, s⟩
    else if numberOfEvsModes evsPrimaryMode ≤ evsEnc.mode then
      ⟨eMEvsIncorrectUpdCodecType, { evsEnc with extraEcode := BitVec.ofNat 32 evsEnc.mode },
        updOutCodec, s⟩
    else
      let encBitrate := getEvsBitrate evsPrimaryMode.toNat evsEnc.mode
      let control := fxns.control s (encModes evsEnc internal encBitrate) internal.encHandle
      if control.status ≠ uscNoError then
        ⟨eMEvsEncControlFailed, { evsEnc with extraEcode := statusCode control.status },
          updOutCodec, control.next⟩
      else
        let inBuf : UscPcmStream :=
          { pBuffer := octets linPcmPacket.payload.cells
            nbytes := size1To8 (lUpdGetPayloadSize1 linPcmPacket.toUpdHeader)
            bitrate := encBitrate }
        let encode := fxns.encode control.next internal.encHandle inBuf
        let payload := outCodecPacket.payload.write 0 <|
          words (Buffer.blit (octets outCodecPacket.payload.cells) 0 encode.value.data)
        if encode.status ≠ uscNoError then
          ⟨eMEvsEncProcessFailed, { evsEnc with extraEcode := statusCode encode.status },
            some { outCodecPacket with payload := payload }, encode.next⟩
        else
          let (frametype, mode) := encFrametypeMode encode.value.bitrate evsEnc.mode
          ⟨eaNoErrors, evsEnc,
            some { outCodecPacket with
              codec := updCodecEvs
              type := mapTypeFromUscToUpd frametype
              mode := BitVec.ofNat 4 mode
              form := evsPrimaryMode
              payload := payload }, encode.next⟩
  | _, _, _ => ⟨eMEvsUnexpectedNullPointer, evsEnc, updOutCodec, s⟩

end

/-- `m_evs_dec_release`. Its two calls of `ippsFree` are not modelled: the memory has no owner here,
and a bank is not known to be free afterwards. With a `NULL` bank the structure stays. -/
def mEvsDecRelease (evsDec : CodecDecData) : Ecode × CodecDecData :=
  match evsDec.internal with
  | none => (eMEvsUnexpectedNullPointer, evsDec)
  | some internal =>
    if internal.pMem = 0 then
      (eMEvsMemNullPointer, { evsDec with internal := some { internal with decHandle := 0 } })
    else (eaNoErrors, { evsDec with internal := none })

/-- `m_evs_enc_release`; `ippsFree` is not modelled here either. -/
def mEvsEncRelease (evsEnc : CodecEncData) : Ecode × CodecEncData :=
  match evsEnc.internal with
  | none => (eMEvsUnexpectedNullPointer, evsEnc)
  | some internal =>
    if internal.pMem = 0 then
      (eMEvsMemNullPointer, { evsEnc with internal := some { internal with encHandle := 0 } })
    else (eaNoErrors, { evsEnc with internal := none })

end RtpServer.Source.EvsCodec
