import RtpServer.Source.TypeDef

/-!
# User Plane Data packets (`upd.h`, `l_upd.c`)

The packet header, the payload buffer behind it and the functions that read the
payload size and the EVS SID fields. The header fields are 4 bits wide and any of
their values can occur, so the constants are values and not constructors.
-/
namespace RtpServer.Source.Upd

open RtpServer.Library RtpServer.Source.TypeDef

abbrev updCodecPcm : BitVec 4 := 1
abbrev updCodecGsmFr : BitVec 4 := 2
abbrev updCodecGsmEfr : BitVec 4 := 3
abbrev updCodecGsmHr : BitVec 4 := 4
abbrev updCodecAmrnb : BitVec 4 := 5
abbrev updCodecAmrwb : BitVec 4 := 6
abbrev updCodecBfp : BitVec 4 := 7
abbrev updCodecOpus : BitVec 4 := 8
abbrev updCodecIlbc : BitVec 4 := 9
abbrev updCodecG723 : BitVec 4 := 10
abbrev updCodecG729 : BitVec 4 := 11
abbrev updCodecEvrc : BitVec 4 := 12
abbrev updCodecData : BitVec 4 := 13
abbrev updCodecEvs : BitVec 4 := 14

abbrev updTypeNoData : BitVec 4 := 0
abbrev updTypeSpeechGood : BitVec 4 := 1
abbrev updTypeSpeechBad : BitVec 4 := 2
abbrev updTypeSpeechDegraded : BitVec 4 := 3
abbrev updTypeSpeechLost : BitVec 4 := 4
abbrev updTypeSidFirst : BitVec 4 := 5
abbrev updTypeSidUpdate : BitVec 4 := 6
abbrev updTypeSidBad : BitVec 4 := 7
abbrev updTypeSidUnreliable : BitVec 4 := 8
abbrev updTypeSpeechNoData : BitVec 4 := 10
abbrev updTypeSidNoData : BitVec 4 := 11
abbrev updTypeNotApplicable : BitVec 4 := 15

abbrev updModePcm05Ms : BitVec 4 := 0
abbrev updModePcm20Ms : BitVec 4 := 1
abbrev updModePcm10Ms : BitVec 4 := 2
abbrev updModePcm30Ms : BitVec 4 := 3
abbrev updModeBfp05Ms : BitVec 4 := 0
abbrev updModeBfp10Ms : BitVec 4 := 1
abbrev updModeBfp20Ms : BitVec 4 := 2
abbrev updModeBfp30Ms : BitVec 4 := 3
abbrev updModeIlbc1333 : BitVec 4 := 0
abbrev updModeIlbc1520 : BitVec 4 := 1
abbrev updModeG7230530 : BitVec 4 := 0
abbrev updModeG7230630 : BitVec 4 := 1
abbrev updModeEvrcEighthRate : BitVec 4 := 1
abbrev updModeEvrcQuarterRate : BitVec 4 := 2
abbrev updModeEvrcHalfRate : BitVec 4 := 3
abbrev updModeEvrcFullRate : BitVec 4 := 4
abbrev updModeNotApplicable : BitVec 4 := 15

abbrev updModeEvsPrimary2800 : BitVec 4 := 0
abbrev updModeEvsPrimary7200 : BitVec 4 := 1
abbrev updModeEvsPrimary8000 : BitVec 4 := 2
abbrev updModeEvsPrimary9600 : BitVec 4 := 3
abbrev updModeEvsPrimary13200 : BitVec 4 := 4
abbrev updModeEvsPrimary16400 : BitVec 4 := 5
abbrev updModeEvsPrimary24400 : BitVec 4 := 6
abbrev updModeEvsPrimary32000 : BitVec 4 := 7
abbrev updModeEvsPrimary48000 : BitVec 4 := 8
abbrev updModeEvsPrimary64000 : BitVec 4 := 9
abbrev updModeEvsPrimary96000 : BitVec 4 := 10
abbrev updModeEvsPrimary128000 : BitVec 4 := 11
abbrev updModeEvsPrimaryNotApplicable : BitVec 4 := 15
abbrev updModeEvsWbio6600 : BitVec 4 := 0
abbrev updModeEvsWbio8850 : BitVec 4 := 1
abbrev updModeEvsWbio12650 : BitVec 4 := 2
abbrev updModeEvsWbio14250 : BitVec 4 := 3
abbrev updModeEvsWbio15850 : BitVec 4 := 4
abbrev updModeEvsWbio18250 : BitVec 4 := 5
abbrev updModeEvsWbio19850 : BitVec 4 := 6
abbrev updModeEvsWbio23050 : BitVec 4 := 7
abbrev updModeEvsWbio23850 : BitVec 4 := 8
abbrev updModeEvsNotApplicable : BitVec 4 := 15

abbrev updFormPcmAny8Bit : BitVec 4 := 0
abbrev updFormPcmG711ALaw : BitVec 4 := 1
abbrev updFormPcmG711ULaw : BitVec 4 := 2
abbrev updFormPcmUdi : BitVec 4 := 3
abbrev updFormPcmLinear08Khz : BitVec 4 := 4
abbrev updFormPcmLinear16Khz : BitVec 4 := 5
abbrev updFormDataTData : BitVec 4 := 0
abbrev updFormDataNtData : BitVec 4 := 1
abbrev updFormDataT38 : BitVec 4 := 2
abbrev updEvsPrimaryMode : BitVec 4 := 0
abbrev updEvsWbioMode : BitVec 4 := 1
abbrev updEvsUnknowMode : BitVec 4 := 3

abbrev updHeaderSize16 : Nat := 2
abbrev updMaxPayloadSize8 : Nat := 960
/-- `UPD_MAX_PAYLOAD_SIZE_8` in words. -/
abbrev updMaxPayloadSize16 : Nat := 480
/-- The four bit-fields of the first header word, most significant first. -/
structure UpdHeader where
  codec : BitVec 4
  type : BitVec 4
  mode : BitVec 4
  form : BitVec 4
  deriving DecidableEq

/-- `upd_packet_t` in a buffer with room for `size16` payload words. -/
structure UpdPacket (size16 : Nat) extends UpdHeader where
  padding : Uint16
  payload : Buffer Uint16 size16

def UpdPacket.zero (size16 : Nat) : UpdPacket size16 :=
  ⟨⟨0, 0, 0, 0⟩, 0, Buffer.replicate size16 0⟩

/-- `L_UPD_IS_TYPE_SPEECH`, with lost and missing speech. -/
def lUpdIsTypeSpeech (t : BitVec 4) : Bool :=
  t = updTypeSpeechGood || t = updTypeSpeechDegraded || t = updTypeSpeechBad ||
    t = updTypeSpeechLost || t = updTypeSpeechNoData

def lUpdIsTypeSid (t : BitVec 4) : Bool :=
  t = updTypeSidFirst || t = updTypeSidUpdate || t = updTypeSidBad ||
    t = updTypeSidUnreliable || t = updTypeSidNoData

/-- A set of types is a bit mask; type 15 is in none. -/
def lUpdIsTypeInTypes (t : BitVec 4) (types : Nat) : Bool :=
  t.toNat < updTypeNotApplicable.toNat && types.testBit t.toNat

def updTypesPcm : Nat := 0x0443
def updTypesGsmFr : Nat := 0x0DE7
def updTypesGsmEfr : Nat := 0x0DE7
def updTypesGsmHr : Nat := 0x0DEF
def updTypesAmrnbGsm : Nat := 0x02EF
def updTypesAmrnbUmts : Nat := 0x0CE7
def updTypesAmrwbGsm : Nat := 0x02EF
def updTypesAmrwbUmts : Nat := 0x0CF7
def updTypesBfp : Nat := 0x0003
def updTypesIlbc : Nat := 0x0043
def updTypesG723 : Nat := 0x0C47
def updTypesG729 : Nat := 0x0C47

/-- `l_upd_is_type_valid`; a codec without a set of types has no valid one. -/
def lUpdIsTypeValid (codec type : BitVec 4) : Bool :=
  lUpdIsTypeInTypes type <|
    if codec = updCodecPcm then updTypesPcm
    else if codec = updCodecGsmFr then updTypesGsmFr
    else if codec = updCodecGsmEfr then updTypesGsmEfr
    else if codec = updCodecGsmHr then updTypesGsmHr
    else if codec = updCodecAmrnb then updTypesAmrnbGsm ||| updTypesAmrnbUmts
    else if codec = updCodecAmrwb then updTypesAmrwbGsm ||| updTypesAmrwbUmts
    else if codec = updCodecBfp then updTypesBfp
    else if codec = updCodecIlbc then updTypesIlbc
    else if codec = updCodecG723 then updTypesG723
    else if codec = updCodecG729 then updTypesG729
    else 0

def amrnbPayloadSizeInBits : List Nat := [95, 103, 118, 134, 148, 159, 204, 244]
def amrwbPayloadSizeInBits : List Nat := [132, 177, 253, 285, 317, 365, 397, 461, 477]
def evsPrimaryPayloadSizeInBits : List Nat :=
  [56, 144, 160, 192, 264, 328, 488, 640, 960, 1280, 1920, 2560]
def evsWbioPayloadSizeInBits : List Nat := [132, 177, 253, 285, 317, 365, 397, 461, 477]

/-- An entry of a size table, 0 beyond its end. -/
def sizeOfMode (sizes : List Nat) (mode : BitVec 4) : Nat := sizes.getD mode.toNat 0

def lUpdGetAmrPayloadSize1 (codec mode : BitVec 4) : Nat :=
  if codec = updCodecAmrnb then sizeOfMode amrnbPayloadSizeInBits mode
  else if codec = updCodecAmrwb then sizeOfMode amrwbPayloadSizeInBits mode
  else 0

def lUpdGetEvsPrimaryPayloadSize (mode : BitVec 4) : Nat :=
  sizeOfMode evsPrimaryPayloadSizeInBits mode

def lUpdGetEvsWbioPayloadSize (mode : BitVec 4) : Nat :=
  sizeOfMode evsWbioPayloadSizeInBits mode

/-- The octets of a T.38 packet, coded in its type and mode. -/
def lUpdGetT38PayloadSize8 (p : UpdHeader) : Nat := (p.type ++ p.mode : BitVec 8).toNat

/-- The octets of an Opus packet, coded in the other three fields; no bound is applied to them. -/
def lUpdGetOpusPayloadSize8 (p : UpdHeader) : Nat :=
  (p.type ++ p.mode ++ p.form : BitVec 12).toNat

/-- The four PCM durations of one sample format, in bits for 5 ms. -/
def pcmPayloadSize1 (mode : BitVec 4) (bits05Ms : Nat) : Nat :=
  if mode = updModePcm05Ms then bits05Ms
  else if mode = updModePcm10Ms then 2 * bits05Ms
  else if mode = updModePcm20Ms then 4 * bits05Ms
  else if mode = updModePcm30Ms then 6 * bits05Ms
  else 0

/-- `l_upd_get_payload_size_1`: the bits of the payload as the header alone implies them, 0 for a
header that is not valid. -/
def lUpdGetPayloadSize1 (p : UpdHeader) : Nat :=
  if p.codec = updCodecPcm then
    if p.type = updTypeSpeechGood ∨ p.type = updTypeSpeechNoData then
      if p.form = updFormPcmLinear08Khz then pcmPayloadSize1 p.mode 640
      else if p.form = updFormPcmLinear16Khz then pcmPayloadSize1 p.mode 1280
      else pcmPayloadSize1 p.mode 320
    else if p.type = updTypeSidUpdate ∨ p.type = updTypeSidNoData then size8To1 p.form.toNat
    else 0
  else if p.codec = updCodecGsmFr then speechOrSid p 260 260
  else if p.codec = updCodecGsmEfr then speechOrSid p 244 244
  else if p.codec = updCodecGsmHr then speechOrSid p 112 112
  else if p.codec = updCodecAmrnb then
    speechOrSid p (lUpdGetAmrPayloadSize1 updCodecAmrnb p.mode) 39
  else if p.codec = updCodecAmrwb then
    if p.type = updTypeSpeechLost then 0
    else speechOrSid p (lUpdGetAmrPayloadSize1 updCodecAmrwb p.mode) 40
  else if p.codec = updCodecBfp then
    if lUpdIsTypeValid updCodecBfp p.type ∧ lUpdIsTypeSpeech p.type then
      if p.mode = updModeBfp05Ms then 640
      else if p.mode = updModeBfp10Ms then 1280
      else if p.mode = updModeBfp20Ms then 2560
      else if p.mode = updModeBfp30Ms then 3840
      else 0
    else 0
  else if p.codec = updCodecIlbc then
    if p.type = updTypeSpeechGood then
      if p.mode = updModeIlbc1520 then 304
      else if p.mode = updModeIlbc1333 then 400
      else 0
    else if p.type = updTypeSidUpdate then size8To1 p.form.toNat
    else 0
  else if p.codec = updCodecG723 then
    if p.type = updTypeSpeechGood ∨ p.type = updTypeSpeechBad ∨ p.type = updTypeSpeechNoData then
      if p.mode = updModeG7230630 then 192
      else if p.mode = updModeG7230530 then 160
      else 0
    else if p.type = updTypeSidUpdate ∨ p.type = updTypeSidNoData then 32
    else 0
  else if p.codec = updCodecG729 then
    if p.mode = updModeNotApplicable then
      if p.type = updTypeSpeechGood ∨ p.type = updTypeSpeechBad ∨
          p.type = updTypeSpeechNoData then 80
      else if p.type = updTypeSidUpdate ∨ p.type = updTypeSidNoData then 15
      else 0
    else 0
  else if p.codec = updCodecData then
    if p.form = updFormDataTData then (if p.type = updTypeSpeechGood then 640 else 0)
    else if p.form = updFormDataNtData then (if p.type = updTypeSpeechGood then 576 else 0)
    else if p.form = updFormDataT38 then size8To1 (lUpdGetT38PayloadSize8 p)
    else 0
  else if p.codec = updCodecOpus then size8To1 (lUpdGetOpusPayloadSize8 p)
  else if p.codec = updCodecEvrc then
    if lUpdIsTypeSpeech p.type then
      if p.mode = updModeEvrcFullRate then 171
      else if p.mode = updModeEvrcHalfRate then 80
      else if p.mode = updModeEvrcQuarterRate then 40
      else if p.mode = updModeEvrcEighthRate then 16
      else 0
    else 0
  else if p.codec = updCodecEvs then
    if p.type = updTypeSpeechLost then 0
    else if p.form = updEvsWbioMode then
      if lUpdIsTypeSid p.type then 35
      else if lUpdIsTypeSpeech p.type then lUpdGetEvsWbioPayloadSize p.mode
      else 0
    else if p.form = updEvsPrimaryMode then
      if lUpdIsTypeSid p.type then 48
      else if lUpdIsTypeSpeech p.type then lUpdGetEvsPrimaryPayloadSize p.mode
      else 0
    else 0
  else 0
where
  speechOrSid (p : UpdHeader) (speech sid : Nat) : Nat :=
    if lUpdIsTypeValid p.codec p.type then
      if lUpdIsTypeSpeech p.type then speech
      else if lUpdIsTypeSid p.type then sid
      else 0
    else 0

def lUpdGetPcmSizeSamples (mode : BitVec 4) : Nat :=
  if mode = updModePcm05Ms then 40
  else if mode = updModePcm10Ms then 80
  else if mode = updModePcm20Ms then 160
  else if mode = updModePcm30Ms then 240
  else 0

/-- Word `i` of the payload, as the machine reads it. -/
def payloadWord (payload : List Uint16) (i : Nat) : Uint16 := payload.getD i 0

/-- `l_upd_get_evs_primary_sid_type`, from word 2 of the host. -/
def lUpdGetEvsPrimarySidType (evsPayload : List Uint16) : BitVec 4 :=
  if payloadWord evsPayload 2 &&& 0x1000 = 0 then updTypeSidFirst else updTypeSidUpdate

/-- `l_upd_get_evs_primary_sid_mode`, from the low nibble of octet 5 on a little-endian machine; 12
to 15 are no mode. -/
def lUpdGetEvsPrimarySidMode (evsPayload : List Uint16) : BitVec 4 :=
  let mode := (payloadWord evsPayload 2 &&& 0x0F00) >>> 8
  if mode.toNat ≤ updModeEvsPrimary128000.toNat then mode.setWidth 4
  else updModeEvsPrimaryNotApplicable

end RtpServer.Source.Upd
