import RtpServer.Source.EvsCodec
import RtpServer.Source.SampleRate

/-!
# EVS ingress processing (`evs.c`)

`evs_ingress_process` in its five steps, over the function-static state it keeps
between calls and the three static scratch packets. The configuration is the one the
source sets at the start of every call (Primary mode, compact format), under which the
mode request of step 2 is never reached; it would only write a local structure.
-/
namespace RtpServer.Source.EvsIngress

open RtpServer.Library RtpServer.Library.LittleEndian
open RtpServer.Source.TypeDef RtpServer.Source.Mgw RtpServer.Source.Upd RtpServer.Source.Usc
open RtpServer.Source.EvsCodec RtpServer.Source.SampleRate

/-- `EVS_HDR_FMT_*`; 56 bits may be a Primary 2.8 frame or an AMR-WB IO SID frame. -/
inductive EvsHdrFmt where
  | compact
  | full
  | ptSize56
  deriving DecidableEq

/-- `EVS_RTP_COMPACT_PRIMARY_PAYLOAD_SIZE_*` without the 56-bit size. -/
def compactPrimaryOnlySizes : List Nat :=
  [48, 144, 160, 192, 264, 328, 488, 640, 960, 1280, 1920, 2560]

def compactWbioSizes : List Nat := [136, 184, 256, 288, 320, 368, 400, 464, 480]

def getEvsWbioFormat (rtpPayloadSize1 : Nat) : EvsHdrFmt :=
  if rtpPayloadSize1 ∈ compactWbioSizes then .compact
  else if rtpPayloadSize1 = 56 then .ptSize56
  else .full

def getEvsPrimaryFormat (rtpPayloadSize1 : Nat) : EvsHdrFmt :=
  if rtpPayloadSize1 ∈ compactPrimaryOnlySizes then .compact
  else if rtpPayloadSize1 = 56 then .ptSize56
  else .full

def getEvsHdrFormat (rtpPayloadSize1 : Nat) (evsMode : BitVec 4) : EvsHdrFmt :=
  if evsMode = updEvsWbioMode then getEvsWbioFormat rtpPayloadSize1
  else getEvsPrimaryFormat rtpPayloadSize1

/-- `is_wbio_hf_sid`: the first bit of the payload, read through the bit-buffer copy. -/
def isWbioHfSid (rtpPayload : List Uint16) : Bool :=
  ((lMgwOrBitBuf rtpPayload 0 [0, 0] 15 1).getD [0, 0]).getD 0 0 = 1

/-- `get_compact_evs_mode`; a size of no frame gets a mode of its own. -/
def getCompactEvsMode (rtpPayloadSize : Nat) : BitVec 4 :=
  if rtpPayloadSize = 56 ∨ rtpPayloadSize ∈ compactPrimaryOnlySizes then updEvsPrimaryMode
  else if rtpPayloadSize ∈ compactWbioSizes then updEvsWbioMode
  else updEvsUnknowMode

def getEvsCompactIoModeFromPayloadSize (rtpPayloadSize : Nat) : BitVec 4 :=
  ([(136, updModeEvsWbio6600), (184, updModeEvsWbio8850), (256, updModeEvsWbio12650),
    (288, updModeEvsWbio14250), (320, updModeEvsWbio15850), (368, updModeEvsWbio18250),
    (400, updModeEvsWbio19850), (464, updModeEvsWbio23050),
    (480, updModeEvsWbio23850)].lookup rtpPayloadSize).getD updModeEvsNotApplicable

/-- The mode of a SID frame is read from its payload. -/
def getEvsCompactPrimaryModeFromPayloadSize (rtpPayloadSize : Nat) (updPayload : List Uint16) :
    BitVec 4 :=
  if rtpPayloadSize = 48 then lUpdGetEvsPrimarySidMode updPayload
  else
    ([(56, updModeEvsPrimary2800), (144, updModeEvsPrimary7200), (160, updModeEvsPrimary8000),
      (192, updModeEvsPrimary9600), (264, updModeEvsPrimary13200),
      (328, updModeEvsPrimary16400), (488, updModeEvsPrimary24400),
      (640, updModeEvsPrimary32000), (960, updModeEvsPrimary48000),
      (1280, updModeEvsPrimary64000), (1920, updModeEvsPrimary96000),
      (2560, updModeEvsPrimary128000)].lookup rtpPayloadSize).getD updModeEvsNotApplicable

/-- The bits of a speech frame without the request in front of it and the padding behind. -/
def getEvsAmrWbIoPayloadSizeFromMode (mode : BitVec 4) : Nat :=
  ([(updModeEvsWbio6600, 132), (updModeEvsWbio8850, 177), (updModeEvsWbio12650, 253),
    (updModeEvsWbio14250, 285), (updModeEvsWbio15850, 317), (updModeEvsWbio18250, 365),
    (updModeEvsWbio19850, 397), (updModeEvsWbio23050, 461),
    (updModeEvsWbio23850, 477)].lookup mode).getD 0

def getEvsCompactPrimaryUpdType (rtpPayloadSize : Nat) (updPayload : List Uint16) : BitVec 4 :=
  if rtpPayloadSize = 48 then lUpdGetEvsPrimarySidType updPayload else updTypeSpeechGood

/-- Room for payload words behind the header in `L_SCRATCH_ID_MB_IPT_DATA_IO`. -/
abbrev mbIptPayloadSize16 : Nat := 655 - updHeaderSize16

abbrev lin16KhzPayloadSize16 : Nat := 480
abbrev lin08KhzPayloadSize16 : Nat := 240

def mMbIptMaxSingleEvsDataOutputSize16 : Nat := 2 * 4 + 160

/-- The scratch packet after `l_mgw_memset_16`: header, padding and the first payload words. -/
def clearUpdBuffer (scratch : UpdPacket mbIptPayloadSize16) : UpdPacket mbIptPayloadSize16 where
  codec := 0
  type := 0
  mode := 0
  form := 0
  padding := 0
  payload := scratch.payload.write 0
    (List.replicate (mMbIptMaxSingleEvsDataOutputSize16 - updHeaderSize16) 0)

/-- `l_mgw_or_bit_buf` into the payload of a packet; an access outside the buffers, which
C leaves undefined, changes nothing here. -/
def orIntoPayload {n : Nat} (rtpPayload : List Uint16) (srcBitShift : Nat)
    (payload : Buffer Uint16 n) (trgBitShift bufferSize : Nat) : Buffer Uint16 n :=
  payload.write 0
    ((lMgwOrBitBuf rtpPayload srcBitShift payload.cells trgBitShift bufferSize).getD payload.cells)

def evsCompactCmrEntrySize : Nat := 3

/-- `create_evs_upd_packet_compact`, on the scratch packet of the call before, which is cleared
first. A Primary SID frame gets its mode and type from the payload just copied. -/
def createEvsUpdPacketCompact (rtpPayload : List Uint16) (rtpPayloadSize : Nat)
    (scratch : UpdPacket mbIptPayloadSize16) : UpdPacket mbIptPayloadSize16 :=
  let packet := clearUpdBuffer scratch
  let evsMode := getCompactEvsMode rtpPayloadSize
  if evsMode = updEvsWbioMode then
    let mode := getEvsCompactIoModeFromPayloadSize rtpPayloadSize
    let speechDataSize1 := getEvsAmrWbIoPayloadSizeFromMode mode
    let payload :=
      if mode.toNat ≤ updModeEvsWbio23850.toNat ∧ 0 < speechDataSize1 then
        -- the first speech bit is sent last
        let payload := orIntoPayload rtpPayload
          (evsCompactCmrEntrySize + (speechDataSize1 - 1)) packet.payload 0 1
        orIntoPayload rtpPayload evsCompactCmrEntrySize payload 1 (speechDataSize1 - 1)
      else packet.payload
    { packet with
      codec := updCodecEvs
      mode := mode
      type := updTypeSpeechGood
      form := evsMode
      payload := payload }
  else
    let payload := orIntoPayload rtpPayload 0 packet.payload 0 rtpPayloadSize
    { packet with
      codec := updCodecEvs
      mode := getEvsCompactPrimaryModeFromPayloadSize rtpPayloadSize payload.cells
      type := getEvsCompactPrimaryUpdType rtpPayloadSize payload.cells
      form := evsMode
      payload := payload }

/-- What `evs_ingress_process` keeps from call to call: the codec library behind
`evs_dec`, the two function statics and the scratch packets. -/
structure IngressState (σ : Type) where
  codec : σ
  evsDec : Option CodecDecData
  master : Option MSrcDownData
  mbIptDataIo : UpdPacket mbIptPayloadSize16
  lin16Khz : UpdPacket lin16KhzPayloadSize16
  lin08Khz : UpdPacket lin08KhzPayloadSize16

/-- Before the first call: no decoder, no converter, scratch packets zero. -/
def IngressState.initial {σ : Type} (codec : σ) : IngressState σ where
  codec := codec
  evsDec := none
  master := none
  mbIptDataIo := UpdPacket.zero _
  lin16Khz := UpdPacket.zero _
  lin08Khz := UpdPacket.zero _

/-- Step 1: the header format of a payload of `rtpPayloadSize8` octets. -/
def evsHdrFmt (rtpPayload : List Uint16) (rtpPayloadSize8 : Nat) : EvsHdrFmt :=
  match getEvsHdrFormat (toUint16 (size8To1 rtpPayloadSize8)) updEvsPrimaryMode with
  | .ptSize56 => if isWbioHfSid rtpPayload then .full else .compact
  | fmt => fmt

section

variable {σ : Type} (fxns : UscFxns σ)

/-- First half of step 3: the decoder is created on the first call, whatever its payload.
An error of `m_evs_dec_init` is only logged. -/
def ensureEvsDec (st : IngressState σ) : IngressState σ :=
  match st.evsDec with
  | some _ => st
  | none =>
    let (_, evsDec, codec) := mEvsDecInit fxns st.codec {}
    { st with evsDec := some evsDec, codec := codec }

/-- First half of step 4; `allocated` is what `malloc` left in the delay line. -/
def ensureMaster (allocated : Buffer Sint16 delayBufDownSize16) (st : IngressState σ) :
    IngressState σ :=
  match st.master with
  | some _ => st
  | none => { st with master := some (mSrcDownInit ⟨0, none⟩ allocated).2 }

def lUpdWbSampleRateHz : Nat := 16000

/-- Second half of step 3. The error code is only logged. -/
def decodePacket (st : IngressState σ) : IngressState σ :=
  match st.evsDec with
  | none => st
  | some evsDec =>
    let r := mEvsDec fxns st.codec { evsDec with outputSampleRateHz := lUpdWbSampleRateHz }
      (some st.mbIptDataIo) (some st.lin16Khz)
    { st with
      codec := r.next
      evsDec := some r.evsDec
      lin16Khz := r.linPcm.getD st.lin16Khz }

/-- Second half of step 4, which is made whatever the decoder has answered. -/
def convertPacket (st : IngressState σ) : IngressState σ :=
  match st.master with
  | none => st
  | some master =>
    let r := mSrcDown master (some st.lin16Khz) (some st.lin08Khz)
    { st with
      master := some r.master
      lin16Khz := r.updIn.getD st.lin16Khz
      lin08Khz := r.updOut.getD st.lin08Khz }

/-- Step 5: the PCM octets copied to `buf_out` and the length reported. -/
def returnPcm (st : IngressState σ) (bufOut : List Uint8) : List Uint8 × Nat :=
  let outputDataBufferSize8 := toUint16 (size1To8 (lUpdGetPayloadSize1 st.lin08Khz.toUpdHeader))
  (Buffer.blit bufOut 0 ((octets st.lin08Khz.payload.cells).take outputDataBufferSize8),
    outputDataBufferSize8)

structure IngressResult (σ : Type) where
  state : IngressState σ
  bufOut : List Uint8
  lenOut8 : Nat

/-- `evs_ingress_process`; `buff` is the memory from the payload pointer on. -/
def evsIngressProcess (allocated : Buffer Sint16 delayBufDownSize16) (st : IngressState σ)
    (buff : List Uint8) (len : Nat) (bufOut : List Uint8) (lenOut8 : Nat) : IngressResult σ :=
  let rtpPayload := words buff
  let rtpPayloadSize8 := toUint16 len
  if evsHdrFmt rtpPayload rtpPayloadSize8 = .compact then
    let packet := createEvsUpdPacketCompact rtpPayload (toUint16 (size8To1 rtpPayloadSize8))
      st.mbIptDataIo
    let st := ensureEvsDec fxns { st with mbIptDataIo := packet }
    let st := ensureMaster allocated (decodePacket fxns st)
    let st := convertPacket st
    let (bufOut, lenOut8) := returnPcm st bufOut
    ⟨st, bufOut, lenOut8⟩
  else
    -- no packet: the header-full format is not implemented, steps 3 and 4 only initialise
    ⟨ensureMaster allocated (ensureEvsDec fxns st), bufOut, lenOut8⟩

end

end RtpServer.Source.EvsIngress
