import RtpServer.Source.EvsIngress

/-!
# EVS codec mode requests (`evs.c`)

The request data of a context and the functions that update it from a payload, with the
mode set functions of `l_mgw.c` and `l_upd.c` they use. Mode numbers are `Nat`.
-/
namespace RtpServer.Source.EvsCmr

open RtpServer.Library RtpServer.Source.Mgw RtpServer.Source.Upd RtpServer.Source.EvsIngress

/-- `params_t`, the members that the functions below read. -/
structure Params where
  br : Uint16
  modeSet : Uint16
  deriving DecidableEq

/-- `rtp_cmr_data_t` without its padding. -/
structure RtpCmrData where
  isOkToChange : BitVec 1
  isCmrReceived : BitVec 1
  previous : Uint16
  previousIngressMode : BitVec 4
  isUrgentCmrSent : BitVec 1
  urgentCmrCounter : BitVec 11
  egress : Uint8
  ingress : Uint8
  ingressT : Uint8
  ingressCamOffsetPrevious : BitVec 4
  ingressCamOffset : BitVec 4
  deriving DecidableEq

def cmrFtNoData : Nat := 15
def updModeEvsNa : Nat := 15
def updNumberOfEvsWbioModes : Nat := 9
def updNumberOfEvsPrimaryModes : Nat := 12

def lMgwIsModeInModeSet (mode : Nat) (modeSet : Uint16) : Bool :=
  (modeSet >>> mode) &&& 0x0001 = 1

/-- `UPD_MODE_EVS_NA` for a frame type that is neither of the two. -/
def lUpdGetMaxEvsMode (ftMode : BitVec 4) : Nat :=
  if ftMode = updEvsWbioMode then updModeEvsWbio23850.toNat
  else if ftMode = updEvsPrimaryMode then updModeEvsPrimary128000.toNat
  else updModeEvsNa

/-- The `for` loop: `n` rounds from round `i` on. -/
def highestFrom (modeSet : Uint16) (maxMode : Nat) : (n i : Nat) → Nat
  | 0, _ => updModeEvsNa
  | n + 1, i =>
    if (modeSet >>> (maxMode - i)) &&& 0x0001 = 1 then maxMode - i
    else highestFrom modeSet maxMode n (i + 1)

/-- `l_mgw_get_highest_evs_mode`; 15 when no mode of the frame type is in the set. -/
def lMgwGetHighestEvsMode (ftMode : BitVec 4) (modeSet : Uint16) : Nat :=
  let maxMode := lUpdGetMaxEvsMode ftMode
  let numberOfModes :=
    if ftMode = updEvsWbioMode then updNumberOfEvsWbioModes
    else if ftMode = updEvsPrimaryMode then updNumberOfEvsPrimaryModes
    else 0
  highestFrom modeSet maxMode numberOfModes 0

/-- `get_egress_evs_cmr`. In Primary mode the member `br` is taken for a set of modes. -/
def getEgressEvsCmr (updPacket : UpdHeader) (oldCmr : Nat) (params : Params)
    (evsMode : BitVec 4) : Nat :=
  let modeSet := if evsMode = updEvsWbioMode then params.modeSet else params.br
  -- no mode request present
  if oldCmr = cmrFtNoData ∧ updPacket.mode.toNat ≠ updModeEvsNa ∧
      lMgwIsModeInModeSet updPacket.mode.toNat modeSet = false then
    lMgwGetHighestEvsMode evsMode modeSet
  else oldCmr

/-- `map_upd_mode`: the 3 bits of a compact request, where two modes share a value with the one that
is running. -/
def mapUpdMode (cmrMode : Nat) (updModeIn : BitVec 4) : Nat :=
  let updMode : Nat :=
    match cmrMode with
    | 0 => updModeEvsWbio6600.toNat
    | 1 => updModeEvsWbio8850.toNat
    | 2 => updModeEvsWbio12650.toNat
    | 3 => updModeEvsWbio15850.toNat
    | 4 => updModeEvsWbio18250.toNat
    | 5 => updModeEvsWbio23050.toNat
    | 6 => updModeEvsWbio23850.toNat
    | _ => updModeEvsNa
  if updModeIn = updModeEvsWbio14250 ∧ cmrMode = 2 then updModeEvsWbio14250.toNat
  else if updModeIn = updModeEvsWbio19850 ∧ cmrMode = 4 then updModeEvsWbio19850.toNat
  else updMode

def channelAwareModeOffsetInvalid : Uint8 := 0xFF

/-- `map_cam_offset`, the offset of a channel aware request; types 5 and 6 have the same four. -/
def mapCamOffset (cmrT cmrD : Uint8) : Uint8 :=
  if cmrT = 5 ∨ cmrT = 6 then
    if cmrD = 0 ∨ cmrD = 4 then 2
    else if cmrD = 1 ∨ cmrD = 5 then 3
    else if cmrD = 2 ∨ cmrD = 6 then 5
    else if cmrD = 3 ∨ cmrD = 7 then 7
    else channelAwareModeOffsetInvalid
  else channelAwareModeOffsetInvalid

/-- First bit 1 have CMR. -/
def checkIfCmr (rtpPayload : List Uint16) : Bool :=
  ((lMgwOrBitBuf rtpPayload 0 [0, 0] 15 1).getD [0, 0]).getD 0 0 = 1

/-- `update_evs_cmr_data`: a compact AMR-WB IO payload always holds a request, a header-full one
when its first bit says so. Any other format leaves the data alone. -/
def updateEvsCmrData (rtpCmrData : RtpCmrData) (params : Params) (rtpPayload : List Uint16)
    (updPacket : UpdHeader) (evsMode : BitVec 4) (evsHdrFmt : EvsHdrFmt) : RtpCmrData :=
  if evsHdrFmt = .compact ∧ evsMode = updEvsWbioMode then
    { rtpCmrData with
      previousIngressMode := updPacket.mode
      egress := BitVec.ofNat 8 (getEgressEvsCmr updPacket rtpCmrData.egress.toNat params evsMode)
      ingress := BitVec.ofNat 8
        (mapUpdMode ((payloadWord rtpPayload 0 >>> 13) &&& 0x7).toNat updPacket.mode)
      isCmrReceived := 1 }
  else if evsHdrFmt = .full ∧ (evsMode = updEvsWbioMode ∨ evsMode = updEvsPrimaryMode) then
    if checkIfCmr rtpPayload then
      let ingress : Uint8 := ((payloadWord rtpPayload 0 >>> 8) &&& 0x000F).setWidth 8
      let ingressT : Uint8 := ((payloadWord rtpPayload 0 >>> 11) &&& 0x0007).setWidth 8
      { rtpCmrData with
        previousIngressMode := updPacket.mode
        egress := BitVec.ofNat 8 (getEgressEvsCmr updPacket rtpCmrData.egress.toNat params evsMode)
        ingress := ingress
        ingressT := ingressT
        ingressCamOffsetPrevious := rtpCmrData.ingressCamOffset
        ingressCamOffset := (mapCamOffset ingressT ingress).setWidth 4
        isCmrReceived := 1 }
    else rtpCmrData
  else rtpCmrData

end RtpServer.Source.EvsCmr
