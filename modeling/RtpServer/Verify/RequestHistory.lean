import RtpServer.Library.Machine
import RtpServer.Source.EvsCmr

/-!
# The request data of a context over its packets

`update_evs_cmr_data` run over the packets of a session. The requests taken in are those of
the last packets that had any; the request sent out is the first that was found necessary, and
nothing ever replaces it.
-/
namespace RtpServer.Verify.RequestHistory

open RtpServer.Library RtpServer.Source RtpServer.Source.Upd RtpServer.Source.EvsIngress
open RtpServer.Source.EvsCmr

/-- What `update_evs_cmr_data` is given besides the context. -/
structure CmrPacket where
  params : Params
  payload : List Uint16
  upd : UpdHeader
  evsMode : BitVec 4
  hdrFmt : EvsHdrFmt

namespace CmrPacket

def compact (p : CmrPacket) : Bool := p.hdrFmt = .compact ∧ p.evsMode = updEvsWbioMode

/-- A full header with a request. -/
def full (p : CmrPacket) : Bool :=
  (p.hdrFmt = .full ∧ (p.evsMode = updEvsWbioMode ∨ p.evsMode = updEvsPrimaryMode)) ∧
    checkIfCmr p.payload

def request (p : CmrPacket) : Uint8 :=
  if p.compact then
    BitVec.ofNat 8 (mapUpdMode ((payloadWord p.payload 0 >>> 13) &&& 0x7).toNat p.upd.mode)
  else ((payloadWord p.payload 0 >>> 8) &&& 0x000F).setWidth 8

/-- The request the packet gives rise to while none is pending. -/
def egress (p : CmrPacket) : Uint8 :=
  BitVec.ofNat 8 (getEgressEvsCmr p.upd cmrFtNoData p.params p.evsMode)

end CmrPacket

open CmrPacket

/-- The value at the last element, or the one there was before. -/
def lastOr {α β : Type} (old : β) (f : α → β) (l : List α) : β := (l.getLast?.map f).getD old

@[simp] theorem lastOr_nil {α β : Type} (old : β) (f : α → β) : lastOr old f [] = old := rfl

@[simp] theorem lastOr_concat {α β : Type} (old : β) (f : α → β) (l : List α) (x : α) :
    lastOr old f (l ++ [x]) = f x := by
  simp [lastOr]

def noData : Uint8 := BitVec.ofNat 8 cmrFtNoData

/-- The first request there is, kept from then on. -/
def latched (old : Uint8) (requests : List Uint8) : Uint8 :=
  if old = noData then (requests.find? (· ≠ noData)).getD noData else old

@[simp] theorem latched_nil (old : Uint8) : latched old [] = old := by
  by_cases hold : old = noData
  · rw [latched, if_pos hold, hold]
    rfl
  · rw [latched, if_neg hold]

end RtpServer.Verify.RequestHistory
