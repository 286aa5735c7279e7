import RtpServer.Source.SampleRate

/-!
# Byte order of UPD packets (`l_upd.c`)

The conversions of the `BOARD_X86_VIRTUAL` build between the byte order of the machine and
network order. Payload accesses are checked: `none` stands for a word outside the payload.
The null pointer, which both functions leave alone, is not a packet here.
-/
namespace RtpServer.Source.UpdByteOrder

open RtpServer.Library RtpServer.Source.TypeDef RtpServer.Source.Mgw RtpServer.Source.Upd
open RtpServer.Source.SampleRate

/-- Content is octets, no byte order conversions. -/
def isContentOctets (p : UpdHeader) : Bool :=
  p.codec = updCodecPcm &&
    (p.form = updFormPcmAny8Bit || p.form = updFormPcmG711ALaw ||
      p.form = updFormPcmG711ULaw || p.form = updFormPcmUdi)

/-- The `for` loop: the `n` payload words from word `i` on. -/
def swapWords {size16 : Nat} (swap : Uint16 → Uint16) :
    (n i : Nat) → Buffer Uint16 size16 → Option (Buffer Uint16 size16)
  | 0, _, updPayload => some updPayload
  | n + 1, i, updPayload => do
    let w ← updPayload.cells[i]?
    swapWords swap n (i + 1) (updPayload.write i [swap w])

/-- As many words of the payload as the header implies, which is in the machine's order here. -/
def swapPayload {size16 : Nat} (swap : Uint16 → Uint16) (updPacket : UpdPacket size16) :
    Option (UpdPacket size16) :=
  if isContentOctets updPacket.toUpdHeader then some updPacket
  else do
    let updPayloadSize16 := size1To16 (lUpdGetPayloadSize1 updPacket.toUpdHeader)
    let payload ← swapWords swap updPayloadSize16 0 updPacket.payload
    return { updPacket with payload }

/-- `l_upd_nat_to_be`: the payload first, since its size is read from the header. -/
def lUpdNatToBe {size16 : Nat} (updPacket : UpdPacket size16) : Option (UpdPacket size16) := do
  let swapped ← swapPayload natToBe16 updPacket
  return { swapped with toUpdHeader := headerOfWord (natToBe16 (headerWord swapped.toUpdHeader)) }

/-- `l_upd_be_to_nat`: the header first. -/
def lUpdBeToNat {size16 : Nat} (updPacket : UpdPacket size16) : Option (UpdPacket size16) :=
  swapPayload beToNat16
    { updPacket with toUpdHeader := headerOfWord (beToNat16 (headerWord updPacket.toUpdHeader)) }

end RtpServer.Source.UpdByteOrder
