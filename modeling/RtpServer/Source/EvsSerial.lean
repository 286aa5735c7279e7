import RtpServer.Source.TypeDef

/-!
# Serialisation of an encoded frame (`utilEVS.c`)

The encoder library returns a list of quantised indices; `evs_indices_to_serial_generic`
packs them bit by bit into octets. Memory accesses are checked: `none` stands for one
outside the list or the frame. A number of bits above 31 makes the shift of the mask
undefined in C.
-/
namespace RtpServer.Source.EvsSerial

/-- `Indice_fx`; an entry with `nbBits` = -1 is not used. -/
structure IndiceFx where
  value : Uint16
  nbBits : Sint16
  deriving DecidableEq

/-- The frame and the two variables `pack_bit` moves. -/
structure PackState where
  frame : List Uint8
  pt : Nat
  omask : Uint8
  deriving DecidableEq

def modifyOctet (frame : List Uint8) (i : Nat) (f : Uint8 → Uint8) : Option (List Uint8) :=
  frame[i]?.map fun old => frame.set i (f old)

/-- `pack_bit`: an octet is cleared when its first bit is written, and the position moves on after
its last. -/
def packBit (bit : Sint16) (s : PackState) : Option PackState := do
  let frame ← if s.omask = 0x80 then modifyOctet s.frame s.pt fun _ => 0 else some s.frame
  let frame ← if bit ≠ 0 then modifyOctet frame s.pt (· ||| s.omask) else some frame
  let omask := s.omask >>> 1
  if omask = 0 then some ⟨frame, s.pt + 1, 0x80⟩ else some ⟨frame, s.pt, omask⟩

/-- The inner loop; `n` bits are left. The first argument of `pack_bit` is a `Word16`. -/
def packIndice (value : Uint16) : (n : Nat) → (mask : Uint32) → PackState → Option PackState
  | 0, _, s => some s
  | n + 1, mask, s => do
    let s ← packBit ((value.setWidth 32 &&& mask).setWidth 16) s
    packIndice value n (mask.sshiftRight 1) s

def packIndices : List IndiceFx → PackState → (nbBitsTot : Sint16) → Option (PackState × Sint16)
  | [], s, nbBitsTot => some (s, nbBitsTot)
  | ind :: inds, s, nbBitsTot =>
    if ind.nbBits ≠ -1 then do
      let n := ind.nbBits.toInt.toNat
      let s ← packIndice ind.value n ((1 : Uint32) <<< (n - 1)) s
      packIndices inds s (nbBitsTot + ind.nbBits)
    else packIndices inds s nbBitsTot

/-- `evs_indices_to_serial_generic`: the indices behind the `pFrameSize` bits the frame already
holds, and the new size. -/
def evsIndicesToSerialGeneric (indList : List IndiceFx) (numIndices : Nat) (pFrame : List Uint8)
    (pFrameSize : Sint16) : Option (List Uint8 × Sint16) :=
  -- a negative size puts the pointer before the frame
  if indList.length < numIndices ∨ pFrameSize.toInt < 0 then none
  else do
    let omask := (0x80 : Uint8) >>> (pFrameSize &&& 0x7).toNat
    let (s, nbBitsTot) ← packIndices (indList.take numIndices)
      ⟨pFrame, pFrameSize.toNat / 8, omask⟩ 0
    return (s.frame, pFrameSize + nbBitsTot)

def maxNumIndices : Nat := 1953

end RtpServer.Source.EvsSerial
