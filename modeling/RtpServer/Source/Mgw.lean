import RtpServer.Source.TypeDef

/-!
# Common functions (`l_mgw.h`, `l_mgw.c`)

Byte swaps of the little-endian build and the bit-buffer copy. Memory accesses are
checked: `none` stands for an access outside the field or one of the two buffers, which C
leaves undefined.
-/
namespace RtpServer.Source.Mgw

open RtpServer.Library RtpServer.Library.LittleEndian

def lMgwByteSwap16 (x : Uint16) : Uint16 := ((x &&& 0x00FF) <<< 8) ||| ((x &&& 0xFF00) >>> 8)

def lMgwByteSwap32 (x : Uint32) : Uint32 :=
  ((x &&& 0x000000FF) <<< 24) ||| ((x &&& 0x0000FF00) <<< 8) |||
    ((x &&& 0x00FF0000) >>> 8) ||| ((x &&& 0xFF000000) >>> 24)

def lMgwByteSwap64 (x : Uint64) : Uint64 :=
  ((x &&& 0x00000000000000FF) <<< 56) ||| ((x &&& 0x000000000000FF00) <<< 40) |||
    ((x &&& 0x0000000000FF0000) <<< 24) ||| ((x &&& 0x00000000FF000000) <<< 8) |||
    ((x &&& 0x000000FF00000000) >>> 8) ||| ((x &&& 0x0000FF0000000000) >>> 24) |||
    ((x &&& 0x00FF000000000000) >>> 40) ||| ((x &&& 0xFF00000000000000) >>> 56)

/-- The `for` loop; `lo` and `hi` point to octets of the field. -/
def swapFieldFrom : (rounds lo hi : Nat) → List Uint8 → Option (List Uint8)
  | 0, _, _, field => some field
  | rounds + 1, lo, hi, field => do
    let hi := hi - 1
    let tmp ← field[hi]?
    let octet ← field[lo]?
    swapFieldFrom rounds (lo + 1) hi ((field.set hi octet).set lo tmp)

/-- `l_mgw_byte_swap_field`, in place. -/
def lMgwByteSwapField (field : List Uint8) (fieldSize8 : Uint8) : Option (List Uint8) :=
  swapFieldFrom (fieldSize8.toNat / 2) 0 fieldSize8.toNat field

/-- `L_MGW_BE_TO_NAT_16` and the macros below, as the little-endian build has them. -/
def beToNat16 (x : Uint16) : Uint16 := lMgwByteSwap16 x
def natToBe16 (x : Uint16) : Uint16 := lMgwByteSwap16 x
def natToBe32 (x : Uint32) : Uint32 := lMgwByteSwap32 x

theorem lMgwByteSwap16_eq (x : Uint16) : lMgwByteSwap16 x = word (high x) (low x) := by
  apply BitVec.eq_of_getLsbD_eq
  intro i hi
  change _ = (low x ++ high x : BitVec (8 + 8)).getLsbD i
  rw [BitVec.getLsbD_append]
  simp only [lMgwByteSwap16, BitVec.getLsbD_or, BitVec.getLsbD_shiftLeft, BitVec.getLsbD_and,
    BitVec.getLsbD_ushiftRight, low, high, BitVec.getLsbD_extractLsb']
  by_cases h : i < 8
  · have hmask : ∀ i, i < 8 → (0xFF00#16).getLsbD (8 + i) = true := by decide
    simp [h, hmask i h]
  · have hmask : ∀ i, i < 8 → (0x00FF#16).getLsbD i = true := by decide
    have hout : (0xFF00#16).getLsbD (8 + i) = false := BitVec.getLsbD_of_ge _ _ (by omega)
    simp [h, hmask (i - 8) (by omega), hout, hi]
    omega

@[simp] theorem low_beToNat16 (x : Uint16) : low (beToNat16 x) = high x := by
  rw [beToNat16, lMgwByteSwap16_eq, low_word]

@[simp] theorem high_beToNat16 (x : Uint16) : high (beToNat16 x) = low x := by
  rw [beToNat16, lMgwByteSwap16_eq, high_word]

theorem beToNat16_word (a b : Uint8) : beToNat16 (word a b) = word b a := by
  rw [beToNat16, lMgwByteSwap16_eq, low_word, high_word]

@[simp] theorem low_natToBe16 (x : Uint16) : low (natToBe16 x) = high x := low_beToNat16 x

@[simp] theorem high_natToBe16 (x : Uint16) : high (natToBe16 x) = low x := high_beToNat16 x

@[simp] theorem beToNat16_natToBe16 (x : Uint16) : beToNat16 (natToBe16 x) = x := by
  rw [beToNat16, lMgwByteSwap16_eq, high_natToBe16, low_natToBe16, word_low_high]

def orWord (target : List Uint16) (i : Nat) (w : Uint16) : Option (List Uint16) :=
  target[i]?.map fun old => target.set i (old ||| w)

/-- The word at the bit offset `srcBitShift` inside word `s`; shifts by 16 give 0. -/
def sourceWord (source : List Uint16) (s srcBitShift : Nat) : Option Uint16 := do
  let first ← source[s]?
  let second ← source[s + 1]?
  return (first <<< srcBitShift) ||| (second >>> (16 - srcBitShift))

/-- Both halves of a word that lies across two words of the target. The second one is touched even
when the shift leaves nothing for it. -/
def orShifted (target : List Uint16) (t trgBitShift : Nat) (tempWord : Uint16) :
    Option (List Uint16) := do
  let target ← orWord target t (tempWord >>> trgBitShift)
  orWord target (t + 1) (tempWord <<< (16 - trgBitShift))

/-- The `while` loop: `n` full words, from source word `s` to target word `t`. -/
def orFullWords (source : List Uint16) (srcBitShift trgBitShift : Nat) :
    (n s t : Nat) → List Uint16 → Option (List Uint16)
  | 0, _, _, target => some target
  | n + 1, s, t, target => do
    let tempWord ← sourceWord source s srcBitShift
    let target ← orShifted target t trgBitShift tempWord
    orFullWords source srcBitShift trgBitShift n (s + 1) (t + 1) target

/-- `l_mgw_or_bit_buf`: `bufferSize` bits are or-ed into the target, from one bit offset to another.
Whole words first, then what is left, masked to its bits. -/
def lMgwOrBitBuf (source : List Uint16) (srcBitShift : Nat) (target : List Uint16)
    (trgBitShift bufferSize : Nat) : Option (List Uint16) := do
  let s := srcBitShift >>> 4
  let t := trgBitShift >>> 4
  let srcShift := srcBitShift &&& 0x000F
  let trgShift := trgBitShift &&& 0x000F
  let copyCountWords := bufferSize >>> 4
  let copyCountBits := bufferSize &&& 0x000F
  let target ← orFullWords source srcShift trgShift copyCountWords s t target
  if 0 < copyCountBits then
    let tempWord ← sourceWord source (s + copyCountWords) srcShift
    -- excess bits are set to zero
    let tempWord := tempWord &&& ((0xFFFF : Uint16) <<< (16 - copyCountBits))
    orShifted target (t + copyCountWords) trgShift tempWord
  else
    return target

end RtpServer.Source.Mgw
