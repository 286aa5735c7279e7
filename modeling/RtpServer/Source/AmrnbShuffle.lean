import RtpServer.Source.Upd

/-!
# AMR-NB bit reordering (`l_upd.c`)

The bit order tables of 3GPP TS 26.101, one for each mode, and the two loops that use
them. A pointer that runs along a table or a frame is the list from there on.
-/
namespace RtpServer.Source.AmrnbShuffle

open RtpServer.Library RtpServer.Source.TypeDef RtpServer.Source.Upd

def amrnbFrameBitOrder0475 : List Nat :=
  [0, 1, 2, 3, 4, 5, 6, 7, 8, 9, 10, 11, 12, 13, 14, 15,
   52, 36, 37, 53, 38, 54, 39, 16, 17, 18, 19, 20, 21, 44, 45, 91,
   67, 68, 83, 69, 70, 87, 50, 51, 49, 48, 47, 46, 31, 30, 29, 28,
   22, 23, 55, 56, 92, 71, 72, 84, 73, 74, 88, 57, 58, 24, 25, 59,
   60, 93, 75, 76, 85, 77, 78, 89, 61, 62, 43, 42, 41, 40, 35, 34,
   33, 32, 26, 27, 63, 64, 94, 79, 80, 86, 81, 82, 90, 65, 66]

def amrnbFrameBitOrder0515 : List Nat :=
  [7, 6, 5, 4, 3, 2, 1, 0, 15, 14, 13, 12, 11, 10, 9, 8,
   65, 52, 44, 64, 53, 59, 54, 16, 17, 18, 19, 20, 40, 49, 60, 91,
   83, 85, 99, 72, 79, 95, 68, 67, 55, 45, 36, 26, 25, 24, 21, 41,
   50, 61, 92, 84, 86, 100, 73, 80, 96, 70, 69, 56, 46, 37, 29, 28,
   27, 22, 42, 51, 62, 93, 87, 88, 101, 74, 81, 97, 76, 71, 57, 47,
   38, 32, 31, 30, 23, 43, 63, 66, 94, 89, 90, 102, 75, 82, 98, 78,
   77, 58, 48, 39, 35, 34, 33]

def amrnbFrameBitOrder0590 : List Nat :=
  [0, 1, 7, 4, 2, 3, 5, 6, 10, 11, 15, 12, 13, 8, 14, 9,
   16, 64, 63, 59, 65, 60, 62, 61, 66, 75, 23, 21, 17, 19, 25, 33,
   43, 45, 98, 94, 90, 114, 110, 86, 82, 106, 102, 68, 73, 76, 55, 51,
   47, 37, 29, 27, 35, 41, 80, 99, 95, 91, 115, 111, 87, 83, 107, 103,
   71, 72, 77, 56, 52, 48, 38, 30, 24, 22, 18, 20, 26, 34, 44, 46,
   100, 96, 92, 116, 112, 88, 84, 108, 104, 69, 74, 78, 57, 53, 49, 39,
   31, 28, 36, 42, 81, 101, 97, 93, 117, 113, 89, 85, 109, 105, 70, 67,
   79, 58, 54, 50, 40, 32]

def amrnbFrameBitOrder0670 : List Nat :=
  [0, 1, 8, 3, 2, 4, 5, 7, 9, 10, 15, 11, 13, 6, 14, 12,
   26, 62, 61, 53, 63, 59, 60, 54, 64, 65, 22, 20, 16, 18, 24, 31,
   39, 51, 106, 102, 130, 126, 98, 94, 122, 118, 90, 114, 110, 86, 78, 70,
   35, 85, 66, 41, 45, 55, 74, 27, 29, 33, 49, 107, 103, 131, 127, 99,
   95, 123, 119, 91, 115, 111, 87, 79, 71, 36, 84, 67, 42, 46, 56, 75,
   23, 21, 17, 19, 25, 32, 40, 52, 108, 104, 132, 128, 100, 96, 124, 120,
   92, 116, 112, 88, 80, 72, 37, 83, 68, 43, 47, 57, 76, 28, 30, 34,
   50, 109, 105, 133, 129, 101, 97, 125, 121, 93, 117, 113, 89, 81, 73, 38,
   82, 69, 44, 48, 58, 77]

def amrnbFrameBitOrder0740 : List Nat :=
  [0, 1, 2, 3, 4, 5, 6, 7, 8, 9, 10, 11, 12, 13, 14, 15,
   16, 50, 51, 52, 61, 47, 48, 49, 62, 63, 17, 19, 21, 23, 25, 53,
   88, 89, 120, 124, 128, 132, 136, 140, 144, 96, 97, 98, 99, 100, 101, 84,
   76, 72, 64, 27, 31, 78, 35, 39, 57, 68, 43, 45, 54, 90, 91, 121,
   125, 129, 133, 137, 141, 145, 102, 103, 104, 105, 106, 107, 85, 77, 73, 65,
   28, 32, 79, 36, 40, 58, 69, 18, 20, 22, 24, 26, 55, 92, 93, 122,
   126, 130, 134, 138, 142, 146, 108, 109, 110, 111, 112, 113, 86, 82, 74, 66,
   29, 33, 80, 37, 41, 59, 70, 44, 46, 56, 94, 95, 123, 127, 131, 135,
   139, 143, 147, 114, 115, 116, 117, 118, 119, 87, 83, 75, 67, 30, 34, 81,
   38, 42, 60, 71]

def amrnbFrameBitOrder0795 : List Nat :=
  [68, 67, 6, 5, 4, 3, 2, 1, 0, 9, 10, 14, 11, 12, 7, 13,
   8, 15, 21, 20, 16, 22, 17, 19, 18, 69, 70, 43, 45, 47, 49, 51,
   63, 71, 73, 128, 106, 151, 155, 127, 102, 147, 126, 98, 125, 124, 94, 123,
   122, 121, 120, 119, 35, 39, 79, 87, 23, 27, 31, 59, 83, 53, 55, 57,
   65, 75, 77, 134, 107, 152, 156, 133, 103, 148, 132, 99, 131, 130, 95, 129,
   118, 117, 116, 115, 36, 40, 80, 88, 24, 28, 32, 60, 84, 44, 46, 48,
   50, 52, 64, 72, 74, 140, 108, 153, 157, 139, 104, 149, 138, 100, 137, 136,
   96, 135, 110, 93, 92, 91, 37, 41, 81, 89, 25, 29, 33, 61, 85, 54,
   56, 58, 66, 76, 78, 146, 109, 154, 158, 145, 105, 150, 144, 101, 143, 142,
   97, 141, 114, 113, 112, 111, 38, 42, 82, 90, 26, 30, 34, 62, 86]

def amrnbFrameBitOrder1020 : List Nat :=
  [7, 6, 5, 4, 3, 2, 1, 0, 16, 15, 14, 13, 12, 11, 10, 9,
   8, 62, 61, 57, 63, 59, 60, 58, 64, 65, 17, 18, 19, 20, 21, 22,
   45, 46, 69, 68, 67, 66, 150, 151, 155, 158, 157, 164, 166, 199, 201, 196,
   153, 152, 154, 159, 156, 162, 167, 202, 203, 197, 160, 161, 165, 163, 195, 200,
   198, 33, 53, 83, 34, 35, 82, 84, 29, 30, 49, 50, 94, 73, 72, 71,
   70, 96, 97, 101, 104, 103, 110, 112, 190, 192, 187, 99, 98, 100, 105, 102,
   108, 113, 193, 194, 188, 106, 107, 111, 109, 186, 191, 189, 36, 54, 86, 37,
   38, 85, 87, 23, 24, 25, 26, 27, 28, 47, 48, 77, 76, 75, 74, 114,
   115, 119, 122, 121, 128, 130, 181, 183, 178, 117, 116, 118, 123, 120, 126, 131,
   184, 185, 179, 124, 125, 129, 127, 177, 182, 180, 39, 55, 89, 40, 41, 88,
   90, 31, 32, 51, 52, 95, 81, 80, 79, 78, 132, 133, 137, 140, 139, 146,
   148, 172, 174, 169, 135, 134, 136, 141, 138, 144, 149, 175, 176, 170, 142, 143,
   147, 145, 168, 173, 171, 42, 56, 92, 43, 44, 91, 93]

def amrnbFrameBitOrder1220 : List Nat :=
  [0, 1, 2, 3, 4, 5, 6, 7, 8, 9, 10, 11, 12, 13, 14, 16,
   17, 18, 19, 20, 21, 22, 23, 15, 24, 25, 26, 27, 28, 81, 82, 83,
   84, 85, 86, 87, 120, 121, 29, 31, 33, 35, 37, 39, 41, 43, 45, 47,
   51, 55, 88, 96, 124, 123, 122, 100, 127, 126, 125, 108, 130, 129, 128, 112,
   133, 132, 131, 116, 136, 135, 134, 184, 183, 182, 187, 186, 185, 190, 189, 188,
   193, 192, 191, 196, 195, 194, 59, 63, 67, 92, 104, 71, 73, 75, 77, 79,
   242, 48, 52, 56, 89, 97, 139, 138, 137, 101, 142, 141, 140, 109, 145, 144,
   143, 113, 148, 147, 146, 117, 151, 150, 149, 199, 198, 197, 202, 201, 200, 205,
   204, 203, 208, 207, 206, 211, 210, 209, 60, 64, 68, 93, 105, 30, 32, 34,
   36, 38, 40, 42, 44, 46, 49, 53, 57, 90, 98, 154, 153, 152, 102, 157,
   156, 155, 110, 160, 159, 158, 114, 163, 162, 161, 118, 166, 165, 164, 214, 213,
   212, 217, 216, 215, 220, 219, 218, 223, 222, 221, 226, 225, 224, 61, 65, 69,
   94, 106, 72, 74, 76, 78, 80, 243, 50, 54, 58, 91, 99, 169, 168, 167,
   103, 172, 171, 170, 111, 175, 174, 173, 115, 178, 177, 176, 119, 181, 180, 179,
   229, 228, 227, 232, 231, 230, 235, 234, 233, 238, 237, 236, 241, 240, 239, 62,
   66, 70, 95, 107]

def amrnbFrameBitOrders : List (List Nat) :=
  [amrnbFrameBitOrder0475, amrnbFrameBitOrder0515, amrnbFrameBitOrder0590,
   amrnbFrameBitOrder0670, amrnbFrameBitOrder0740, amrnbFrameBitOrder0795,
   amrnbFrameBitOrder1020, amrnbFrameBitOrder1220]

def updModeAmrnb1220 : Nat := 7
def updPayloadAmrnbBits : Nat := 244

structure BitPosition where
  uint8InTable : Nat
  bitInUint8 : Nat

def getBitPositionFromBitNumber (bitNumber : Nat) : BitPosition :=
  ⟨bitNumber / 8, bitNumber % 8⟩

/-- The wanted bit comes in position 7 and is shifted to its place; it is only ever set, the frame
out having been cleared. -/
def setOutBit (frameOut : List Uint8) (bitNumber : Nat) (bitOnLeft : Uint16) : List Uint8 :=
  let position := getBitPositionFromBitNumber bitNumber
  let bitShiftedToRightPosition := bitOnLeft >>> position.bitInUint8
  frameOut.set position.uint8InTable
    (frameOut.getD position.uint8InTable 0 ||| bitShiftedToRightPosition.setWidth 8)

def getBitOnRight (frameIn : List Uint8) (bitNumber : Nat) : Uint8 :=
  let position := getBitPositionFromBitNumber bitNumber
  let wantedUint8 := frameIn.getD position.uint8InTable 0
  let wantedBitShiftedToLeft := wantedUint8 <<< position.bitInUint8
  wantedBitShiftedToLeft >>> 7

/-- The loop over `count` bits of one octet; `frameInUint8` is a `uint16` in the source. -/
def shuffleBits : (count : Nat) → (bitOrder : List Nat) → (frameInUint8 : Uint16) →
    (frameOut : List Uint8) → List Uint8
  | 0, _, _, frameOut => frameOut
  | count + 1, bitOrder, frameInUint8, frameOut =>
    let wantedBitOnLeft := frameInUint8 &&& 0x80
    shuffleBits count bitOrder.tail (frameInUint8 <<< 1)
      (setOutBit frameOut (bitOrder.headD 0) wantedBitOnLeft)

/-- The loop over `count` whole octets. -/
def shuffleOctets : (count : Nat) → (bitOrder : List Nat) → (frameIn frameOut : List Uint8) →
    List Uint8
  | 0, _, _, frameOut => frameOut
  | count + 1, bitOrder, frameIn, frameOut =>
    shuffleOctets count (bitOrder.drop 8) frameIn.tail
      (shuffleBits 8 bitOrder ((frameIn.headD 0).setWidth 16) frameOut)

/-- The room for the longest frame is cleared, whole octets first, then the bits of the last one. -/
def shuffleFrame (frameOut frameIn : List Uint8) (bitOrder : List Nat) (nBits : Nat) :
    List Uint8 :=
  let n := getBitPositionFromBitNumber nBits
  let frameOut := Buffer.blit frameOut 0 (List.replicate (size1To8 updPayloadAmrnbBits) 0)
  let frameOut := shuffleOctets n.uint8InTable bitOrder frameIn frameOut
  let frameInUint8 := (frameIn.getD n.uint8InTable 0).setWidth 16
  shuffleBits n.bitInUint8 (bitOrder.drop (8 * n.uint8InTable)) frameInUint8 frameOut

/-- The loop that collects `count` bits of one octet, the first of them leftmost. -/
def deShuffleBits (frameIn : List Uint8) : (count : Nat) → (bitOrder : List Nat) →
    (frameOutUint8 : Uint16) → Uint16
  | 0, _, frameOutUint8 => frameOutUint8
  | count + 1, bitOrder, frameOutUint8 =>
    deShuffleBits frameIn count bitOrder.tail
      ((frameOutUint8 <<< 1) ||| (getBitOnRight frameIn (bitOrder.headD 0)).setWidth 16)

/-- The whole octets in the order they are written. -/
def deShuffleOctets (frameIn : List Uint8) : (count : Nat) → (bitOrder : List Nat) → List Uint8
  | 0, _ => []
  | count + 1, bitOrder =>
    (deShuffleBits frameIn 8 bitOrder 0).setWidth 8 ::
      deShuffleOctets frameIn count (bitOrder.drop 8)

/-- The last octet holds its bits on the left, and is written even for a size in whole octets. -/
def deShuffleFrame (frameOut frameIn : List Uint8) (bitOrder : List Nat) (nBits : Nat) :
    List Uint8 :=
  let n := getBitPositionFromBitNumber nBits
  let octets := deShuffleOctets frameIn n.uint8InTable bitOrder
  let frameOutUint8 := deShuffleBits frameIn n.bitInUint8 (bitOrder.drop (8 * n.uint8InTable)) 0
  let frameOutUint8 := frameOutUint8 <<< (8 - n.bitInUint8)
  Buffer.blit frameOut 0 (octets ++ [frameOutUint8.setWidth 8])

/-- `l_upd_shuffle_amrnb_payload`: the bits sorted in the order of 3GPP TS 26.101. A mode
beyond 12.2 leaves the frame out alone. -/
def lUpdShuffleAmrnbPayload (payloadIn payloadOut : List Uint8) (mode : Nat) : List Uint8 :=
  if mode ≤ updModeAmrnb1220 then
    shuffleFrame payloadOut payloadIn (amrnbFrameBitOrders.getD mode [])
      (amrnbPayloadSizeInBits.getD mode 0)
  else payloadOut

/-- `l_upd_de_shuffle_amrnb_payload`, the way back. -/
def lUpdDeShuffleAmrnbPayload (payloadIn payloadOut : List Uint8) (mode : Nat) : List Uint8 :=
  if mode ≤ updModeAmrnb1220 then
    deShuffleFrame payloadOut payloadIn (amrnbFrameBitOrders.getD mode [])
      (amrnbPayloadSizeInBits.getD mode 0)
  else payloadOut

end RtpServer.Source.AmrnbShuffle
