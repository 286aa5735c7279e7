import RtpServer.Source.Mgw

/-!
# RTP headers (`l_rtp.c`)

Header accessors on the octets of a packet. The uncompressed header is six 16-bit
words in network order; the compressed ones are addressed octet by octet.
-/
namespace RtpServer.Source.RtpHeader

open RtpServer.Library.LittleEndian RtpServer.Source.Mgw

/-- `l_rtp_type_t`: the header of RFC 3550 and the two compressed ones of multiplexing. -/
inductive LRtpType where
  | undefined
  | rtpUncompressed
  | rtpCompressedMb
  | rtpCompressedNb
  deriving DecidableEq

inductive LRtpFieldId where
  | undefined
  | version
  | padding
  | extension
  | csrcCount
  | marker
  | payloadType
  | seqNumber
  | timestamp
  | ssrc
  deriving DecidableEq

def lRtpGetHeaderSize8 : LRtpType → Nat
  | .rtpUncompressed => 12
  | .rtpCompressedMb => 4
  | .rtpCompressedNb => 3
  | .undefined => 0

/-- The 16-bit member at word `i` of the header, as the machine reads it. -/
def readWord (header : List Uint8) (i : Nat) : Uint16 :=
  word (header.getD (2 * i) 0) (header.getD (2 * i + 1) 0)

def writeWord (header : List Uint8) (i : Nat) (w : Uint16) : List Uint8 :=
  (header.set (2 * i) (low w)).set (2 * i + 1) (high w)

@[simp] theorem length_writeWord (header : List Uint8) (i : Nat) (w : Uint16) :
    (writeWord header i w).length = header.length := by
  simp [writeWord]

/-- `l_rtp_get_field`: the field on the right of a `uint32`, 0 for one the header does not have. -/
def lRtpGetField (header : List Uint8) (type : LRtpType) (fieldId : LRtpFieldId) : Uint32 :=
  match type with
  | .rtpUncompressed =>
    let bitfield := (beToNat16 (readWord header 0)).setWidth 32
    match fieldId with
    | .version => (bitfield >>> 14) &&& 0x0003
    | .padding => (bitfield >>> 13) &&& 0x0001
    | .extension => (bitfield >>> 12) &&& 0x0001
    | .csrcCount => (bitfield >>> 8) &&& 0x000F
    | .marker => (bitfield >>> 7) &&& 0x0001
    | .payloadType => (bitfield >>> 0) &&& 0x007F
    | .seqNumber => (beToNat16 (readWord header 1)).setWidth 32
    | .timestamp =>
      ((beToNat16 (readWord header 2)).setWidth 32 <<< 16) |||
        (beToNat16 (readWord header 3)).setWidth 32
    | .ssrc =>
      ((beToNat16 (readWord header 4)).setWidth 32 <<< 16) |||
        (beToNat16 (readWord header 5)).setWidth 32
    | .undefined => 0
  | .rtpCompressedMb =>
    match fieldId with
    | .seqNumber => (header.getD 0 0).setWidth 32
    | .timestamp => ((header.getD 1 0).setWidth 32 <<< 8) ||| (header.getD 2 0).setWidth 32
    | .marker => ((header.getD 3 0).setWidth 32 >>> 7) &&& 0x01
    | .payloadType => ((header.getD 3 0).setWidth 32 >>> 0) &&& 0x7F
    | _ => 0
  | .rtpCompressedNb =>
    match fieldId with
    | .seqNumber => (header.getD 0 0).setWidth 32
    | .timestamp => ((header.getD 1 0).setWidth 32 <<< 8) ||| (header.getD 2 0).setWidth 32
    | _ => 0
  | .undefined => 0

/-- `bitfield &= ~NAT_TO_BE_16(mask); bitfield |= NAT_TO_BE_16(value)` on word 0. -/
def setBitfield (header : List Uint8) (mask : Uint16) (value : Uint32) : List Uint8 :=
  let bitfield := readWord header 0 &&& ~~~ natToBe16 mask
  writeWord header 0 (bitfield ||| natToBe16 (value.setWidth 16))

/-- A 32-bit field in its two words, the high one first. -/
def setHiLo (header : List Uint8) (i : Nat) (value : Uint32) : List Uint8 :=
  let header := writeWord header i (natToBe16 (((value &&& 0xFFFF0000) >>> 16).setWidth 16))
  writeWord header (i + 1) (natToBe16 ((value &&& 0x0000FFFF).setWidth 16))

/-- `l_rtp_set_field`. Padding, extension and the CSRC count cannot be set; a field the header does
not have leaves it alone. -/
def lRtpSetField (header : List Uint8) (type : LRtpType) (fieldId : LRtpFieldId)
    (value : Uint32) : List Uint8 :=
  match type with
  | .rtpUncompressed =>
    match fieldId with
    | .version => setBitfield header 0xC000 ((value &&& 0x0003) <<< 14)
    | .marker => setBitfield header 0x0080 ((value &&& 0x0001) <<< 7)
    | .payloadType => setBitfield header 0x007F ((value &&& 0x007F) <<< 0)
    | .seqNumber => writeWord header 1 (natToBe16 (value.setWidth 16))
    | .timestamp => setHiLo header 2 value
    | .ssrc => setHiLo header 4 value
    | _ => header
  | .rtpCompressedMb =>
    match fieldId with
    | .marker =>
      header.set 3 ((header.getD 3 0 &&& ~~~ (0x80 : Uint8)) ||| ((value &&& 0x01) <<< 7).setWidth 8)
    | .payloadType =>
      header.set 3 ((header.getD 3 0 &&& ~~~ (0x7F : Uint8)) ||| ((value &&& 0x7F) <<< 0).setWidth 8)
    | .seqNumber => header.set 0 (value.setWidth 8)
    | .timestamp => setTimestamp8 header value
    | _ => header
  | .rtpCompressedNb =>
    match fieldId with
    | .seqNumber => header.set 0 (value.setWidth 8)
    | .timestamp => setTimestamp8 header value
    | _ => header
  | .undefined => header
where
  setTimestamp8 (header : List Uint8) (value : Uint32) : List Uint8 :=
    (header.set 1 (((value >>> 8) &&& 0x000000FF).setWidth 8)).set 2
      (((value >>> 0) &&& 0x000000FF).setWidth 8)

/-- `l_rtp_increment_field`; the sum wraps at the width of the field when it is stored. -/
def lRtpIncrementField (header : List Uint8) (type : LRtpType) (fieldId : LRtpFieldId)
    (increment : Uint32) : List Uint8 :=
  let oldValue := lRtpGetField header type fieldId
  match fieldId with
  | .seqNumber => lRtpSetField header type fieldId (oldValue + increment)
  | .timestamp => lRtpSetField header type fieldId (oldValue + increment)
  | .ssrc => lRtpSetField header type fieldId (oldValue + increment)
  | .payloadType => lRtpSetField header type fieldId (oldValue + increment)
  | _ => header

@[simp] theorem length_lRtpSetField (header : List Uint8) (type : LRtpType)
    (fieldId : LRtpFieldId) (value : Uint32) :
    (lRtpSetField header type fieldId value).length = header.length := by
  cases type <;> cases fieldId <;>
    simp [lRtpSetField, setBitfield, setHiLo, lRtpSetField.setTimestamp8]

end RtpServer.Source.RtpHeader
