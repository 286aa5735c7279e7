import RtpServer.Library.FieldCopies
import RtpServer.Source.Upd

/-!
# GSM SID payload formats (`l_upd.c`)

The maps between the short format of a GSM FR or EFR SID frame and the long one, in place
in the payload words.
-/
namespace RtpServer.Source.GsmSid

open RtpServer.Library RtpServer.Library.Bits RtpServer.Source.Upd

/-- Codeword for GSM EFR SID frames. Bits are set to 1. -/
def gsmEfrSidCodeword : List Uint16 :=
  [0x0000, 0x0000, 0x0006, 0xFFFF, 0xF800, 0x0003, 0xBFFF, 0xFE00,
   0x0000, 0x0FFF, 0xFFF0, 0x0000, 0x0FFF, 0xCFFC, 0x0000, 0x0000]

/-- The 6 bits of the block amplitude, 48 to 53 of the long format, go behind the 36 LAR bits. -/
def lUpdMapGsmFrSidLongToShort (payload : List Uint16) : List Uint16 :=
  payload.set 2 ((payloadWord payload 2 &&& 0xF000) |||
    ((payloadWord payload 2 &&& 0x0001) <<< 11) ||| ((payloadWord payload 3 &&& 0xF800) >>> 5))

/-- The 5 bits of the quantization index, 87 to 91 of the long format, go to bits 39 to 43. -/
def lUpdMapGsmEfrSidLongToShort (payload : List Uint16) : List Uint16 :=
  payload.set 2 ((payloadWord payload 2 &&& 0xFC00) ||| (payloadWord payload 5 &&& 0x03E0))

/-- The stores go to words 2 to 16. -/
def lUpdMapGsmFrSidShortToLong (payload : List Uint16) : List Uint16 :=
  let tmp := (payloadWord payload 2 >>> 6) &&& 0x003F
  Buffer.blit payload 2
    [(payloadWord payload 2 &&& 0xF000) ||| (tmp >>> 5), tmp <<< 11, 0, 0, tmp <<< 3, 0, 0,
     tmp >>> 5, tmp <<< 11, 0, 0, tmp <<< 3, 0, 0, 0]

/-- The stores go to words 2 to 15, then the codeword is set. -/
def lUpdMapGsmEfrSidShortToLong (payload : List Uint16) : List Uint16 :=
  let tmp := (payloadWord payload 2 >>> 5) &&& 0x001F
  orWords gsmEfrSidCodeword 0 <| Buffer.blit payload 2
    [payloadWord payload 2 &&& 0xFC00, 0, 0, tmp <<< 5, 0, 0, tmp <<< 3, 0, 0, tmp >>> 2,
     tmp <<< 14, 0, tmp >>> 4, tmp <<< 12]

end RtpServer.Source.GsmSid
