import RtpServer.Source.Upd

/-!
# Sample rate and duration of UPD packets (`l_upd.c`)

`l_upd_get_sample_rate_hz`, and for Opus packets the number of frames and the speech
duration. The first reads the payload as words of the machine, the others as octets.
-/
namespace RtpServer.Source.Opus

open RtpServer.Library RtpServer.Library.LittleEndian RtpServer.Source.Upd

def lUpdNbSampleRateHz : Nat := 8000
def lUpdMbSampleRateHz : Nat := 12000
def lUpdWbSampleRateHz : Nat := 16000
def lUpdSwbSampleRateHz : Nat := 24000
def lUpdFbSampleRateHz : Nat := 48000

abbrev updFormPcmG722 : BitVec 4 := 6

variable {size16 : Nat}

/-- `l_upd_get_payload` read through a `uint8` pointer. -/
def payloadOctet (updPacket : UpdPacket size16) (i : Nat) : Uint8 :=
  (octets updPacket.payload.cells).getD i 0

/-- Local `opus_config` of `get_opus_sample_rate_hz`. -/
def opusConfig (opusPacket : List Uint16) : Uint8 := (payloadWord opusPacket 0 >>> 11).setWidth 8

/-- The comparisons of the source in their order; the narrowband one is on the low 4 bits. -/
def sampleRateOfConfig (opusConfig : Nat) : Nat :=
  if opusConfig % 16 ≤ 3 then lUpdNbSampleRateHz
  else if 4 ≤ opusConfig ∧ opusConfig ≤ 7 then lUpdMbSampleRateHz
  else if (8 ≤ opusConfig ∧ opusConfig ≤ 11) ∨ (20 ≤ opusConfig ∧ opusConfig ≤ 23) then
    lUpdWbSampleRateHz
  else if (12 ≤ opusConfig ∧ opusConfig ≤ 13) ∨ (24 ≤ opusConfig ∧ opusConfig ≤ 27) then
    lUpdSwbSampleRateHz
  else lUpdFbSampleRateHz

/-- `get_opus_sample_rate_hz`. The configuration is taken from the top bits of the host word, on a
little-endian machine those of payload octet 1. -/
def getOpusSampleRateHz (opusPacket : List Uint16) : Nat :=
  sampleRateOfConfig (opusConfig opusPacket).toNat

def lUpdGetPcmSampleRateHz (p : UpdHeader) : Nat :=
  if p.form = updFormPcmLinear16Khz ∨ p.form = updFormPcmG722 then lUpdWbSampleRateHz
  else lUpdNbSampleRateHz

/-- `l_upd_get_sample_rate_hz`; a codec without a rate of its own has 8 kHz. -/
def lUpdGetSampleRateHz (updPacket : UpdPacket size16) : Nat :=
  if updPacket.codec = updCodecPcm then lUpdGetPcmSampleRateHz updPacket.toUpdHeader
  else if updPacket.codec = updCodecAmrwb ∨ updPacket.codec = updCodecBfp ∨
      updPacket.codec = updCodecEvs then lUpdWbSampleRateHz
  else if updPacket.codec = updCodecOpus then getOpusSampleRateHz updPacket.payload.cells
  else lUpdNbSampleRateHz

/-- `l_upd_get_num_frames_in_opus_packet`, by the code in the low bits of the first octet. -/
def lUpdGetNumFramesInOpusPacket (updPacket : UpdPacket size16) : Nat :=
  let packetCode := payloadOctet updPacket 0 &&& 0x03
  if packetCode = 0 then 1
  else if packetCode = 1 ∨ packetCode = 2 then 2
  else (payloadOctet updPacket 1 &&& 0x3F).toNat

/-- Local `config` of `l_upd_get_opus_speech_duration_us`. -/
def durationConfig (updPacket : UpdPacket size16) : Uint8 :=
  (payloadOctet updPacket 0 >>> 3) &&& 0x1F

/-- The length of a frame in microseconds: SILK, hybrid and CELT configurations in turn. -/
def frameLengthOfConfig (config : Nat) : Nat :=
  if config < 12 then
    if config % 4 = 0 then 10000
    else if config % 4 = 1 then 20000
    else if config % 4 = 2 then 40000
    else 60000
  else if config < 16 then
    if config % 2 = 0 then 10000 else 20000
  else
    if config % 4 = 0 then 2500
    else if config % 4 = 1 then 5000
    else if config % 4 = 2 then 10000
    else 20000

/-- Both factors are below 2^16, so the product needs no reduction. -/
def lUpdGetOpusSpeechDurationUs (updPacket : UpdPacket size16) : Nat :=
  frameLengthOfConfig (durationConfig updPacket).toNat * lUpdGetNumFramesInOpusPacket updPacket

end RtpServer.Source.Opus
