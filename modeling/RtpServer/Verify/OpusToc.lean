import RtpServer.Source.Opus

/-!
# The TOC octet of an Opus packet

RFC 6716 reads sample rate, frame length and number of frames off one octet. The code
takes the configuration of the sample rate from payload octet 1 and that of the duration
from octet 0, whichever of the two the TOC octet is.
-/
namespace RtpServer.Verify.OpusToc

open RtpServer.Source RtpServer.Library RtpServer.Library.LittleEndian RtpServer.Source.Upd
open RtpServer.Source.Opus

/-- The rows of one bandwidth: the sample rate with each frame length. -/
def rows (rateHz : Nat) (frameUs : List Nat) : List (Nat × Nat) := frameUs.map fun us => (rateHz, us)

def silkUs : List Nat := [10000, 20000, 40000, 60000]
def hybridUs : List Nat := [10000, 20000]
def celtUs : List Nat := [2500, 5000, 10000, 20000]

/-- Table 2: sample rate in Hz and frame length in microseconds of configurations 0 to 31. -/
def tocTable : List (Nat × Nat) :=
  rows 8000 silkUs ++ rows 12000 silkUs ++ rows 16000 silkUs ++
  rows 24000 hybridUs ++ rows 48000 hybridUs ++
  rows 8000 celtUs ++ rows 16000 celtUs ++ rows 24000 celtUs ++ rows 48000 celtUs

def tocEntry (toc : Uint8) : Nat × Nat := tocTable.getD (toc.toNat / 8) (0, 0)

/-- Number of frames by the code in the TOC octet; code 3 has the number in the next octet. -/
def tocFrames (toc next : Uint8) : Nat :=
  match toc.toNat % 4 with
  | 0 => 1
  | 1 => 2
  | 2 => 2
  | _ => next.toNat % 64

variable {size16 : Nat}

theorem payloadOctet_one (packet : UpdPacket size16) :
    payloadOctet packet 1 = high (payloadWord packet.payload.cells 0) := by
  unfold payloadOctet payloadWord
  cases packet.payload.cells <;> rfl

/-- On this machine the top bits of a word are those of the second octet. -/
theorem opusConfig_eq (packet : UpdPacket size16) :
    opusConfig packet.payload.cells = payloadOctet packet 1 >>> 3 := by
  rw [payloadOctet_one, opusConfig]
  generalize payloadWord packet.payload.cells 0 = w
  apply BitVec.eq_of_toNat_eq
  have hw := w.isLt
  simp only [high, BitVec.toNat_setWidth, BitVec.toNat_ushiftRight, BitVec.extractLsb'_toNat,
    Nat.shiftRight_eq_div_pow]
  omega

theorem durationConfig_eq (packet : UpdPacket size16) :
    durationConfig packet = payloadOctet packet 0 >>> 3 := by
  unfold durationConfig
  generalize payloadOctet packet 0 = b
  apply BitVec.eq_of_toNat_eq
  have hb := b.isLt
  have hmask := Nat.and_two_pow_sub_one_eq_mod (b.toNat / 8) 5
  simp only [BitVec.toNat_and, BitVec.toNat_ushiftRight, Nat.shiftRight_eq_div_pow]
  change b.toNat / 8 &&& 2 ^ 5 - 1 = b.toNat / 8
  omega

theorem sampleRateOfConfig_eq : ∀ config < 32,
    sampleRateOfConfig config = (tocTable.getD config (0, 0)).1 := by decide

theorem frameLengthOfConfig_eq : ∀ config < 32,
    frameLengthOfConfig config = (tocTable.getD config (0, 0)).2 := by decide

theorem toNat_config_lt (toc : Uint8) : (toc >>> 3).toNat < 32 :=
  BitVec.toNat_ushiftRight_lt toc 3 (by decide)

theorem toNat_config (toc : Uint8) : (toc >>> 3).toNat = toc.toNat / 8 := by
  rw [BitVec.toNat_ushiftRight, Nat.shiftRight_eq_div_pow]

theorem lUpdGetNumFramesInOpusPacket_eq (packet : UpdPacket size16) :
    lUpdGetNumFramesInOpusPacket packet =
      tocFrames (payloadOctet packet 0) (payloadOctet packet 1) := by
  have hcode : (payloadOctet packet 0 &&& 0x03).toNat = (payloadOctet packet 0).toNat % 4 :=
    Nat.and_two_pow_sub_one_eq_mod _ 2
  have hcount : (payloadOctet packet 1 &&& 0x3F).toNat = (payloadOctet packet 1).toNat % 64 :=
    Nat.and_two_pow_sub_one_eq_mod _ 6
  have hlt := Nat.mod_lt (payloadOctet packet 0).toNat (show 0 < 4 by decide)
  simp only [lUpdGetNumFramesInOpusPacket, tocFrames, ← BitVec.toNat_inj, hcode, hcount]
  generalize (payloadOctet packet 0).toNat % 4 = code at hlt
  match code, hlt with
  | 0, _ => rfl
  | 1, _ => rfl
  | 2, _ => rfl
  | 3, _ => rfl

/-- Rate and duration are those of the TOC octet `toc` with `next` behind it. -/
structure ReadsToc (packet : UpdPacket updMaxPayloadSize16) (toc next : Uint8) : Prop where
  rateConfig : opusConfig packet.payload.cells = toc >>> 3
  durationConfig : durationConfig packet = toc >>> 3
  rate : lUpdGetSampleRateHz packet = (tocEntry toc).1
  duration : lUpdGetOpusSpeechDurationUs packet = (tocEntry toc).2 * tocFrames toc next

/-- The TOC octet is payload octet 0 in wire order and octet 1 after the words were swapped. -/
def OneToc (packet : UpdPacket updMaxPayloadSize16) : Prop :=
  ReadsToc packet (payloadOctet packet 0) (payloadOctet packet 1) ∨
    ReadsToc packet (payloadOctet packet 1) (payloadOctet packet 0)

theorem lUpdGetSampleRateHz_opus {packet : UpdPacket size16} (hcodec : packet.codec = updCodecOpus) :
    lUpdGetSampleRateHz packet = (tocEntry (payloadOctet packet 1)).1 := by
  unfold lUpdGetSampleRateHz
  rw [hcodec, if_neg (by decide), if_neg (by decide), if_pos rfl, getOpusSampleRateHz,
    opusConfig_eq, sampleRateOfConfig_eq _ (toNat_config_lt _), toNat_config, tocEntry]

theorem lUpdGetOpusSpeechDurationUs_eq (packet : UpdPacket size16) :
    lUpdGetOpusSpeechDurationUs packet = (tocEntry (payloadOctet packet 0)).2 *
      tocFrames (payloadOctet packet 0) (payloadOctet packet 1) := by
  rw [lUpdGetOpusSpeechDurationUs, durationConfig_eq,
    frameLengthOfConfig_eq _ (toNat_config_lt _), toNat_config,
    lUpdGetNumFramesInOpusPacket_eq, tocEntry]

theorem oneToc_iff (packet : UpdPacket updMaxPayloadSize16) (hcodec : packet.codec = updCodecOpus) :
    OneToc packet ↔ payloadOctet packet 0 >>> 3 = payloadOctet packet 1 >>> 3 := by
  constructor
  · intro h
    rcases h with h | h
    · rw [← h.rateConfig, opusConfig_eq]
    · rw [← h.durationConfig, durationConfig_eq]
  · intro hsame
    have hentry : tocEntry (payloadOctet packet 1) = tocEntry (payloadOctet packet 0) := by
      rw [tocEntry, tocEntry, ← toNat_config, ← toNat_config, hsame]
    refine Or.inl ⟨?_, durationConfig_eq packet, ?_, lUpdGetOpusSpeechDurationUs_eq packet⟩
    · rw [opusConfig_eq, hsame]
    · rw [lUpdGetSampleRateHz_opus hcodec, hentry]

/-- Two wideband SILK frames of 20 ms, described by the same five bits in either octet. -/
theorem oneToc_iff_silk :
    OneToc ⟨⟨updCodecOpus, 0, 0, 2⟩, 0, Buffer.replicate _ (word 0x49 0x4C)⟩ :=
  (oneToc_iff ⟨⟨updCodecOpus, 0, 0, 2⟩, 0, Buffer.replicate _ (word 0x49 0x4C)⟩ rfl).2 (by decide)

/-- A narrowband frame of 20 ms whose second octet is all ones: reported as 48 kHz. -/
theorem oneToc_narrowband :
    ¬ (∀ packet : UpdPacket updMaxPayloadSize16, packet.codec = updCodecOpus → OneToc packet) ∧
      lUpdGetSampleRateHz (⟨⟨updCodecOpus, 0, 0, 2⟩, 0, Buffer.replicate _ (word 0x08 0xFF)⟩ :
        UpdPacket updMaxPayloadSize16) = 48000 ∧
      lUpdGetOpusSpeechDurationUs (⟨⟨updCodecOpus, 0, 0, 2⟩, 0,
        Buffer.replicate _ (word 0x08 0xFF)⟩ : UpdPacket updMaxPayloadSize16) = 20000 := by
  refine ⟨fun hall => ?_, by decide, by decide⟩
  have h := hall ⟨⟨updCodecOpus, 0, 0, 2⟩, 0, Buffer.replicate _ (word 0x08 0xFF)⟩ rfl
  rcases h with h | h
  · exact absurd h.rateConfig (by decide)
  · exact absurd h.durationConfig (by decide)

end RtpServer.Verify.OpusToc
