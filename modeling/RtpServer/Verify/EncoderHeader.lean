import RtpServer.Verify.Decoder

/-!
# The header the encoder writes

`m_evs_enc` rebuilds the packet header from the requested mode and the bit rate the codec
reports; every reader takes the payload length from that header. It is the length of the
frame for a Primary SID frame and for a speech frame of the requested mode, and of no other
frame the codec can return.
-/
namespace RtpServer.Verify.EncoderHeader

open RtpServer.Library RtpServer.Library.LittleEndian
open RtpServer.Source RtpServer.Source.TypeDef RtpServer.Source.Upd RtpServer.Source.Usc
open RtpServer.Source.EvsCodec RtpServer.Verify.Decoder

/-- Bits of a speech frame of each mode. -/
def speechSizes (evsMode : BitVec 4) : List Nat :=
  if evsMode = updEvsPrimaryMode then evsPrimaryPayloadSizeInBits else evsWbioPayloadSizeInBits

def sidSize (evsMode : BitVec 4) : Nat := if evsMode = updEvsPrimaryMode then 48 else 35

/-- The sizes of all frames of a codec mode: speech, SID and empty. -/
def frameSizes (evsMode : BitVec 4) : List Nat := speechSizes evsMode ++ [sidSize evsMode, 0]

/-- The header written for a frame of bit rate `outBitrate`. -/
def encHeader (evsMode : BitVec 4) (mode : Nat) (outBitrate : Int) : UpdHeader where
  codec := updCodecEvs
  type := mapTypeFromUscToUpd (encFrametypeMode outBitrate mode).1
  mode := BitVec.ofNat 4 (encFrametypeMode outBitrate mode).2
  form := evsMode

theorem speechSizes_length {evsMode : BitVec 4}
    (h : evsMode = updEvsPrimaryMode ∨ evsMode = updEvsWbioMode) :
    (speechSizes evsMode).length = numberOfEvsModes evsMode := by
  rcases h with rfl | rfl <;> rfl

/-- A SID or empty frame gets the header of a SID frame. -/
theorem encHeader_sid {evsMode : BitVec 4}
    (h : evsMode = updEvsPrimaryMode ∨ evsMode = updEvsWbioMode) (mode : Nat) {outBitrate : Int}
    (hrate : outBitrate = 2400 ∨ outBitrate = 0) :
    lUpdGetPayloadSize1 (encHeader evsMode mode outBitrate) = sidSize evsMode := by
  rcases hrate with rfl | rfl <;> rcases h with rfl | rfl <;> rfl

theorem encHeader_speech {evsMode : BitVec 4}
    (h : evsMode = updEvsPrimaryMode ∨ evsMode = updEvsWbioMode) {mode : Nat}
    (hmode : mode < numberOfEvsModes evsMode) {outBitrate : Int} (h2400 : outBitrate ≠ 2400)
    (h0 : outBitrate ≠ 0) :
    lUpdGetPayloadSize1 (encHeader evsMode mode outBitrate) = (speechSizes evsMode).getD mode 0 := by
  have hbits : (BitVec.ofNat 4 mode).toNat = mode := by
    rcases h with rfl | rfl
    · exact Nat.mod_eq_of_lt (Nat.lt_of_lt_of_le hmode (by decide))
    · exact Nat.mod_eq_of_lt (Nat.lt_of_lt_of_le hmode (by decide))
  have hheader : encHeader evsMode mode outBitrate =
      ⟨updCodecEvs, updTypeSpeechGood, BitVec.ofNat 4 mode, evsMode⟩ := by
    simp only [encHeader, encFrametypeMode, if_neg h2400, if_neg h0]
    rfl
  rw [hheader]
  rcases h with rfl | rfl
  · change sizeOfMode evsPrimaryPayloadSizeInBits _ = _
    rw [sizeOfMode, hbits]
    rfl
  · change sizeOfMode evsWbioPayloadSizeInBits _ = _
    rw [sizeOfMode, hbits]
    rfl

/-- The header is that of a frame of `bits` bits exactly for a Primary SID frame and a speech
frame of the mode. -/
theorem encHeader_size_iff {evsMode : BitVec 4}
    (h : evsMode = updEvsPrimaryMode ∨ evsMode = updEvsWbioMode) {mode : Nat}
    (hmode : mode < numberOfEvsModes evsMode) {bits : Nat} (hbits : bits ∈ frameSizes evsMode) :
    lUpdGetPayloadSize1 (encHeader evsMode mode (50 * (bits : Int))) = bits ↔
      (evsMode = updEvsPrimaryMode ∧ bits = 48) ∨ bits = (speechSizes evsMode).getD mode 0 := by
  have hne0 : (speechSizes evsMode).getD mode 0 ≠ 0 := by
    have hspeech : ∀ size ∈ speechSizes evsMode, size ≠ 0 := by rcases h with rfl | rfl <;> decide
    rw [List.getD_eq_getElem _ _ (by rwa [speechSizes_length h])]
    exact hspeech _ (List.getElem_mem _)
  by_cases h48 : bits = 48
  · subst h48
    have hrate : 50 * ((48 : Nat) : Int) = 2400 := rfl
    rw [hrate, encHeader_sid h mode (Or.inl rfl)]
    rcases h with rfl | rfl
    · exact ⟨fun _ => Or.inl ⟨rfl, rfl⟩, fun _ => rfl⟩
    · exact absurd hbits (by decide)
  · by_cases h0 : bits = 0
    · subst h0
      have hrate : 50 * ((0 : Nat) : Int) = 0 := rfl
      rw [hrate, encHeader_sid h mode (Or.inr rfl)]
      constructor
      · intro hsid
        rcases h with rfl | rfl
        · exact absurd hsid (by decide)
        · exact absurd hsid (by decide)
      · intro hall
        rcases hall with ⟨-, hall⟩ | hall
        · exact absurd hall (by decide)
        · exact absurd hall.symm hne0
    · rw [encHeader_speech h hmode (by omega) (by omega)]
      constructor
      · intro hsize
        exact Or.inr hsize.symm
      · intro hall
        rcases hall with ⟨-, hall⟩ | hall
        · exact absurd hall h48
        · exact hall.symm

section

variable {σ : Type} (fxns : UscFxns σ) {n m : Nat}

/-- What the codec answers to the frame `m_evs_enc` gives it. -/
def encodeAnswer (s : σ) (evsEnc : CodecEncData) (internal : MInternalEvsEncData)
    (linPcm : UpdPacket n) : Answer σ UscEncoded :=
  let encBitrate := getEvsBitrate evsEnc.evsMode.toNat evsEnc.mode
  fxns.encode (fxns.control s (encModes evsEnc internal encBitrate) internal.encHandle).next
    internal.encHandle
    { pBuffer := octets linPcm.payload.cells
      nbytes := size1To8 (lUpdGetPayloadSize1 linPcm.toUpdHeader)
      bitrate := encBitrate }

/-- A successful call passed both checks of the mode and wrote the header. -/
theorem mEvsEnc_succeeds (s : σ) {evsEnc : CodecEncData} {internal : MInternalEvsEncData}
    (hi : evsEnc.internal = some internal) (linPcm : UpdPacket n) (outCodec : UpdPacket m)
    (hok : (mEvsEnc fxns s evsEnc (some linPcm) (some outCodec)).ecode = eaNoErrors) :
    (evsEnc.evsMode = updEvsPrimaryMode ∨ evsEnc.evsMode = updEvsWbioMode) ∧
      evsEnc.mode < numberOfEvsModes evsEnc.evsMode ∧
      ∃ p, (mEvsEnc fxns s evsEnc (some linPcm) (some outCodec)).outCodec = some p ∧
        p.toUpdHeader = encHeader evsEnc.evsMode evsEnc.mode
          (encodeAnswer fxns s evsEnc internal linPcm).value.bitrate := by
  by_cases hform : evsEnc.evsMode ≠ updEvsPrimaryMode ∧ evsEnc.evsMode ≠ updEvsWbioMode
  · simp only [mEvsEnc, hi, if_pos hform] at hok
    exact absurd hok (by decide)
  by_cases hmode : numberOfEvsModes evsEnc.evsMode ≤ evsEnc.mode
  · simp only [mEvsEnc, hi, if_neg hform, if_pos hmode] at hok
    exact absurd hok (by decide)
  by_cases hcontrol : (fxns.control s (encModes evsEnc internal
      (getEvsBitrate evsEnc.evsMode.toNat evsEnc.mode)) internal.encHandle).status ≠ uscNoError
  · simp only [mEvsEnc, hi, if_neg hform, if_neg hmode, if_pos hcontrol] at hok
    exact absurd hok (by decide)
  by_cases hencode : (encodeAnswer fxns s evsEnc internal linPcm).status ≠ uscNoError
  · rw [encodeAnswer] at hencode
    simp only [mEvsEnc, hi, if_neg hform, if_neg hmode, if_neg hcontrol, if_pos hencode] at hok
    exact absurd hok (by decide)
  rw [encodeAnswer] at hencode
  refine ⟨?_, Nat.lt_of_not_le hmode, ?_⟩
  · rcases Classical.not_and_iff_not_or_not.1 hform with h | h
    · exact Or.inl (Classical.not_not.1 h)
    · exact Or.inr (Classical.not_not.1 h)
  · simp only [mEvsEnc, hi, if_neg hform, if_neg hmode, if_neg hcontrol, if_neg hencode]
    exact ⟨_, rfl, rfl⟩

/-- Where the codec reports 50 times the bits of a frame of its mode, the header written
describes the frame exactly if the frame is a Primary SID frame or a speech frame of the
requested mode. -/
theorem mEvsEnc_describes_iff (s : σ) {evsEnc : CodecEncData} {internal : MInternalEvsEncData}
    (hi : evsEnc.internal = some internal) (linPcm : UpdPacket n) (outCodec : UpdPacket m)
    (hok : (mEvsEnc fxns s evsEnc (some linPcm) (some outCodec)).ecode = eaNoErrors)
    {bits : Nat} (hbits : bits ∈ frameSizes evsEnc.evsMode)
    (hrate : (encodeAnswer fxns s evsEnc internal linPcm).value.bitrate = 50 * (bits : Int)) :
    ∃ p, (mEvsEnc fxns s evsEnc (some linPcm) (some outCodec)).outCodec = some p ∧
      (lUpdGetPayloadSize1 p.toUpdHeader = bits ↔
        (evsEnc.evsMode = updEvsPrimaryMode ∧ bits = 48) ∨
          bits = (speechSizes evsEnc.evsMode).getD evsEnc.mode 0) := by
  obtain ⟨hform, hmode, p, hp, hheader⟩ := mEvsEnc_succeeds fxns s hi linPcm outCodec hok
  refine ⟨p, hp, ?_⟩
  rw [hheader, hrate]
  exact encHeader_size_iff hform hmode hbits

end

/-- A codec that answers every frame with one of `bits` bits. -/
def frameCodec (bits : Nat) : UscFxns Nat :=
  { countingCodec fun _ => uscNoError with
    encode := fun s _ _ =>
      ⟨uscNoError, ⟨List.replicate (size1To8 bits) 0, size1To8 bits, 50 * (bits : Int)⟩, s⟩ }

def encoderData (evsMode : BitVec 4) (mode : Nat) : CodecEncData :=
  { internal := some ⟨0x1000, 0x2000, {}⟩, evsMode, mode }

theorem mEvsEnc_describes_iff_speech :
    ∃ p, (mEvsEnc (frameCodec 264) 0 (encoderData updEvsPrimaryMode 4)
        (some (UpdPacket.zero 320)) (some (UpdPacket.zero 480))).outCodec = some p ∧
      lUpdGetPayloadSize1 p.toUpdHeader = 264 := by
  obtain ⟨p, hp, hiff⟩ := mEvsEnc_describes_iff (frameCodec 264) 0
    (show (encoderData updEvsPrimaryMode 4).internal = some _ from rfl) (UpdPacket.zero 320)
    (UpdPacket.zero 480) rfl (show 264 ∈ frameSizes updEvsPrimaryMode by decide) rfl
  exact ⟨p, hp, hiff.2 (by decide)⟩

/-- The packet that leaves the encoder for a frame of `bits` bits describes another length. -/
def Misdescribed (evsMode : BitVec 4) (mode bits : Nat) : Prop :=
  let r := mEvsEnc (frameCodec bits) 0 (encoderData evsMode mode)
    (some (UpdPacket.zero 320)) (some (UpdPacket.zero 480))
  bits ∈ frameSizes evsMode ∧ r.ecode = eaNoErrors ∧
    ∃ p, r.outCodec = some p ∧ lUpdGetPayloadSize1 p.toUpdHeader ≠ bits

/-- An AMR-WB IO SID frame is announced as speech, an empty frame as SID, and a frame of
another rate as one of the rate asked for. -/
theorem mEvsEnc_misdescribed :
    Misdescribed updEvsWbioMode 2 35 ∧ Misdescribed updEvsPrimaryMode 4 0 ∧
      Misdescribed updEvsPrimaryMode 0 144 :=
  ⟨⟨by decide, rfl, _, rfl, by decide⟩, ⟨by decide, rfl, _, rfl, by decide⟩,
    ⟨by decide, rfl, _, rfl, by decide⟩⟩

end RtpServer.Verify.EncoderHeader
