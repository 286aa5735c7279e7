import RtpServer.Verify.Decoder
import RtpServer.Verify.StaleAudio

/-!
# The frame the decoder is driven with

Size, bit rate and frame type that reach the codec's `Decode`, for the packet made from a
compact payload. They agree with the payload for the twelve speech rates above 2800; the
2800 frame is announced at 2400, and a SID frame only keeps its rate and type if the low
bits of its last octet happen to say so.
-/
namespace RtpServer.Verify.FrameRates

open RtpServer.Library RtpServer.Library.LittleEndian
open RtpServer.Source RtpServer.Source.TypeDef RtpServer.Source.Upd RtpServer.Source.Usc
open RtpServer.Source.EvsCodec RtpServer.Source.EvsIngress
open RtpServer.Verify.Decoder RtpServer.Verify.HandOver
open RtpServer.Verify.StaleAudio (Call)

def checkRateEvs : List Int :=
  [6600, 8850, 12650, 14250, 15850, 18250, 19850, 23050, 23850, 5900, 7200, 8000, 9600, 13200,
    16400, 24400, 32000, 48000, 64000, 96000, 128000]

/-- A codec whose `Control` succeeds exactly at the listed rates. -/
def ChecksRate {σ : Type} (fxns : UscFxns σ) : Prop :=
  ∀ s modes handle, (fxns.control s modes handle).status = uscNoError ↔
    modes.bitrate ∈ checkRateEvs

section

variable {σ : Type} (fxns : UscFxns σ) {n m : Nat}

/-- The calls made for a packet are a successful `Control` and a `Decode` of `size8` octets at
the rate of `size8` octets in 20 ms, not marked as lost. -/
def Driven (s : σ) (evsDec : CodecDecData) (packet : UpdPacket n) (linPcm : UpdPacket m)
    (size8 : Nat) : Prop :=
  ∃ modes handle input status,
    (mEvsDec fxns.logging (s, []) evsDec (some packet) (some linPcm)).next.2 =
        [.control modes handle uscNoError, .decode handle input status] ∧
      input.nbytes = size8 ∧ input.bitrate = 50 * (8 * size8) ∧ input.frametype ≠ -1

def Fits (packet : UpdPacket n) (size8 : Nat) : Prop :=
  packetBitrate packet ∈ checkRateEvs ∧
    (decInBuf packet (packetBitrate packet)).nbytes = size8 ∧
    (decInBuf packet (packetBitrate packet)).bitrate = 50 * (8 * size8) ∧
    (decInBuf packet (packetBitrate packet)).frametype ≠ -1

instance (packet : UpdPacket n) (size8 : Nat) : Decidable (Fits packet size8) :=
  inferInstanceAs (Decidable (_ ∧ _ ∧ _ ∧ _))

theorem driven_iff_fits (hrate : ChecksRate fxns) (s : σ) {evsDec : CodecDecData}
    {internal : MInternalEvsDecData} (hi : evsDec.internal = some internal)
    {packet : UpdPacket n} (hform : packet.form = updEvsPrimaryMode) (linPcm : UpdPacket m)
    (size8 : Nat) : Driven fxns s evsDec packet linPcm size8 ↔ Fits packet size8 := by
  have hknown : ¬ (packet.form ≠ updEvsPrimaryMode ∧ packet.form ≠ updEvsWbioMode) :=
    fun h => h.1 hform
  let control := fxns.control s (decModes (packetBitrate packet)) internal.decHandle
  by_cases hok : control.status = uscNoError
  · -- `Control` succeeds: exactly one `Decode` follows
    have hmem : packetBitrate packet ∈ checkRateEvs := (hrate _ _ _).1 hok
    let decode := fxns.decode control.next internal.decHandle
      (decInBuf packet (packetBitrate packet))
    have hlog : (mEvsDec fxns.logging (s, []) evsDec (some packet) (some linPcm)).next.2 =
        [.control (decModes (packetBitrate packet)) internal.decHandle control.status,
          .decode internal.decHandle (decInBuf packet (packetBitrate packet)) decode.status] := by
      have hstatus : ¬ (fxns.logging.control (s, []) (decModes (packetBitrate packet))
          internal.decHandle).status ≠ uscNoError := not_not.2 hok
      simp only [packetBitrate] at hstatus
      simp only [mEvsDec, hi, if_neg hknown, if_neg hstatus]
      split <;> rfl
    constructor
    · intro hall
      obtain ⟨modes, handle, input, status, hcalls, hfit⟩ := hall
      rw [hlog] at hcalls
      obtain ⟨-, hdecode⟩ := List.cons.inj hcalls
      obtain ⟨-, rfl, -⟩ := UscCall.decode.inj (List.cons.inj hdecode).1
      exact ⟨hmem, hfit⟩
    · intro hall
      obtain ⟨-, hfit⟩ := hall
      refine ⟨decModes (packetBitrate packet), internal.decHandle, _, decode.status, ?_, hfit⟩
      rw [hlog, hok]
  · -- `Control` fails: the log ends there, and the rate is not a listed one
    have hlog : (mEvsDec fxns.logging (s, []) evsDec (some packet) (some linPcm)).next.2 =
        [.control (decModes (packetBitrate packet)) internal.decHandle control.status] := by
      have hstatus : (fxns.logging.control (s, []) (decModes (packetBitrate packet))
          internal.decHandle).status ≠ uscNoError := hok
      simp only [packetBitrate] at hstatus
      simp only [mEvsDec, hi, if_neg hknown, if_pos hstatus]
      rfl
    constructor
    · intro hall
      obtain ⟨modes, handle, input, status, hcalls, -⟩ := hall
      rw [hlog] at hcalls
      cases (List.cons.inj hcalls).2
    · intro hall
      obtain ⟨hmem, -⟩ := hall
      exact absurd ((hrate _ _ _).2 hmem) hok

end

def speechHeader (size1 : Nat) : UpdHeader :=
  ⟨updCodecEvs, updTypeSpeechGood, getEvsCompactPrimaryModeFromPayloadSize size1 [],
    updEvsPrimaryMode⟩

/-- Those of a SID frame come from its last octet. -/
def sidHeader (last : Uint8) : UpdHeader where
  codec := updCodecEvs
  type := if last &&& 0x10 = 0 then updTypeSidFirst else updTypeSidUpdate
  mode :=
    if (last &&& 0x0F).toNat ≤ updModeEvsPrimary128000.toNat then (last &&& 0x0F).setWidth 4
    else updModeEvsPrimaryNotApplicable
  form := updEvsPrimaryMode

theorem handOver_header_speech {p : List Uint8} (tail : List Uint8)
    (scratch : UpdPacket mbIptPayloadSize16) (hsize : IsPrimaryCompact (8 * p.length))
    (h48 : 8 * p.length ≠ 48) :
    (handOver p tail scratch).toUpdHeader = speechHeader (8 * p.length) := by
  have hmode : updEvsPrimaryMode ≠ updEvsWbioMode := by decide
  simp only [handOver, createEvsUpdPacketCompact, getCompactEvsMode_primary hsize, if_neg hmode,
    getEvsCompactPrimaryUpdType, getEvsCompactPrimaryModeFromPayloadSize, if_neg h48, speechHeader]

/-- The SID functions read the third payload word, whose high half is the last octet. -/
theorem sid_word (a b : Uint8) :
    (word a b &&& 0x1000 = 0 ↔ b &&& 0x10 = 0) ∧
      (word a b &&& 0x0F00) >>> 8 = (b &&& 0x0F).setWidth 16 := by
  have h1000 : word a b &&& 0x1000 = word 0 (b &&& 0x10) := by
    rw [← word_low_high (word a b &&& 0x1000), low_and, high_and, low_word, high_word,
      show low 0x1000 = 0#8 by decide, show high 0x1000 = 0x10 by decide, BitVec.and_zero]
    rfl
  have h0F00 : word a b &&& 0x0F00 = word 0 (b &&& 0x0F) := by
    rw [← word_low_high (word a b &&& 0x0F00), low_and, high_and, low_word, high_word,
      show low 0x0F00 = 0#8 by decide, show high 0x0F00 = 0x0F by decide, BitVec.and_zero]
    rfl
  have hshift : ∀ c : Uint8, word 0 c >>> 8 = c.setWidth 16 := by decide
  constructor
  · rw [h1000]
    constructor
    · intro h
      exact (word_inj (h.trans (show (0 : Uint16) = word 0 0 by decide))).2
    · intro h
      rw [h]
      decide
  · rw [h0F00, hshift]

theorem handOver_header_sid {a b c d e f : Uint8} (tail : List Uint8)
    (scratch : UpdPacket mbIptPayloadSize16) (htail : 2 ≤ tail.length) :
    (handOver [a, b, c, d, e, f] tail scratch).toUpdHeader = sidHeader f := by
  have hmode : updEvsPrimaryMode ≠ updEvsWbioMode := by decide
  have hsize : IsPrimaryCompact 48 := by decide
  have heven : [a, b, c, d, e, f].length % 2 = 0 := by simp
  have hcells := even_payload_cells heven
    (show IsPrimaryCompact (8 * [a, b, c, d, e, f].length) from hsize) htail scratch
  obtain ⟨htype, hbits⟩ := sid_word e f
  have hw : payloadWord (createEvsUpdPacketCompact (words ([a, b, c, d, e, f] ++ tail)) 48
      scratch).payload.cells 2 = word e f := by
    rw [show 48 = 8 * [a, b, c, d, e, f].length from rfl, hcells]
    rfl
  have hsmall : ((f &&& 0x0F).setWidth 16 : Uint16).toNat = (f &&& 0x0F).toNat := by
    rw [BitVec.toNat_setWidth, Nat.mod_eq_of_lt (by omega)]
  rw [createEvsUpdPacketCompact_payload _ hsize] at hw
  change (createEvsUpdPacketCompact (words ([a, b, c, d, e, f] ++ tail)) 48
    scratch).toUpdHeader = _
  simp only [createEvsUpdPacketCompact, getCompactEvsMode_primary hsize, if_neg hmode,
    getEvsCompactPrimaryUpdType, getEvsCompactPrimaryModeFromPayloadSize, if_true, sidHeader,
    lUpdGetEvsPrimarySidType, lUpdGetEvsPrimarySidMode, hw, htype, hbits, hsmall]
  rw [BitVec.setWidth_setWidth_of_le _ (by decide)]

def bare (h : UpdHeader) : UpdPacket 0 := ⟨h, 0, Buffer.replicate 0 0⟩

theorem fits_iff_bare {n : Nat} {packet : UpdPacket n} {h : UpdHeader} (size8 : Nat)
    (hp : packet.toUpdHeader = h) : Fits packet size8 ↔ Fits (bare h) size8 := by
  subst hp
  exact Iff.rfl

theorem fits_speech : ∀ size1 ∈ [56, 144, 160, 192, 264, 328, 488, 640, 960, 1280, 1920, 2560],
    Fits (bare (speechHeader size1)) (size1 / 8) ↔ size1 ≠ 56 := by decide

theorem fits_sid : ∀ last : Uint8, Fits (bare (sidHeader last)) 6 ↔ last &&& 0x1F = 0x10 := by
  decide +kernel

/-- The decoder is driven with the frame received unless that is a 56-bit frame or a SID frame
whose last octet does not read as an update at the lowest rate. -/
theorem driven_iff {σ : Type} (fxns : UscFxns σ) (hrate : ChecksRate fxns) (s : σ)
    {evsDec : CodecDecData} (hi : evsDec.internal.isSome) (p tail : List Uint8)
    (hsize : IsPrimaryCompact (8 * p.length)) (htail : 2 ≤ tail.length)
    (scratch : UpdPacket mbIptPayloadSize16) {m : Nat} (linPcm : UpdPacket m) :
    Driven fxns s evsDec (handOver p tail scratch) linPcm p.length ↔
      8 * p.length ≠ 56 ∧ (8 * p.length = 48 → p.getD 5 0 &&& 0x1F = 0x10) := by
  obtain ⟨internal, hinternal⟩ := Option.isSome_iff_exists.1 hi
  by_cases h48 : 8 * p.length = 48
  · match p, show p.length = 6 by omega with
    | [a, b, c, d, e, f], _ =>
      have hheader := handOver_header_sid (a := a) (b := b) (c := c) (d := d) (e := e) (f := f)
        tail scratch htail
      have hform : (handOver [a, b, c, d, e, f] tail scratch).form = updEvsPrimaryMode :=
        congrArg UpdHeader.form hheader
      rw [driven_iff_fits fxns hrate s hinternal hform, fits_iff_bare _ hheader]
      simpa using fits_sid f
  · have hheader := handOver_header_speech tail scratch hsize h48
    have hform : (handOver p tail scratch).form = updEvsPrimaryMode :=
      congrArg UpdHeader.form hheader
    have hmem : 8 * p.length ∈ [56, 144, 160, 192, 264, 328, 488, 640, 960, 1280, 1920, 2560] := by
      simpa [IsPrimaryCompact, compactPrimaryOnlySizes, h48] using hsize
    have hfits := fits_speech _ hmem
    rw [Nat.mul_div_cancel_left _ (by decide)] at hfits
    rw [driven_iff_fits fxns hrate s hinternal hform, fits_iff_bare _ hheader, hfits]
    exact ⟨fun h => ⟨h, fun he => absurd he h48⟩, fun h => h.1⟩

def rateCodec : UscFxns Nat :=
  { countingCodec fun _ => uscNoError with
    control := fun s modes _ =>
      ⟨if modes.bitrate ∈ checkRateEvs then uscNoError else -1, (), s⟩ }

theorem rateCodec_checksRate : ChecksRate rateCodec := by
  intro s modes handle
  by_cases h : modes.bitrate ∈ checkRateEvs
  · simp [rateCodec, h]
  · simp [rateCodec, h, uscNoError]

theorem driven_iff_144 :
    Driven rateCodec 0 { internal := some ⟨0x1000, 0x2000, 0⟩ }
      (handOver (List.replicate 18 0) (List.replicate 1470 0) (UpdPacket.zero _))
      (UpdPacket.zero 480) 18 :=
  (driven_iff rateCodec rateCodec_checksRate 0 rfl (List.replicate 18 0) (List.replicate 1470 0)
    (by decide) (by rw [List.length_replicate]; decide) (UpdPacket.zero _)
    (UpdPacket.zero 480)).2 (by decide)

/-- A 56-bit frame is compact and reaches the decoder at 2400 instead of 2800. -/
theorem not_driven_56 :
    Call.Compact ⟨List.replicate 1488 0, 7⟩ ∧
      ¬ Driven rateCodec 0 { internal := some ⟨0x1000, 0x2000, 0⟩ }
        (handOver (List.replicate 7 0) (List.replicate 1481 0) (UpdPacket.zero _))
        (UpdPacket.zero 480) 7 := by
  have hheader := handOver_header_speech (p := List.replicate 7 0) (List.replicate 1481 0)
    (UpdPacket.zero _) (by decide) (by decide)
  have hform := congrArg UpdHeader.form hheader
  refine ⟨by decide, ?_⟩
  rw [driven_iff_fits rateCodec rateCodec_checksRate 0 rfl hform, fits_iff_bare _ hheader]
  decide

end RtpServer.Verify.FrameRates
