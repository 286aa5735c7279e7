import RtpServer.Source.EvsIngress

/-!
# The decoder and the converter, call by call

What one call of `m_evs_dec` and one of `m_src_down` does to the packets it is given,
stated once for the results about runs.
-/
namespace RtpServer.Verify.Decoder

open RtpServer.Library RtpServer.Source RtpServer.Source.TypeDef RtpServer.Source.Upd
open RtpServer.Source.Usc RtpServer.Source.EvsCodec RtpServer.Source.SampleRate

def pcm16Header : UpdHeader := ⟨updCodecPcm, updTypeSpeechGood, updModePcm20Ms, updFormPcmLinear16Khz⟩

def pcm08Header : UpdHeader := ⟨updCodecPcm, updTypeSpeechGood, updModePcm20Ms, updFormPcmLinear08Khz⟩

theorem pcm16Header_ok : is16KhzUpdPacketOk pcm16Header = true := by decide

theorem noData_not_ok {h : UpdHeader} (ht : h.type = updTypeNoData) :
    is16KhzUpdPacketOk h = false := by
  simp [is16KhzUpdPacketOk, ht]

section

variable {σ : Type} (fxns : UscFxns σ) {n m : Nat}

def packetBitrate (packet : UpdPacket n) : Int :=
  getEvsBitrate packet.form.toNat packet.mode.toNat

/-- The codec carries out both calls made for a packet. -/
def Accepts (s : σ) (handle : UscHandle) (packet : UpdPacket n) : Prop :=
  let control := fxns.control s (decModes (packetBitrate packet)) handle
  control.status = uscNoError ∧
    (fxns.decode control.next handle (decInBuf packet (packetBitrate packet))).status = uscNoError

def KnownForm (packet : UpdPacket n) : Prop :=
  packet.form = updEvsPrimaryMode ∨ packet.form = updEvsWbioMode

/-- The form that gets past the check of both modules. -/
theorem known_of_checked {form : BitVec 4}
    (h : ¬ (form ≠ updEvsPrimaryMode ∧ form ≠ updEvsWbioMode)) :
    form = updEvsPrimaryMode ∨ form = updEvsWbioMode := by
  rwa [not_and_or, not_not, not_not] at h

variable (s : σ) (evsDec : CodecDecData) (packet : UpdPacket n) (linPcm : UpdPacket m)

theorem mEvsDec_of_none (h : evsDec.internal = none) :
    mEvsDec fxns s evsDec (some packet) (some linPcm) =
      ⟨eMEvsUnexpectedNullPointer, evsDec, some linPcm, s⟩ := by
  simp only [mEvsDec, h]

/-- With one, a frame that is not decoded marks the PCM packet as holding no data, and a
decoded one gives it the header of a 20 ms frame. -/
theorem mEvsDec_of_some {internal : MInternalEvsDecData} (h : evsDec.internal = some internal) :
    ∃ extra p next ecode,
      mEvsDec fxns s evsDec (some packet) (some linPcm) =
        ⟨ecode, { evsDec with extraEcode := extra }, some p, next⟩ ∧
      (ecode = eaNoErrors ∧ p.toUpdHeader = pcm16Header ∧ KnownForm packet ∧
          Accepts fxns s internal.decHandle packet ∨
        ecode ≠ eaNoErrors ∧ p.type = updTypeNoData ∧
          ¬ (KnownForm packet ∧ Accepts fxns s internal.decHandle packet)) := by
  simp only [mEvsDec, h]
  split
  · rename_i hform
    refine ⟨_, _, _, _, rfl, Or.inr ⟨by decide, rfl, ?_⟩⟩
    rintro ⟨hp | hw, -⟩
    · exact hform.1 hp
    · exact hform.2 hw
  · rename_i hform
    have hknown : KnownForm packet := known_of_checked hform
    split
    · rename_i hcontrol
      exact ⟨_, _, _, _, rfl, Or.inr ⟨by decide, rfl, fun ha => hcontrol ha.2.1⟩⟩
    · rename_i hcontrol
      split
      · rename_i hdecode
        exact ⟨_, _, _, _, rfl, Or.inr ⟨by decide, rfl, fun ha => hdecode ha.2.2⟩⟩
      · rename_i hdecode
        exact ⟨_, _, _, _, rfl,
          Or.inl ⟨rfl, rfl, hknown, not_not.1 hcontrol, not_not.1 hdecode⟩⟩

/-- `m_evs_dec` succeeds exactly for a created decoder and a packet the codec accepts. -/
theorem mEvsDec_ok_iff :
    (mEvsDec fxns s evsDec (some packet) (some linPcm)).ecode = eaNoErrors ↔
      ∃ internal, evsDec.internal = some internal ∧ KnownForm packet ∧
        Accepts fxns s internal.decHandle packet := by
  cases h : evsDec.internal with
  | none =>
    rw [mEvsDec_of_none fxns s evsDec packet linPcm h]
    constructor
    · intro he
      exact absurd he (show eMEvsUnexpectedNullPointer ≠ eaNoErrors by decide)
    · intro hall
      obtain ⟨internal, hi, -⟩ := hall
      cases hi
  | some internal =>
    obtain ⟨extra, p, next, ecode, hr, hcase⟩ := mEvsDec_of_some fxns s evsDec packet linPcm h
    rw [hr]
    rcases hcase with ⟨hok, -, hknown, ha⟩ | ⟨hne, -, hna⟩
    · exact ⟨fun _ => ⟨internal, rfl, hknown, ha⟩, fun _ => hok⟩
    · constructor
      · intro hok
        exact absurd hok hne
      · intro hall
        obtain ⟨i, hi, hknown, ha⟩ := hall
        cases hi
        exact absurd ⟨hknown, ha⟩ hna

end

section

variable {n m : Nat} (master : MSrcDownData) (packetIn : UpdPacket n) (packetOut : UpdPacket m)

theorem mSrcDown_refused (h : is16KhzUpdPacketOk packetIn.toUpdHeader = false) :
    ∃ ecode extra,
      mSrcDown master (some packetIn) (some packetOut) =
        ⟨ecode, { master with extraEcode := extra }, some packetIn, some packetOut⟩ := by
  cases hi : master.internal with
  | none =>
    refine ⟨eMSrcNullPointer, master.extraEcode, ?_⟩
    rw [mSrcDown_of_none packetIn packetOut hi, ← hi]
  | some internal =>
    refine ⟨eMSrcDownUpdIn, (lUpdGenerateExtraEcode32 packetIn).1, ?_⟩
    rw [mSrcDown_of_not_ok packetIn packetOut hi h, ← hi]

theorem mSrcDown_accepted {internal : MSrcDownInternal} (hi : master.internal = some internal)
    (h : packetIn.toUpdHeader = pcm16Header) :
    mSrcDown master (some packetIn) (some packetOut) =
      ⟨eaNoErrors, ⟨0, some (downsample internal packetIn.payload.cells 160).1⟩, some packetIn,
        some { packetOut with
          toUpdHeader := pcm08Header
          payload := packetOut.payload.write 0
            (downsample internal packetIn.payload.cells 160).2 }⟩ := by
  have hok : is16KhzUpdPacketOk packetIn.toUpdHeader = true := by
    rw [h]
    exact pcm16Header_ok
  have hmode : packetIn.mode = updModePcm20Ms := congrArg UpdHeader.mode h
  have hsize : lUpdGetPcmSizeSamples updModePcm20Ms = 160 := by decide
  rw [mSrcDown_of_ok packetIn packetOut hi hok, hmode, hsize]
  rfl

end

/-- A codec whose state counts the frames given to `Decode`: everything succeeds but the
frames that `decodeStatus` refuses, and frame `i` is decoded into samples of value `i`. -/
def countingCodec (decodeStatus : Nat → UscStatus) : UscFxns Nat where
  getInfo s params := ⟨uscNoError, params, s⟩
  numAlloc s _ := ⟨uscNoError, evsNbufs, s⟩
  memAlloc s _ := ⟨uscNoError, 64, s⟩
  mallocInternal s := ⟨uscNoError, 0, s⟩
  mallocBank s _ := ⟨uscNoError, 0x1000, s⟩
  init s _ _ _ := ⟨uscNoError, 0x2000, s⟩
  control s _ _ := ⟨uscNoError, (), s⟩
  decode s _ _ := ⟨decodeStatus s, List.replicate 320 (BitVec.ofNat 16 s), s + 1⟩
  encode s _ _ := ⟨uscNoError, ⟨[], 0, 0⟩, s⟩

end RtpServer.Verify.Decoder
