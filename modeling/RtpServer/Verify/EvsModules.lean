import RtpServer.Verify.Decoder
import RtpServer.Verify.EvsOpening

/-!
# The codec modules over the EVS codec

One call of `m_evs_dec` in terms of the library's decoder object: at a known rate the object
gets its parameters and the frame, at any other rate nothing reaches it.
-/
namespace RtpServer.Verify.EvsModules

open RtpServer.Library RtpServer.Library.LittleEndian RtpServer.Source RtpServer.Source.TypeDef
open RtpServer.Source.Upd RtpServer.Source.Usc RtpServer.Source.EvsCodec RtpServer.Source.UscEvs
open RtpServer.Verify.Decoder

/-- The rate the decoder object is told, for each mode of a packet. -/
def primaryRates : List Int :=
  [2400, 7200, 8000, 9600, 13200, 16400, 24400, 32000, 48000, 64000, 96000, 128000]

def wbioRates : List Int := [6600, 8850, 12650, 14250, 15850, 18250, 19850, 23050, 23850]

def ratesOf (form : BitVec 4) : List Int :=
  if form = updEvsPrimaryMode then primaryRates else wbioRates

theorem ratesOf_known : ∀ form mode : BitVec 4,
    (form = updEvsPrimaryMode ∨ form = updEvsWbioMode) →
    let bitrate := getEvsBitrate form.toNat mode.toNat
    (¬ checkRateEvs bitrate < 0 ↔ mode.toNat < (ratesOf form).length) ∧
      (mode.toNat < (ratesOf form).length →
        (if bitrate = 5900 then 2400 else bitrate) = (ratesOf form).getD mode.toNat 0 ∧
          ¬ evsRate2EvsMode (if bitrate = 5900 then 2400 else bitrate) < 0) := by
  decide

section

variable {ε δ : Type} (lib : IntelEvs ε δ)

/-- The frame mark the codec gets for a packet. -/
def badFrame (h : UpdHeader) : Sint16 :=
  if h.type = updTypeNoData ∨ h.type = updTypeSpeechLost ∨ h.type = updTypeNotApplicable ∨
    h.type = updTypeSidFirst ∨ h.type = updTypeSpeechNoData ∨ h.type = updTypeSidNoData then 1 else 0

/-- What the library's decoder makes of one frame. -/
def execute (decoder : δ) (rate : Int) (bad : Sint16) (frame : List Uint8) : δ × List Uint16 :=
  lib.decoderExec (lib.decoderSetParams decoder
    { lib.decoderGetControl decoder with
      totalBrateFx := rate, bfiFx := bad, amrwbRfc4867Flag := 0, usePartialCopy := 0
      nextCoderType := 0, bitstreamformat := 0 }) frame

variable {n m : Nat}

theorem decInBuf_badFrame : ∀ type : BitVec 4,
    (if frameTypeUpdPacketToIpp
        (if type = updTypeSpeechNoData ∨ type = updTypeSidNoData then updTypeNoData else type) = -1
      then (1 : Sint16) else 0) =
      if type = updTypeNoData ∨ type = updTypeSpeechLost ∨ type = updTypeNotApplicable ∨
        type = updTypeSidFirst ∨ type = updTypeSpeechNoData ∨ type = updTypeSidNoData then 1 else 0 := by
  decide

/-- `Control` at a rate of the packet's codec mode leaves the decoder object alone. -/
theorem control_dec {obj : EvsObject ε δ} (hd : obj.header.direction = uscDecode) (bitrate : Int) :
    UscEvs.control lib (decModes bitrate) obj =
      if checkRateEvs bitrate < 0 then (uscUnsupportedBitRate, obj)
      else (uscNoError, { obj with header := { obj.header with
        trunc := 1, vad := 1, bitrate := bitrate, useParitalCopy := 0, nextCoderType := 0
        bitstreamformat := 0 } }) := by
  have hne : ¬ obj.header.direction = uscEncode := by rw [hd]; decide
  by_cases hrate : checkRateEvs bitrate < 0
  · have hstatus : modesStatus (decModes bitrate) = uscUnsupportedBitRate := if_pos hrate
    rw [UscEvs.control, hstatus, if_pos (by decide), if_pos hrate]
  · have hstatus : modesStatus (decModes bitrate) = uscNoError := if_neg hrate
    rw [UscEvs.control, hstatus, if_neg (not_not.2 rfl), if_neg hrate]
    dsimp only
    rw [if_neg hne, if_pos hd]
    rfl

theorem decode_dec {obj : EvsObject ε δ} (hd : obj.header.direction = uscDecode)
    (hcut : obj.header.useParitalCopy = 0) (hnext : obj.header.nextCoderType = 0)
    (hformat : obj.header.bitstreamformat = 0) {rate : Int} (hrate : ¬ evsRate2EvsMode rate < 0)
    (frametype : Int) (frame : List Uint8) :
    ∃ out, UscEvs.decode lib (some ⟨some frame, frametype, rate⟩) obj =
        (uscNoError,
          { obj with
            header := { obj.header with bitrate := rate }
            dec := (execute lib obj.dec rate (if frametype = -1 then 1 else 0) frame).1 },
          some out) ∧
      out.samples = (execute lib obj.dec rate (if frametype = -1 then 1 else 0) frame).2 := by
  have hstatus : decodeStatus (some ⟨some frame, frametype, rate⟩) obj = uscNoError := by
    rw [decodeStatus, if_neg (not_not.2 hd)]
    exact if_neg hrate
  have hcntrl : ∀ bad deCntrl, decodeCntrl { obj.header with bitrate := rate } rate bad deCntrl =
      { deCntrl with
        totalBrateFx := rate, bfiFx := bad, amrwbRfc4867Flag := 0, usePartialCopy := 0
        nextCoderType := 0, bitstreamformat := 0 } := by
    intro bad deCntrl
    simp only [decodeCntrl, hcut, hnext, hformat]
    rfl
  rw [UscEvs.decode, hstatus, if_neg (not_not.2 rfl)]
  simp only [decodeInput, hcntrl]
  exact ⟨_, rfl, rfl⟩

theorem store_store (s : EvsWorld ε δ) (block : UscHandle) (obj obj' : EvsObject ε δ) :
    (s.store block obj).store block obj' = s.store block obj' := by
  refine congrArg (fun memory => (⟨s.params, memory, s.blocks⟩ : EvsWorld ε δ))
    (funext fun h => ?_)
  change (if h = block then obj' else if h = block then obj else s.memory h) = _
  split <;> rfl

theorem store_memory (s : EvsWorld ε δ) (block : UscHandle) :
    s.store block (s.memory block) = s := by
  refine congrArg (fun memory => (⟨s.params, memory, s.blocks⟩ : EvsWorld ε δ))
    (funext fun h => ?_)
  split
  · next he => rw [he]
  · rfl

theorem store_self (s : EvsWorld ε δ) (block : UscHandle) (obj : EvsObject ε δ) :
    (s.store block obj).memory block = obj := if_pos rfl

variable (ipps : IppsMalloc) (s : EvsWorld ε δ) {evsDec : CodecDecData}
  {packet : UpdPacket n} (linPcm : UpdPacket m) {block numb : Nat}

/-- At a rate the codec does not know, nothing reaches the decoder object. -/
theorem mEvsDec_unknown (hi : evsDec.internal = some ⟨block, block, numb⟩) (hblock : block ≠ 0)
    (hd : (s.memory block).header.direction = uscDecode) (hform : KnownForm packet)
    (hmode : ¬ packet.mode.toNat < (ratesOf packet.form).length) :
    ∃ extra, mEvsDec (uscEvsFxns lib ipps) s evsDec (some packet) (some linPcm) =
      ⟨eMEvsDecControlProcessFailed, { evsDec with extraEcode := extra },
        some { linPcm with type := updTypeNoData }, s⟩ := by
  obtain ⟨hknown, -⟩ := ratesOf_known packet.form packet.mode hform
  have hrate : checkRateEvs (getEvsBitrate packet.form.toNat packet.mode.toNat) < 0 := by
    by_contra hne
    exact hmode (hknown.1 hne)
  have hcontrol : (uscEvsFxns lib ipps).control s
      (decModes (getEvsBitrate packet.form.toNat packet.mode.toNat)) block =
        ⟨uscUnsupportedBitRate, (), s⟩ := by
    simp only [uscEvsFxns, if_neg hblock, control_dec lib hd, if_pos hrate, store_memory]
  have hunknown : ¬ (packet.form ≠ updEvsPrimaryMode ∧ packet.form ≠ updEvsWbioMode) := fun h =>
    hform.elim h.1 h.2
  refine ⟨statusCode (getEvsBitrate packet.form.toNat packet.mode.toNat), ?_⟩
  simp only [mEvsDec, hi, if_neg hunknown, hcontrol]
  rfl

/-- At a known one it executes the frame, and its samples are written to the PCM packet. -/
theorem mEvsDec_known (hi : evsDec.internal = some ⟨block, block, numb⟩) (hblock : block ≠ 0)
    (hd : (s.memory block).header.direction = uscDecode) (hform : KnownForm packet)
    (hmode : packet.mode.toNat < (ratesOf packet.form).length) :
    let r := execute lib (s.memory block).dec ((ratesOf packet.form).getD packet.mode.toNat 0)
      (badFrame packet.toUpdHeader) (octets packet.payload.cells)
    ∃ obj, mEvsDec (uscEvsFxns lib ipps) s evsDec (some packet) (some linPcm) =
        ⟨eaNoErrors, { evsDec with extraEcode := eaNoErrors },
          some { linPcm with toUpdHeader := pcm16Header, payload := linPcm.payload.write 0 r.2 },
          s.store block obj⟩ ∧
      obj.header.direction = uscDecode ∧ obj.dec = r.1 := by
  intro r
  obtain ⟨hknown, hmodes⟩ := ratesOf_known packet.form packet.mode hform
  obtain ⟨hsent, hrate⟩ := hmodes hmode
  have hbitrate := hknown.2 hmode
  have hunknown : ¬ (packet.form ≠ updEvsPrimaryMode ∧ packet.form ≠ updEvsWbioMode) := fun h =>
    hform.elim h.1 h.2
  let controlled : EvsObject ε δ :=
    { s.memory block with header := { (s.memory block).header with
      trunc := 1, vad := 1, bitrate := getEvsBitrate packet.form.toNat packet.mode.toNat
      useParitalCopy := 0, nextCoderType := 0, bitstreamformat := 0 } }
  have hcontrol : (uscEvsFxns lib ipps).control s
      (decModes (getEvsBitrate packet.form.toNat packet.mode.toNat)) block =
        ⟨uscNoError, (), s.store block controlled⟩ := by
    simp only [uscEvsFxns, if_neg hblock, control_dec lib hd, if_neg hbitrate, controlled]
  let input := decInBuf packet (getEvsBitrate packet.form.toNat packet.mode.toNat)
  have hbad : (if input.frametype = -1 then (1 : Sint16) else 0) = badFrame packet.toUpdHeader :=
    decInBuf_badFrame packet.type
  obtain ⟨out, hdecode, hsamples⟩ := @decode_dec _ _ lib controlled hd rfl rfl rfl _ hrate
    input.frametype (octets packet.payload.cells)
  rw [hsent, hbad] at hdecode hsamples
  let obj : EvsObject ε δ :=
    { controlled with
      header := { controlled.header with bitrate := (ratesOf packet.form).getD packet.mode.toNat 0 }
      dec := r.1 }
  have hinput : (some ⟨some input.pBuffer, input.frametype, input.bitrate⟩ : Option EvsBitstream) =
      some ⟨some (octets packet.payload.cells), input.frametype,
        (ratesOf packet.form).getD packet.mode.toNat 0⟩ := by
    rw [← hsent]
    rfl
  have hexec : (uscEvsFxns lib ipps).decode (s.store block controlled) block input =
      ⟨uscNoError, r.2, s.store block obj⟩ := by
    simp only [uscEvsFxns, if_neg hblock, store_self, hinput, hdecode, store_store,
      Option.map_some, Option.getD_some, hsamples]
    rfl
  refine ⟨obj, ?_, hd, rfl⟩
  have hok : ¬ uscNoError ≠ uscNoError := not_not.2 rfl
  simp only [mEvsDec, hi, if_neg hunknown, hcontrol, if_neg hok]
  rw [hexec]
  rfl

end

end RtpServer.Verify.EvsModules
