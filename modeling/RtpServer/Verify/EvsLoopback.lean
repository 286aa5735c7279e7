import RtpServer.Verify.EncoderHeader
import RtpServer.Verify.EvsModules
import RtpServer.Verify.Serialiser

/-!
# From the encoder to the decoder

`m_evs_enc` and `m_evs_dec` over the EVS codec. The packet of an encoded frame holds the bits
of the indices, and the decoder object is given them back at the rate of the mode, unless the
frame is a SID frame or empty: then its packet names a mode that `m_evs_dec` refuses.
-/
namespace RtpServer.Verify.EvsLoopback

open RtpServer.Library RtpServer.Library.Bits RtpServer.Library.LittleEndian RtpServer.Source
open RtpServer.Source.TypeDef RtpServer.Source.Upd RtpServer.Source.Usc RtpServer.Source.EvsCodec
open RtpServer.Source.EvsSerial RtpServer.Source.UscEvs RtpServer.Verify.Decoder
open RtpServer.Verify.EncoderHeader RtpServer.Verify.EvsOpening RtpServer.Verify.EvsModules
open RtpServer.Verify.Serialiser
open RtpServer.Verify.EvsWrapper (silentLib blankObject)

section

variable {ε δ : Type} (lib : IntelEvs ε δ)

/-- What the library's encoder makes of 20 ms at 16 kHz. -/
def encodeFrame (encoder : ε) (modes : UscModes) (pcm : List Uint8) :
    ε × Buffer IndiceFx maxNumIndices :=
  let encoder := lib.encoderSetParams encoder
    { encoderCntrlOf modes (lib.encoderGetControl encoder) with
      intervalSidFx := toWord16 1, brateBwUpdate := evsUpdateBrate ||| evsUpdateBwidth }
  let encoder := lib.encoderSetParams encoder
    { lib.encoderGetControl encoder with totalBrateFx := modes.bitrate }
  lib.encoderExec encoder pcm 320

/-- The rate the encoder is told. -/
def encRate (evsEnc : CodecEncData) : Int := getEvsBitrate evsEnc.evsMode.toNat evsEnc.mode

theorem encRate_known : ∀ evsMode : BitVec 4,
    (evsMode = updEvsPrimaryMode ∨ evsMode = updEvsWbioMode) →
    ∀ mode < numberOfEvsModes evsMode, ¬ checkRateEvs (getEvsBitrate evsMode.toNat mode) < 0 := by
  decide

theorem checkVad_dtx : ∀ dtxEnabled : BitVec 1, checkVad dtxEnabled.toNat = true := by decide

variable {evsEnc : CodecEncData} {info : MInternalEvsEncData}

/-- Of the modes set by `m_evs_enc`, as far as `Control` looks at them. -/
theorem encModes_status (hform : evsEnc.evsMode = updEvsPrimaryMode ∨ evsEnc.evsMode = updEvsWbioMode)
    (hmode : evsEnc.mode < numberOfEvsModes evsEnc.evsMode) :
    modesStatus (encModes evsEnc info (encRate evsEnc)) = uscNoError := by
  have hvad : checkVad (encModes evsEnc info (encRate evsEnc)).vad = true :=
    checkVad_dtx evsEnc.dtxEnabled
  rw [modesStatus, hvad]
  exact if_neg (encRate_known _ hform _ hmode)

theorem control_enc {obj : EvsObject ε δ} (hd : obj.header.direction = uscEncode)
    (hform : evsEnc.evsMode = updEvsPrimaryMode ∨ evsEnc.evsMode = updEvsWbioMode)
    (hmode : evsEnc.mode < numberOfEvsModes evsEnc.evsMode) :
    let modes := encModes evsEnc info (encRate evsEnc)
    UscEvs.control lib modes obj =
      (uscNoError, { obj with
        header := { obj.header with trunc := 1, vad := modes.vad, bitrate := encRate evsEnc }
        enc := lib.encoderSetParams obj.enc
          { encoderCntrlOf modes (lib.encoderGetControl obj.enc) with
            intervalSidFx := toWord16 1, brateBwUpdate := evsUpdateBrate ||| evsUpdateBwidth } }) := by
  intro modes
  have hstatus : modesStatus modes = uscNoError := encModes_status hform hmode
  rw [UscEvs.control, if_neg (not_not.2 hstatus)]
  dsimp only
  rw [if_pos hd]
  rfl

/-- The bits of an encoded frame. -/
def frameBits (indList : Buffer IndiceFx maxNumIndices) : List Bool := serialBits indList.cells

/-- The indices fit a frame: their sizes can be shifted by, and there is room for them. -/
structure FitsFrame (indList : Buffer IndiceFx maxNumIndices) (size8 : Nat) : Prop where
  sizes : ∀ ind ∈ indList.cells, WellSized ind
  room : (frameBits indList).length ≤ 8 * size8

variable {indList : Buffer IndiceFx maxNumIndices}

theorem serialised (hfit : FitsFrame indList maxFrameSize8) :
    (evsIndicesToSerialGeneric indList.cells maxNumIndices (List.replicate maxFrameSize8 0) 0) =
      some (putBits (List.replicate maxFrameSize8 0) 0 (frameBits indList),
        BitVec.ofNat 16 (frameBits indList).length) := by
  have htake : indList.cells.take maxNumIndices = indList.cells :=
    List.take_of_length_le (Nat.le_of_eq indList.size_eq)
  have hsizes := hfit.sizes
  have hroom := hfit.room
  rw [← htake] at hsizes
  have heq := @evsIndicesToSerialGeneric_eq indList.cells maxNumIndices
    (Nat.le_of_eq indList.size_eq.symm) hsizes (List.replicate maxFrameSize8 0) 0 0 rfl (by
      rw [htake, List.length_replicate, Nat.zero_add]
      exact hroom)
  rw [htake] at heq
  exact heq.trans (congrArg (fun size => some (_, size)) (BitVec.zero_add _))

theorem encode_enc {obj : EvsObject ε δ} (hd : obj.header.direction = uscEncode)
    {input : UscPcmStream} (hrate : ¬ checkRateEvs input.bitrate < 0) (hbytes : input.nbytes = 640)
    (hfit : FitsFrame (lib.encoderExec (lib.encoderSetParams obj.enc
      { lib.encoderGetControl obj.enc with totalBrateFx := input.bitrate }) input.pBuffer 320).2
        maxFrameSize8) :
    let r := lib.encoderExec (lib.encoderSetParams obj.enc
      { lib.encoderGetControl obj.enc with totalBrateFx := input.bitrate }) input.pBuffer 320
    let size1 := (frameBits r.2).length
    UscEvs.encode lib input encPcmType (List.replicate maxFrameSize8 0) obj =
      some (uscNoError,
        { obj with header := { obj.header with bitrate := input.bitrate }, enc := r.1 },
        some ⟨putBits (List.replicate maxFrameSize8 0) 0 (frameBits r.2),
          ((size1 : Int) + 7) / 8, (size1 : Int) * 50⟩) := by
  intro r size1
  have hstatus : encodeStatus input encPcmType obj = uscNoError := by
    rw [encodeStatus, if_neg (by decide), if_neg (not_not.2 hd), if_neg hrate]
  have hsamples : toWord16 ((input.nbytes : Int) / 2) = 320 := by
    rw [hbytes]
    rfl
  have hsize : (BitVec.ofNat 16 size1).toInt = (size1 : Int) := by
    have hroom : size1 ≤ 8 * maxFrameSize8 := hfit.room
    have hmax : 8 * maxFrameSize8 < 32768 := by decide
    rw [BitVec.toInt_ofNat', Int.bmod_eq_of_le (by omega) (by omega)]
  rw [UscEvs.encode, if_neg (not_not.2 hstatus), hsamples]
  dsimp only
  rw [serialised hfit, Option.map_some, hsize]

/-- Octets written to the start of a packet, and what they hold is held by the packet. -/
theorem payload_holds {m : Nat} (payload : Buffer Uint16 m) {frame : List Uint8}
    {bits : List Bool} {n : Nat} (hholds : Holds frame bits) (hn : bits.length ≤ 8 * n)
    (hframe : n ≤ frame.length) (hroom : n ≤ 2 * m) :
    Holds (octets (payload.write 0
      (words (Buffer.blit (octets payload.cells) 0 (frame.take n)))).cells) bits := by
  have hold : (octets payload.cells).length = 2 * m := by rw [length_octets, payload.size_eq]
  have htake : (frame.take n).length = n := by rw [List.length_take, Nat.min_eq_left hframe]
  have hlen : (Buffer.blit (octets payload.cells) 0 (frame.take n)).length = 2 * m := by
    rw [Buffer.length_blit, hold]
  rw [Buffer.write_cells, Buffer.blit_zero_of_length_eq _ (by
    rw [length_words, hlen, payload.size_eq]
    omega), octets_words _ (by omega), Buffer.blit_zero_of_fits _ (by omega)]
  exact hholds.take_append hn hframe _

variable (ipps : IppsMalloc) (s : EvsWorld ε δ) {n m k : Nat} {linPcm : UpdPacket n}
  (outCodec : UpdPacket m)

/-- The frame made for the current call of `m_evs_enc`. -/
def currentFrame (evsEnc : CodecEncData) (info : MInternalEvsEncData) (linPcm : UpdPacket n) :
    ε × Buffer IndiceFx maxNumIndices :=
  encodeFrame lib (s.memory info.encHandle).enc (encModes evsEnc info (encRate evsEnc))
    (octets linPcm.payload.cells)

/-- An encoder that `m_evs_enc` can be called on: it was created, and a mode is set. -/
structure ReadyEncoder (evsEnc : CodecEncData) (info : MInternalEvsEncData) : Prop where
  internal : evsEnc.internal = some info
  handle : info.encHandle ≠ 0
  direction : (s.memory info.encHandle).header.direction = uscEncode
  form : evsEnc.evsMode = updEvsPrimaryMode ∨ evsEnc.evsMode = updEvsWbioMode
  mode : evsEnc.mode < numberOfEvsModes evsEnc.evsMode

/-- A frame of 20 ms is encoded: the packet holds its bits behind the header made for them. -/
theorem mEvsEnc_encodes (h : ReadyEncoder s evsEnc info) (hpcm : linPcm.toUpdHeader = pcm16Header)
    (hfit : FitsFrame (currentFrame lib s evsEnc info linPcm).2 maxFrameSize8)
    (hroom : (frameBits (currentFrame lib s evsEnc info linPcm).2).length ≤ 16 * m) :
    let frame := currentFrame lib s evsEnc info linPcm
    ∃ p obj, mEvsEnc (uscEvsFxns lib ipps) s evsEnc (some linPcm) (some outCodec) =
        ⟨eaNoErrors, evsEnc, some p, s.store info.encHandle obj⟩ ∧
      obj.header.direction = uscEncode ∧ obj.enc = frame.1 ∧
      p.toUpdHeader = encHeader evsEnc.evsMode evsEnc.mode (50 * (frameBits frame.2).length) ∧
      Holds (octets p.payload.cells) (frameBits frame.2) := by
  intro frame
  have hform : ¬ (evsEnc.evsMode ≠ updEvsPrimaryMode ∧ evsEnc.evsMode ≠ updEvsWbioMode) :=
    fun hne => h.form.elim hne.1 hne.2
  have hmode : ¬ numberOfEvsModes evsEnc.evsMode ≤ evsEnc.mode := Nat.not_le.2 h.mode
  let modes := encModes evsEnc info (encRate evsEnc)
  let controlled : EvsObject ε δ :=
    { s.memory info.encHandle with
      header := { (s.memory info.encHandle).header with
        trunc := 1, vad := modes.vad, bitrate := encRate evsEnc }
      enc := lib.encoderSetParams (s.memory info.encHandle).enc
        { encoderCntrlOf modes (lib.encoderGetControl (s.memory info.encHandle).enc) with
          intervalSidFx := toWord16 1, brateBwUpdate := evsUpdateBrate ||| evsUpdateBwidth } }
  have hcontrol : (uscEvsFxns lib ipps).control s modes info.encHandle =
      ⟨uscNoError, (), s.store info.encHandle controlled⟩ := by
    simp only [uscEvsFxns, if_neg h.handle]
    rw [control_enc lib h.direction h.form h.mode]
  let input : UscPcmStream :=
    { pBuffer := octets linPcm.payload.cells
      nbytes := size1To8 (lUpdGetPayloadSize1 linPcm.toUpdHeader)
      bitrate := encRate evsEnc }
  have hbytes : input.nbytes = 640 := by
    change size1To8 (lUpdGetPayloadSize1 linPcm.toUpdHeader) = 640
    rw [hpcm]
    decide
  have hencode := @encode_enc _ _ lib controlled h.direction input
    (encRate_known _ h.form _ h.mode) hbytes hfit
  let obj : EvsObject ε δ :=
    { controlled with
      header := { controlled.header with bitrate := encRate evsEnc }
      enc := frame.1 }
  let size1 := (frameBits frame.2).length
  let octets8 := putBits (List.replicate maxFrameSize8 (0 : Uint8)) 0 (frameBits frame.2)
  have hexec : (uscEvsFxns lib ipps).encode (s.store info.encHandle controlled) info.encHandle
      input = ⟨uscNoError, ⟨octets8.take ((size1 + 7) / 8), (size1 + 7) / 8, (size1 : Int) * 50⟩,
        s.store info.encHandle obj⟩ := by
    have hnat : (((size1 : Int) + 7) / 8).toNat = (size1 + 7) / 8 := by omega
    simp only [uscEvsFxns, if_neg h.handle, store_self, hencode, store_store]
    exact congrArg (fun k => (⟨uscNoError, ⟨octets8.take k, k, (size1 : Int) * 50⟩,
      s.store info.encHandle obj⟩ : Answer (EvsWorld ε δ) UscEncoded)) hnat
  let p : UpdPacket m :=
    { outCodec with
      toUpdHeader := encHeader evsEnc.evsMode evsEnc.mode (50 * (size1 : Int))
      payload := outCodec.payload.write 0 (words
        (Buffer.blit (octets outCodec.payload.cells) 0 (octets8.take ((size1 + 7) / 8)))) }
  have hholds : Holds octets8 (frameBits frame.2) :=
    (Holds.nil (List.replicate maxFrameSize8 (0 : Uint8))).append (by decide) (by
      rw [List.length_replicate, List.length_nil, Nat.zero_add]
      exact hfit.room)
  refine ⟨p, obj, ?_, h.direction, rfl, rfl, ?_⟩
  · have hok : ¬ uscNoError ≠ uscNoError := not_not.2 rfl
    simp only [modes, encRate] at hcontrol
    simp only [input, encRate] at hexec
    simp only [mEvsEnc, h.internal, if_neg hform, if_neg hmode, hcontrol, hexec, if_neg hok,
      Int.mul_comm (size1 : Int) 50]
    rfl
  · have hfits : (size1 + 7) / 8 ≤ octets8.length := by
      have hsize : size1 ≤ 8 * maxFrameSize8 := hfit.room
      rw [length_putBits, List.length_replicate]
      omega
    have hsize : size1 ≤ 16 * m := hroom
    exact payload_holds outCodec.payload hholds (by omega) hfits (by omega)

theorem encHeader_frame {evsMode : BitVec 4} {mode : Nat}
    (h : evsMode = updEvsPrimaryMode ∨ evsMode = updEvsWbioMode)
    (hmode : mode < numberOfEvsModes evsMode) {size1 : Nat} (h48 : size1 ≠ 48) (h0 : size1 ≠ 0) :
    (encHeader evsMode mode (50 * (size1 : Int))).mode.toNat = mode ∧
      mode < (ratesOf evsMode).length ∧
      badFrame (encHeader evsMode mode (50 * (size1 : Int))) = 0 := by
  have h2400 : ¬ 50 * (size1 : Int) = 2400 := by omega
  have hzero : ¬ 50 * (size1 : Int) = 0 := by omega
  have hheader : encHeader evsMode mode (50 * (size1 : Int)) =
      ⟨updCodecEvs, updTypeSpeechGood, BitVec.ofNat 4 mode, evsMode⟩ := by
    simp only [encHeader, encFrametypeMode, if_neg h2400, if_neg hzero]
    rfl
  have hlength : (ratesOf evsMode).length = numberOfEvsModes evsMode ∧
      numberOfEvsModes evsMode ≤ 16 := by
    rcases h with rfl | rfl
    · exact ⟨rfl, by decide⟩
    · exact ⟨rfl, by decide⟩
  rw [hheader]
  exact ⟨Nat.mod_eq_of_lt (by omega), by omega, if_neg (show ¬ (updTypeSpeechGood = updTypeNoData ∨
    updTypeSpeechGood = updTypeSpeechLost ∨ updTypeSpeechGood = updTypeNotApplicable ∨
    updTypeSpeechGood = updTypeSidFirst ∨ updTypeSpeechGood = updTypeSpeechNoData ∨
    updTypeSpeechGood = updTypeSidNoData) by decide)⟩

/-- A SID or an empty frame gets a mode for which there is no rate. -/
theorem encHeader_noFrame {evsMode : BitVec 4} (mode : Nat)
    (h : evsMode = updEvsPrimaryMode ∨ evsMode = updEvsWbioMode) {size1 : Nat}
    (hsize : size1 = 48 ∨ size1 = 0) :
    ¬ (encHeader evsMode mode (50 * (size1 : Int))).mode.toNat < (ratesOf evsMode).length := by
  have hmode : (encHeader evsMode mode (50 * (size1 : Int))).mode = 12 := by
    rcases hsize with rfl | rfl <;> rfl
  rw [hmode]
  rcases h with rfl | rfl <;> decide

variable {evsDec : CodecDecData} {block numb : Nat} (linOut : UpdPacket k)

/-- A frame encoded by one module and decoded by the other. The packet holds the bits of the
encoder's indices, and the decoder object executes its octets, at the encoder's rate or at 2400
in place of 5900, unless the frame has the size of a SID frame or is empty. Then it executes
nothing. -/
theorem loopback (henc : ReadyEncoder s evsEnc info) (hpcm : linPcm.toUpdHeader = pcm16Header)
    (hfit : FitsFrame (currentFrame lib s evsEnc info linPcm).2 maxFrameSize8)
    (hroom : (frameBits (currentFrame lib s evsEnc info linPcm).2).length ≤ 16 * m)
    (hi : evsDec.internal = some ⟨block, block, numb⟩) (hblock : block ≠ 0)
    (hother : block ≠ info.encHandle)
    (hd : (s.memory block).header.direction = uscDecode) :
    let bits := frameBits (currentFrame lib s evsEnc info linPcm).2
    ∃ p next, mEvsEnc (uscEvsFxns lib ipps) s evsEnc (some linPcm) (some outCodec) =
        ⟨eaNoErrors, evsEnc, some p, next⟩ ∧
      Holds (octets p.payload.cells) bits ∧
      let answer := mEvsDec (uscEvsFxns lib ipps) next evsDec (some p) (some linOut)
      (bits.length = 48 ∨ bits.length = 0 →
        answer.ecode = eMEvsDecControlProcessFailed ∧ answer.next = next) ∧
      (bits.length ≠ 48 ∧ bits.length ≠ 0 → answer.ecode = eaNoErrors ∧
        let rate := if encRate evsEnc = 5900 then 2400 else encRate evsEnc
        let decoded := execute lib (s.memory block).dec rate 0 (octets p.payload.cells)
        (answer.next.memory block).dec = decoded.1 ∧
          answer.linPcm = some { linOut with
            toUpdHeader := pcm16Header, payload := linOut.payload.write 0 decoded.2 }) := by
  intro bits
  obtain ⟨p, obj, hr, -, -, hheader, hholds⟩ :=
    mEvsEnc_encodes lib ipps s outCodec henc hpcm hfit hroom
  refine ⟨p, _, hr, hholds, ?_⟩
  intro answer
  have hmemory : (s.store info.encHandle obj).memory block = s.memory block := if_neg hother
  have hd' : ((s.store info.encHandle obj).memory block).header.direction = uscDecode := by
    rw [hmemory]
    exact hd
  have hformEq : p.form = evsEnc.evsMode := congrArg UpdHeader.form hheader
  have hmodeEq : p.mode = (encHeader evsEnc.evsMode evsEnc.mode (50 * (bits.length : Int))).mode :=
    congrArg UpdHeader.mode hheader
  have hform : KnownForm p := by
    rw [KnownForm, hformEq]
    exact henc.form
  constructor
  · intro hsize
    have hunknown : ¬ p.mode.toNat < (ratesOf p.form).length := by
      rw [hmodeEq, hformEq]
      exact encHeader_noFrame evsEnc.mode henc.form hsize
    obtain ⟨extra, hdec⟩ := mEvsDec_unknown lib ipps _ linOut hi hblock hd' hform hunknown
    have hanswer : answer = _ := hdec
    rw [hanswer]
    exact ⟨rfl, rfl⟩
  · rintro ⟨h48, h0⟩
    obtain ⟨hmode, hknown, hbad⟩ := encHeader_frame henc.form henc.mode h48 h0
    have hlt : p.mode.toNat < (ratesOf p.form).length := by
      rw [hmodeEq, hformEq, hmode]
      exact hknown
    have hrate : (ratesOf p.form).getD p.mode.toNat 0 =
        if encRate evsEnc = 5900 then 2400 else encRate evsEnc := by
      rw [← ((ratesOf_known p.form p.mode hform).2 hlt).1, hmodeEq, hformEq, hmode, encRate]
    obtain ⟨next, hdec, -, hobj⟩ := mEvsDec_known lib ipps _ linOut hi hblock hd' hform hlt
    have hanswer : answer = _ := hdec
    rw [hrate, hheader, hbad, hmemory] at hanswer hobj
    rw [hanswer]
    refine ⟨rfl, ?_, rfl⟩
    rw [store_self]
    exact hobj

end

def pulseFrame : Buffer IndiceFx maxNumIndices where
  cells := ⟨0x1234, 16⟩ :: List.replicate 1952 ⟨0, -1⟩
  size_eq := by
    rw [List.length_cons, List.length_replicate]
    rfl

def pulseLib : IntelEvs Unit Unit := { silentLib with encoderExec := fun _ _ _ => ((), pulseFrame) }

theorem serialBits_unused (n : Nat) : serialBits (List.replicate n ⟨0, -1⟩) = [] := by
  induction n with
  | zero => rfl
  | succ n ih => rw [List.replicate_succ, serialBits, if_neg (by decide), ih, List.nil_append]

theorem pulseFrame_bits : frameBits pulseFrame = msbBits 0x1234 16 := by
  change serialBits (⟨0x1234, 16⟩ :: List.replicate 1952 ⟨0, -1⟩) = _
  rw [serialBits, if_pos (by decide), serialBits_unused, List.append_nil]
  rfl

theorem pulseFrame_fits : FitsFrame pulseFrame maxFrameSize8 where
  sizes ind hind := by
    rcases List.mem_cons.1 hind with rfl | hunused
    · decide
    · rw [List.eq_of_mem_replicate hunused]
      decide
  room := by
    rw [pulseFrame_bits, length_msbBits]
    decide

/-- An encoder at one address, decoders at all others. -/
def twoModules : EvsWorld Unit Unit where
  params := {}
  memory h := { blankObject with
    header := { blankObject.header with direction := if h = 4096 then uscEncode else uscDecode } }
  blocks := 0

def encoderInfo (evsMode : BitVec 4) (mode : Nat) : CodecEncData :=
  { internal := some ⟨4096, 4096, {}⟩, evsMode, mode }

def pcm20Ms : UpdPacket 480 := { UpdPacket.zero 480 with toUpdHeader := pcm16Header }

theorem loopback_pulse :
    let encoder := encoderInfo updEvsPrimaryMode 4
    let bits := frameBits (currentFrame pulseLib twoModules encoder ⟨4096, 4096, {}⟩
      pcm20Ms).2
    ∃ p next, mEvsEnc (uscEvsFxns pulseLib spacious) twoModules encoder (some pcm20Ms)
        (some (UpdPacket.zero 160)) = ⟨eaNoErrors, encoder, some p, next⟩ ∧
      Holds (octets p.payload.cells) bits ∧
      let answer := mEvsDec (uscEvsFxns pulseLib spacious) next
        { internal := some ⟨8192, 8192, 0⟩ } (some p) (some (UpdPacket.zero 480))
      (bits.length = 48 ∨ bits.length = 0 →
        answer.ecode = eMEvsDecControlProcessFailed ∧ answer.next = next) ∧
      (bits.length ≠ 48 ∧ bits.length ≠ 0 → answer.ecode = eaNoErrors ∧
        let decoded := execute pulseLib () 13200 0 (octets p.payload.cells)
        (answer.next.memory 8192).dec = decoded.1 ∧
          answer.linPcm = some { UpdPacket.zero 480 with
            toUpdHeader := pcm16Header
            payload := (UpdPacket.zero 480).payload.write 0 decoded.2 }) := by
  have henc : ReadyEncoder twoModules (encoderInfo updEvsPrimaryMode 4) ⟨4096, 4096, {}⟩ :=
    ⟨rfl, by decide, rfl, Or.inl rfl, by decide⟩
  exact loopback pulseLib spacious twoModules (UpdPacket.zero 160) (UpdPacket.zero 480) henc rfl
    pulseFrame_fits (show (frameBits pulseFrame).length ≤ 16 * 160 by
      rw [pulseFrame_bits, length_msbBits]
      decide) rfl (by decide) (by decide) rfl

end RtpServer.Verify.EvsLoopback
