import RtpServer.Source.FirFilter
import RtpServer.Source.Mgw
import RtpServer.Source.Upd

/-!
# Sample rate converter (`m_src.c`)

The filter tables and both directions. The filter scratch of the source is written
before it is read in every call, so it is local here; the delay line is the only state
kept between calls. The two packets of a call are different ones.
-/
namespace RtpServer.Source.SampleRate

open RtpServer.Library RtpServer.Source.TypeDef RtpServer.Source.Mgw RtpServer.Source.Upd
open RtpServer.Source.FirFilter

abbrev filterLengthTaps : Nat := 72
abbrev delayBufUpSize16 : Nat := filterLengthTaps / 2 - 1
abbrev delayBufDownSize16 : Nat := filterLengthTaps - 1
def scalingBits : Nat := 2

/-- `COEFF_INT`, symmetric, for interpolation. -/
def coeffInt : List Sint16 :=
  [-14, -54, -38, 56, 86, -42,
   -141, 3, 196, 67, -240, -171,
   258, 307, -234, -469, 151, 643,
   8, -810, -258, 943, 612, -1008,
   -1085, 962, 1696, -741, -2495, 233,
   3616, 842, -5551, -3624, 11544, 27472,
   27472, 11544, -3624, -5551, 842, 3616,
   233, -2495, -741, 1696, 962, -1085,
   -1008, 612, 943, -258, -810, 8,
   643, 151, -469, -234, 307, 258,
   -171, -240, 67, 196, 3, -141,
   -42, 86, 56, -38, -54, -14]

/-- `COEFF_DEC`, symmetric, for decimation. -/
def coeffDec : List Sint16 :=
  [-7, -27, -19, 28, 43, -21,
   -71, 1, 98, 33, -120, -85,
   129, 153, -117, -234, 76, 322,
   4, -405, -129, 472, 306, -504,
   -542, 481, 848, -371, -1248, 117,
   1808, 421, -2776, -1812, 5772, 13736,
   13736, 5772, -1812, -2776, 421, 1808,
   117, -1248, -371, 848, 481, -542,
   -504, 306, 472, -129, -405, 4,
   322, 76, -234, -117, 153, 129,
   -85, -120, 33, 98, 1, -71,
   -21, 43, 28, -19, -27, -7]

inductive CoeffTable where
  | interpolation
  | decimation
  deriving DecidableEq

def CoeffTable.coeffs : CoeffTable → List Sint16
  | .interpolation => coeffInt
  | .decimation => coeffDec

def mSrcSevere : Ecode := severeMask 0x044
def eMSrcNullPointer : Ecode := mSrcSevere ||| errorCInternal ||| 0x002
def eMSrcUpUpdIn : Ecode := mSrcSevere ||| errorCInternal ||| 0x005
def eMSrcDownUpdIn : Ecode := mSrcSevere ||| errorCInternal ||| 0x006

def size8KhzTo16Khz (size8Khz : Nat) : Nat := 2 * size8Khz

/-- A shift of the `int` that the sample is promoted to, stored back in 16 bits. -/
def shl (a : Sint16) (b : Nat) : Sint16 := ((a.signExtend 32) <<< b).setWidth 16

def shr (a : Sint16) (b : Nat) : Sint16 := ((a.signExtend 32).sshiftRight b).setWidth 16

/-- `upscale`; nothing saturates what the shift pushes out. -/
def upscale (inbuf : List Sint16) : List Sint16 := inbuf.map fun s => shl s scalingBits

/-- `downscale`, which drops the two lowest bits of every sample. -/
def downscale (buf : List Sint16) : List Sint16 := buf.map fun s => shr s scalingBits

/-- `m_src_down_internal` without the scratch pointer. -/
structure MSrcDownInternal where
  delaybuffer : Buffer Sint16 delayBufDownSize16

/-- `m_src_down_data` without the packet pointers, which `mSrcDown` takes as arguments. -/
structure MSrcDownData where
  extraEcode : Uint32
  internal : Option MSrcDownInternal

/-- `m_src_down_init`; `allocated` is what `malloc` left in the delay line. -/
def mSrcDownInit (master : MSrcDownData) (allocated : Buffer Sint16 delayBufDownSize16) :
    Ecode × MSrcDownData :=
  (eaNoErrors, { master with internal := some ⟨allocated⟩ })

def headerWord (h : UpdHeader) : Uint16 := (h.codec ++ h.type ++ h.mode ++ h.form : BitVec 16)

def headerOfWord (w : Uint16) : UpdHeader where
  codec := w.extractLsb' 12 4
  type := w.extractLsb' 8 4
  mode := w.extractLsb' 4 4
  form := w.extractLsb' 0 4

/-- `l_upd_generate_extra_ecode_32`, statement by statement: the header word is swapped in place,
read together with the padding word, and swapped back. The source writes it as a `uint16` and
reads it as a `uint32`, which C does not let alias: the `-O2` build of the Makefile may read the
header before it is swapped, and then the code has its first two octets the other way round. The
header comes back as it was in either case. -/
def lUpdGenerateExtraEcode32 {n : Nat} (p : UpdPacket n) : Uint32 × UpdPacket n :=
  let swapped := natToBe16 (headerWord p.toUpdHeader)
  let extraEcode := natToBe32 (p.padding ++ swapped : BitVec 32)
  (extraEcode, { p with toUpdHeader := headerOfWord (beToNat16 swapped) })

def is16KhzUpdPacketOk (h : UpdHeader) : Bool :=
  h.codec = updCodecPcm && h.type = updTypeSpeechGood &&
    (h.mode = updModePcm05Ms || h.mode = updModePcm10Ms || h.mode = updModePcm20Ms ||
      h.mode = updModePcm30Ms) &&
    h.form = updFormPcmLinear16Khz

structure MSrcDownResult (n m : Nat) where
  ecode : Ecode
  master : MSrcDownData
  updIn : Option (UpdPacket n)
  updOut : Option (UpdPacket m)

/-- The new delay line and the 8 kHz samples for one accepted frame of `size` output samples. -/
def downsample (internal : MSrcDownInternal) (payloadIn : List Sint16) (size : Nat) :
    MSrcDownInternal × List Sint16 :=
  let new16Khz := size8KhzTo16Khz size
  let dline := downscale (internal.delaybuffer.cells ++ payloadIn.take new16Khz)
  let delaybuffer := internal.delaybuffer.write 0
    ((payloadIn.drop (new16Khz - delayBufDownSize16)).take delayBufDownSize16)
  let outvec := firBlk4 dline new16Khz filterLengthTaps coeffDec 0
  (⟨delaybuffer⟩, upscale ((List.range size).map fun i => outvec.getD (2 * i) 0))

/-- `m_src_down`: 16 kHz to 8 kHz. A packet with another header is refused and changes nothing but
the extra error code. -/
def mSrcDown {n m : Nat} (master : MSrcDownData) (updIn : Option (UpdPacket n))
    (updOut : Option (UpdPacket m)) : MSrcDownResult n m :=
  match master.internal, updIn, updOut with
  | some internal, some packetIn, some packetOut =>
    if is16KhzUpdPacketOk packetIn.toUpdHeader then
      let size := lUpdGetPcmSizeSamples packetIn.mode
      let (internal, payloadOut) := downsample internal packetIn.payload.cells size
      { ecode := eaNoErrors
        master := ⟨0, some internal⟩
        updIn := updIn
        updOut := some { packetOut with
          codec := updCodecPcm
          type := updTypeSpeechGood
          mode := packetIn.mode
          form := updFormPcmLinear08Khz
          payload := packetOut.payload.write 0 payloadOut } }
    else
      let (extraEcode, packetIn) := lUpdGenerateExtraEcode32 packetIn
      { ecode := eMSrcDownUpdIn
        master := { master with extraEcode := extraEcode }
        updIn := some packetIn
        updOut := updOut }
  | _, _, _ => ⟨eMSrcNullPointer, master, updIn, updOut⟩

structure MSrcUpInternal where
  delaybuffer : Buffer Sint16 delayBufUpSize16

structure MSrcUpData where
  extraEcode : Uint32
  internal : Option MSrcUpInternal

/-- `m_src_up_init`; `allocated` is what `malloc` left in the delay line. -/
def mSrcUpInit (master : MSrcUpData) (allocated : Buffer Sint16 delayBufUpSize16) :
    Ecode × MSrcUpData :=
  (eaNoErrors, { master with internal := some ⟨allocated⟩ })

def is8KhzUpdPacketOk (h : UpdHeader) : Bool :=
  h.codec = updCodecPcm && h.type = updTypeSpeechGood &&
    (h.mode = updModePcm05Ms || h.mode = updModePcm10Ms || h.mode = updModePcm20Ms ||
      h.mode = updModePcm30Ms) &&
    h.form = updFormPcmLinear08Khz

structure MSrcUpResult (n m : Nat) where
  ecode : Ecode
  master : MSrcUpData
  updIn : Option (UpdPacket n)
  updOut : Option (UpdPacket m)

/-- The new delay line and the 16 kHz samples; `payloadIn` is already scaled down. -/
def upsample (internal : MSrcUpInternal) (payloadIn : List Sint16) (size : Nat) :
    MSrcUpInternal × List Sint16 :=
  let dline := (internal.delaybuffer.cells.flatMap fun s => [0, s]) ++
    0 :: (payloadIn.take size).flatMap fun s => [s, 0]
  let delaybuffer := internal.delaybuffer.write 0
    ((payloadIn.drop (size - delayBufUpSize16)).take delayBufUpSize16)
  (⟨delaybuffer⟩,
    upscale (firBlk4 dline (size8KhzTo16Khz size) filterLengthTaps coeffInt 0))

/-- `m_src_up`: 8 kHz to 16 kHz, on samples that are scaled down in the packet they came in. -/
def mSrcUp {n m : Nat} (master : MSrcUpData) (updIn : Option (UpdPacket n))
    (updOut : Option (UpdPacket m)) : MSrcUpResult n m :=
  match master.internal, updIn, updOut with
  | some internal, some packetIn, some packetOut =>
    if is8KhzUpdPacketOk packetIn.toUpdHeader then
      let size := lUpdGetPcmSizeSamples packetIn.mode
      -- scaled in place, in the caller's packet
      let payloadIn := packetIn.payload.write 0 (downscale (packetIn.payload.cells.take size))
      let (internal, payloadOut) := upsample internal payloadIn.cells size
      { ecode := eaNoErrors
        master := ⟨0, some internal⟩
        updIn := some { packetIn with payload := payloadIn }
        updOut := some { packetOut with
          codec := updCodecPcm
          type := updTypeSpeechGood
          mode := packetIn.mode
          form := updFormPcmLinear16Khz
          payload := packetOut.payload.write 0 payloadOut } }
    else
      let (extraEcode, packetIn) := lUpdGenerateExtraEcode32 packetIn
      { ecode := eMSrcUpUpdIn
        master := { master with extraEcode := extraEcode }
        updIn := some packetIn
        updOut := updOut }
  | _, _, _ => ⟨eMSrcNullPointer, master, updIn, updOut⟩

/-- `m_src_up_release`; without an internal structure there is nothing to free. -/
def mSrcUpRelease (master : MSrcUpData) : Ecode × MSrcUpData :=
  match master.internal with
  | none => (eMSrcNullPointer, master)
  | some _ => (eaNoErrors, { master with internal := none })

def mSrcDownRelease (master : MSrcDownData) : Ecode × MSrcDownData :=
  match master.internal with
  | none => (eMSrcNullPointer, master)
  | some _ => (eaNoErrors, { master with internal := none })

theorem headerWord_fields (h : UpdHeader) :
    (headerWord h).extractLsb' 12 4 = h.codec ∧ (headerWord h).extractLsb' 8 4 = h.type ∧
      (headerWord h).extractLsb' 4 4 = h.mode ∧ (headerWord h).extractLsb' 0 4 = h.form := by
  have hword : headerWord h =
    (h.codec ++ h.type ++ h.mode ++ h.form : BitVec (4 + 4 + 4 + 4)) := rfl
  rw [hword]
  refine ⟨?_, ?_, ?_, ?_⟩
  · rw [BitVec.extractLsb'_append_eq_of_le (by decide), BitVec.extractLsb'_append_eq_of_le (by decide)]
    exact BitVec.extractLsb'_append_eq_left
  · rw [BitVec.extractLsb'_append_eq_of_le (by decide), BitVec.extractLsb'_append_eq_of_le (by decide)]
    exact BitVec.extractLsb'_append_eq_right
  · rw [BitVec.extractLsb'_append_eq_of_le (by decide)]
    exact BitVec.extractLsb'_append_eq_right
  · exact BitVec.extractLsb'_append_eq_right

theorem headerOfWord_headerWord (h : UpdHeader) : headerOfWord (headerWord h) = h := by
  obtain ⟨hcodec, htype, hmode, hform⟩ := headerWord_fields h
  rw [headerOfWord, hcodec, htype, hmode, hform]

@[simp] theorem lUpdGenerateExtraEcode32_snd {n : Nat} (p : UpdPacket n) :
    (lUpdGenerateExtraEcode32 p).2 = p := by
  simp only [lUpdGenerateExtraEcode32, beToNat16_natToBe16, headerOfWord_headerWord]

section Calls

variable {n m : Nat} (packetIn : UpdPacket n) (packetOut : UpdPacket m)

theorem mSrcDown_of_ok {master : MSrcDownData} {internal : MSrcDownInternal}
    (hi : master.internal = some internal)
    (hok : is16KhzUpdPacketOk packetIn.toUpdHeader = true) :
    mSrcDown master (some packetIn) (some packetOut) =
      let r := downsample internal packetIn.payload.cells (lUpdGetPcmSizeSamples packetIn.mode)
      ⟨eaNoErrors, ⟨0, some r.1⟩, some packetIn,
        some { packetOut with
          toUpdHeader := ⟨updCodecPcm, updTypeSpeechGood, packetIn.mode, updFormPcmLinear08Khz⟩
          payload := packetOut.payload.write 0 r.2 }⟩ := by
  simp only [mSrcDown, hi, hok, if_true]

theorem mSrcDown_of_not_ok {master : MSrcDownData} {internal : MSrcDownInternal}
    (hi : master.internal = some internal)
    (hok : is16KhzUpdPacketOk packetIn.toUpdHeader = false) :
    mSrcDown master (some packetIn) (some packetOut) =
      ⟨eMSrcDownUpdIn, { master with extraEcode := (lUpdGenerateExtraEcode32 packetIn).1 },
        some packetIn, some packetOut⟩ := by
  have hs := lUpdGenerateExtraEcode32_snd packetIn
  simp only [mSrcDown, hi, hok]
  rw [hs]
  rfl

theorem mSrcDown_of_none {master : MSrcDownData} (hi : master.internal = none) :
    mSrcDown master (some packetIn) (some packetOut) =
      ⟨eMSrcNullPointer, master, some packetIn, some packetOut⟩ := by
  simp only [mSrcDown, hi]

/-- The packet as `m_src_up` leaves it in place: its samples scaled down. -/
def scaledDown (packet : UpdPacket n) : UpdPacket n :=
  { packet with
    payload := packet.payload.write 0
      (downscale (packet.payload.cells.take (lUpdGetPcmSizeSamples packet.mode))) }

theorem mSrcUp_of_ok {master : MSrcUpData} {internal : MSrcUpInternal}
    (hi : master.internal = some internal)
    (hok : is8KhzUpdPacketOk packetIn.toUpdHeader = true) :
    mSrcUp master (some packetIn) (some packetOut) =
      let r := upsample internal (scaledDown packetIn).payload.cells
        (lUpdGetPcmSizeSamples packetIn.mode)
      ⟨eaNoErrors, ⟨0, some r.1⟩, some (scaledDown packetIn),
        some { packetOut with
          toUpdHeader := ⟨updCodecPcm, updTypeSpeechGood, packetIn.mode, updFormPcmLinear16Khz⟩
          payload := packetOut.payload.write 0 r.2 }⟩ := by
  simp only [mSrcUp, hi, hok, if_true, scaledDown]

theorem mSrcUp_of_not_ok {master : MSrcUpData} {internal : MSrcUpInternal}
    (hi : master.internal = some internal)
    (hok : is8KhzUpdPacketOk packetIn.toUpdHeader = false) :
    mSrcUp master (some packetIn) (some packetOut) =
      ⟨eMSrcUpUpdIn, { master with extraEcode := (lUpdGenerateExtraEcode32 packetIn).1 },
        some packetIn, some packetOut⟩ := by
  have hs := lUpdGenerateExtraEcode32_snd packetIn
  simp only [mSrcUp, hi, hok]
  rw [hs]
  rfl

theorem mSrcUp_of_none {master : MSrcUpData} (hi : master.internal = none) :
    mSrcUp master (some packetIn) (some packetOut) =
      ⟨eMSrcNullPointer, master, some packetIn, some packetOut⟩ := by
  simp only [mSrcUp, hi]

end Calls

end RtpServer.Source.SampleRate
