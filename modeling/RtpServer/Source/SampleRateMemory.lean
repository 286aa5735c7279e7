import RtpServer.Library.Machine
import RtpServer.Library.Memory
import RtpServer.Source.SampleRate
import RtpServer.Source.Scratch

/-!
# The sample rate converter in memory (`m_src.c`, `fir_filter_blk4.c`)

The functions of `SampleRate` again, now over the memory that all converters share: the static
scratch buffers, the packets, which may be one and the same in a call, and the delay lines that
`malloc` gave. `none` is an access outside a live object or a bad `free`.
-/
namespace RtpServer.Source.SampleRateMemory

open RtpServer.Library RtpServer.Library.Lanes RtpServer.Source.TypeDef RtpServer.Source.Mgw
open RtpServer.Source.Upd RtpServer.Source.Scratch RtpServer.Source.SampleRate

/-- The objects that sample pointers point into. -/
inductive Region (κ ι : Type) where
  | scratch (i : Fin numScratchBuffs)
  | payload (packet : κ)
  | delaybuffer (internal : ι)
  deriving DecidableEq

abbrev Words (κ ι : Type) := Memory (Region κ ι) Sint16
abbrev Address (κ ι : Type) := Pointer (Region κ ι)

variable {κ ι : Type}

section

variable [DecidableEq κ] [DecidableEq ι]

def load64 (m : Words κ ι) (p : Address κ ι) (k : Nat) : Option Pi16 := do
  let s0 ← m.load p k
  let s1 ← m.load p (k + 1)
  let s2 ← m.load p (k + 2)
  let s3 ← m.load p (k + 3)
  some ⟨s0, s1, s2, s3⟩

/-- The inner loop body; the coefficients are a constant table. -/
def firBlk4Inner (m : Words κ ι) (dLine : Address κ ι) (coeffs : List Sint16) (nCoeffs d : Nat)
    (Y : BitVec 64 × BitVec 64) (j : Nat) : Option (BitVec 64 × BitVec 64) := do
  let c10 ← load64 m dLine (d + 4 * j)
  let c11 := FirFilter.load64 coeffs (4 * j)
  let c20 ← load64 m dLine (d + 1 + 4 * j)
  let c30 ← load64 m dLine (d + nCoeffs / 2 + 4 * j)
  let c31 := FirFilter.load64 coeffs (nCoeffs / 2 + 4 * j)
  let c40 ← load64 m dLine (d + nCoeffs / 2 + 1 + 4 * j)
  let res1 := mmAddPi32 (mmMaddPi16 c10 c11) (mmMaddPi16 c30 c31)
  let res4 := mmAddPi32 (mmMaddPi16 c20 c11) (mmMaddPi16 c40 c31)
  some (Y.1 + (mmCvtsi64Si32 res1 + mmCvtsi64Si32 (mmSraiPi32 res1 32)).signExtend 64,
    Y.2 + (mmCvtsi64Si32 res4 + mmCvtsi64Si32 (mmSraiPi32 res4 32)).signExtend 64)

/-- `fir_blk4`. The outputs are stored as they are made, so one that overlaps the delay line is read
by later rounds. -/
def firBlk4 (m : Words κ ι) (outVec dLine : Address κ ι) (nNew nCoeffs : Nat)
    (coeffs : List Sint16) (scale : Nat) : Option (Words κ ι) :=
  Memory.loop (fun i m => do
    let Y ← (List.range (nCoeffs / 8)).foldlM (firBlk4Inner m dLine coeffs nCoeffs (2 * i)) (0, 0)
    let m ← m.store outVec (2 * i) (FirFilter.firRound Y.1 scale)
    m.store outVec (2 * i + 1) (FirFilter.firRound Y.2 scale)) (nNew / 2) m

def upscale (m : Words κ ι) (inbuf outbuf : Address κ ι) (length : Nat) : Option (Words κ ι) :=
  Memory.loop (fun i m => do
    let s ← m.load inbuf i
    m.store outbuf i (shl s scalingBits)) length m

def downscale (m : Words κ ι) (buf : Address κ ι) (length : Nat) : Option (Words κ ι) :=
  Memory.loop (fun i m => do
    let s ← m.load buf i
    m.store buf i (shr s scalingBits)) length m

end

/-- `m_src_up_internal`, `m_src_down_internal`: the delay line of the allocated structure and
the scratch pointer in it. -/
structure Internal (ι : Type) where
  delaybuffer : ι
  scratch : Option ScratchPtr

/-- `m_src_up_data`, `m_src_down_data` without the packet pointers. -/
structure Master (ι : Type) where
  extraEcode : Uint32 := 0
  internal : Option (Internal ι) := none

/-- What the converters share; `allocated` are the structures `malloc` has given and `free` has
not taken back. -/
structure World (κ ι : Type) where
  words : Words κ ι
  header : κ → UpdHeader
  padding : κ → Uint16
  allocated : List ι

def lScratchIdSrcC6x : Uint16 := 14
abbrev pcm30Ms16KhzSizeSamples : Nat := 480
abbrev dlineScratchSize16 : Nat := pcm30Ms16KhzSizeSamples + filterLengthTaps
abbrev outvecScratchSize16 : Nat := pcm30Ms16KhzSizeSamples

def addressOf (p : ScratchPtr) : Address κ ι := ⟨.scratch p.buffer, p.offset⟩

section

variable [DecidableEq κ] [DecidableEq ι]

def World.setHeader (w : World κ ι) (packet : κ) (f : UpdHeader → UpdHeader) : World κ ι :=
  { w with header := Function.update w.header packet (f (w.header packet)) }

/-- `malloc`, whose structures are not in use; `leftBehind` is what it leaves in the delay line. It
always succeeds: the `NULL` it may return, and the size it is asked for, are left out. -/
def World.malloc (fresh : List ι → ι) (w : World κ ι) (leftBehind : List Sint16) :
    ι × World κ ι :=
  let b := fresh w.allocated
  (b, { w with
    words := Function.update w.words (.delaybuffer b) (some leftBehind)
    allocated := b :: w.allocated })

/-- `free` of a structure that is not allocated is an error. -/
def World.free (w : World κ ι) (b : ι) : Option (World κ ι) :=
  if b ∈ w.allocated then
    some { w with
      words := Function.update w.words (.delaybuffer b) none
      allocated := w.allocated.erase b }
  else none

/-- `m_src_up_init` and `m_src_down_init` for their own structures and scratch sizes. -/
def mSrcInit (fresh : List ι → ι) (scratchSize16 : Nat) (w : World κ ι) (master : Master ι)
    (leftBehind : List Sint16) : Ecode × Master ι × World κ ι :=
  let (b, w) := w.malloc fresh leftBehind
  let scratch := (lScratchGetBuffer lScratchIdSrcC6x (BitVec.ofNat 16 scratchSize16)).buffer
  (eaNoErrors, { master with internal := some ⟨b, scratch⟩ }, w)

def mSrcUpInit (fresh : List ι → ι) (w : World κ ι) (master : Master ι)
    (leftBehind : Buffer Sint16 delayBufUpSize16) : Ecode × Master ι × World κ ι :=
  mSrcInit fresh dlineScratchSize16 w master leftBehind.cells

def mSrcDownInit (fresh : List ι → ι) (w : World κ ι) (master : Master ι)
    (leftBehind : Buffer Sint16 delayBufDownSize16) : Ecode × Master ι × World κ ι :=
  mSrcInit fresh (dlineScratchSize16 + outvecScratchSize16) w master leftBehind.cells

/-- `m_src_up_release` and `m_src_down_release`, which are the same but for the type. -/
def mSrcRelease (w : World κ ι) (master : Master ι) : Option (Ecode × Master ι × World κ ι) :=
  match master.internal with
  | none => some (eMSrcNullPointer, master, w)
  | some internal => do
    let w ← w.free internal.delaybuffer
    some (eaNoErrors, { master with internal := none }, w)

def lUpdGetPayload (packet : κ) : Address κ ι := ⟨.payload packet, 0⟩

/-- `l_upd_generate_extra_ecode_32` on a packet in memory; it does not touch the payload. -/
def extraEcodeOf (w : World κ ι) (packet : κ) : Uint32 × World κ ι :=
  let (extra, p) := lUpdGenerateExtraEcode32
    (⟨w.header packet, w.padding packet, Buffer.replicate 0 0⟩ : UpdPacket 0)
  (extra, w.setHeader packet fun _ => p.toUpdHeader)

/-- The header fields that are set at the end of both directions. -/
def setPcmHeader (w : World κ ι) (updIn updOut : κ) (form : BitVec 4) : World κ ι :=
  let w := w.setHeader updOut fun h => { h with codec := updCodecPcm }
  let w := w.setHeader updOut fun h => { h with type := updTypeSpeechGood }
  let w := w.setHeader updOut fun h => { h with mode := (w.header updIn).mode }
  w.setHeader updOut fun h => { h with form := form }

/-- `m_src_up` statement by statement. The packet out may be the packet in. -/
def mSrcUp (w : World κ ι) (master : Master ι) (updIn updOut : Option κ) :
    Option (Ecode × Master ι × World κ ι) :=
  match master.internal, updIn, updOut with
  | some internal, some updIn, some updOut =>
    if is8KhzUpdPacketOk (w.header updIn) then do
      let size := lUpdGetPcmSizeSamples (w.header updIn).mode
      let payloadOut := lUpdGetPayload updOut
      let payloadIn := lUpdGetPayload updIn
      let dline ← internal.scratch.map addressOf
      let delaybuffer : Address κ ι := ⟨.delaybuffer internal.delaybuffer, 0⟩
      let m ← downscale w.words payloadIn size
      -- `j` is `2 * i` here and `2 * (delayBufUpSize16 + i) + 1` in the second loop
      let m ← Memory.loop (fun i m => do
        let m ← m.store dline (2 * i) 0
        let s ← m.load delaybuffer i
        m.store dline (2 * i + 1) s) delayBufUpSize16 m
      let m ← m.store dline (2 * delayBufUpSize16) 0
      let m ← Memory.loop (fun i m => do
        let s ← m.load payloadIn i
        let m ← m.store dline (2 * delayBufUpSize16 + 1 + 2 * i) s
        m.store dline (2 * delayBufUpSize16 + 1 + 2 * i + 1) 0) size m
      let m ← m.memcpy delaybuffer (payloadIn.add (size - delayBufUpSize16)) delayBufUpSize16
      let m ← firBlk4 m payloadOut dline (size8KhzTo16Khz size) filterLengthTaps coeffInt 0
      let m ← upscale m payloadOut payloadOut (size8KhzTo16Khz size)
      some (eaNoErrors, { master with extraEcode := 0 },
        setPcmHeader { w with words := m } updIn updOut updFormPcmLinear16Khz)
    else
      let (extra, w) := extraEcodeOf w updIn
      some (eMSrcUpUpdIn, { master with extraEcode := extra }, w)
  | _, _, _ => some (eMSrcNullPointer, master, w)

def mSrcDown (w : World κ ι) (master : Master ι) (updIn updOut : Option κ) :
    Option (Ecode × Master ι × World κ ι) :=
  match master.internal, updIn, updOut with
  | some internal, some updIn, some updOut =>
    if is16KhzUpdPacketOk (w.header updIn) then do
      let size := lUpdGetPcmSizeSamples (w.header updIn).mode
      let new16Khz := size8KhzTo16Khz size
      let payloadOut := lUpdGetPayload updOut
      let payloadIn := lUpdGetPayload updIn
      -- `struct down_scratch`: the delay line, then the filter output
      let dline ← internal.scratch.map addressOf
      let outvec := dline.add dlineScratchSize16
      let delaybuffer : Address κ ι := ⟨.delaybuffer internal.delaybuffer, 0⟩
      let m ← w.words.memcpy dline delaybuffer delayBufDownSize16
      let m ← m.memcpy (dline.add delayBufDownSize16) payloadIn new16Khz
      let m ← m.memcpy delaybuffer (payloadIn.add (new16Khz - delayBufDownSize16))
        delayBufDownSize16
      let m ← downscale m dline (delayBufDownSize16 + new16Khz)
      let m ← firBlk4 m outvec dline new16Khz filterLengthTaps coeffDec 0
      let m ← Memory.loop (fun i m => do
        let s ← m.load outvec (2 * i)
        m.store payloadOut i s) size m
      let m ← upscale m payloadOut payloadOut size
      some (eaNoErrors, { master with extraEcode := 0 },
        setPcmHeader { w with words := m } updIn updOut updFormPcmLinear08Khz)
    else
      let (extra, w) := extraEcodeOf w updIn
      some (eMSrcDownUpdIn, { master with extraEcode := extra }, w)
  | _, _, _ => some (eMSrcNullPointer, master, w)

/-- The packet as a caller fills it in. -/
def World.fill (w : World κ ι) (packet : κ) (content : UpdPacket updMaxPayloadSize16) :
    World κ ι where
  words := w.words.put (lUpdGetPayload packet) content.payload.cells
  header := Function.update w.header packet content.toUpdHeader
  padding := Function.update w.padding packet content.padding
  allocated := w.allocated

end

/-- Calls on converters named by `μ`, with packets at the addresses `κ`. -/
inductive Call (κ μ : Type) where
  | fill (packet : κ) (content : UpdPacket updMaxPayloadSize16)
  | upInit (c : μ) (leftBehind : Buffer Sint16 delayBufUpSize16)
  | up (c : μ) (updIn updOut : Option κ)
  | upRelease (c : μ)
  | downInit (c : μ) (leftBehind : Buffer Sint16 delayBufDownSize16)
  | down (c : μ) (updIn updOut : Option κ)
  | downRelease (c : μ)

structure Converters (κ ι μ : Type) where
  world : World κ ι
  up : μ → Master ι
  down : μ → Master ι

/-- Before the first call; the master structures are zeroed. -/
def Converters.initial {μ : Type} (scratch : ScratchMemory)
    (packet : κ → UpdPacket updMaxPayloadSize16) : Converters κ ι μ where
  world := {
    words := fun
      | .scratch i => some (scratch i).cells
      | .payload k => some (packet k).payload.cells
      | .delaybuffer _ => none
    header := fun k => (packet k).toUpdHeader
    padding := fun k => (packet k).padding
    allocated := [] }
  up _ := {}
  down _ := {}

section

variable {μ : Type} [DecidableEq κ] [DecidableEq ι] [DecidableEq μ]

def Converters.ofUp (s : Converters κ ι μ) (c : μ) (r : Ecode × Master ι × World κ ι) :
    Converters κ ι μ × Ecode :=
  ({ s with world := r.2.2, up := Function.update s.up c r.2.1 }, r.1)

def Converters.ofDown (s : Converters κ ι μ) (c : μ) (r : Ecode × Master ι × World κ ι) :
    Converters κ ι μ × Ecode :=
  ({ s with world := r.2.2, down := Function.update s.down c r.2.1 }, r.1)

/-- A process with its converters, one call after another; it stops where C is undefined. -/
def converters (fresh : List ι → ι) : FaultingMachine (Converters κ ι μ) (Call κ μ) Ecode where
  step s
    | .fill packet content => some ({ s with world := s.world.fill packet content }, eaNoErrors)
    | .upInit c leftBehind => some (s.ofUp c (mSrcUpInit fresh s.world (s.up c) leftBehind))
    | .up c updIn updOut => (mSrcUp s.world (s.up c) updIn updOut).map (s.ofUp c)
    | .upRelease c => (mSrcRelease s.world (s.up c)).map (s.ofUp c)
    | .downInit c leftBehind =>
      some (s.ofDown c (mSrcDownInit fresh s.world (s.down c) leftBehind))
    | .down c updIn updOut => (mSrcDown s.world (s.down c) updIn updOut).map (s.ofDown c)
    | .downRelease c => (mSrcRelease s.world (s.down c)).map (s.ofDown c)

end

end RtpServer.Source.SampleRateMemory
