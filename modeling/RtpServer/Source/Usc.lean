import RtpServer.Source.TypeDef

/-!
# The codec library seen through its function table

`USC_EVS_Fxns` and the IPP allocator, as an arbitrary deterministic machine with state
`σ`: every call may answer anything and move to any state. Only the members that the
calling code sets or reads are kept in the option, mode and stream records; what else a
call passes from one function of the table to the next is part of `σ`.
-/
namespace RtpServer.Source.Usc

abbrev UscStatus := Int

def uscNoError : UscStatus := 0

def uscEncode : Int := 0
def uscDecode : Int := 1

/-- `USC_Handle`, an address; 0 is `NULL`. -/
abbrev UscHandle := Nat

/-- `USC_Modes`; members not named by a caller are zero, as its initialiser leaves them. -/
structure UscModes where
  bitrate : Int := 0
  truncate : Int := 0
  vad : Int := 0
  bitstreamformat : Int := 0
  useParitalCopy : Int := 0
  nextCoderType : Int := 0
  rfFecIndicator : Int := 0
  rfFecOffset : Int := 0
  maxBwidthFx : Int := 0
  optRfOn : Int := 0
  updateBrateOn : Int := 0
  updateBwidthOn : Int := 0
  intervalSidFx : Int := 0
  deriving DecidableEq

structure UscOption where
  direction : Int := 0
  modes : UscModes := {}
  deriving DecidableEq

/-- `USC_MemBank`; a `NULL` bank is 0. -/
structure UscMemBank where
  pMem : Nat
  nbytes : Int
  deriving DecidableEq

/-- `USC_Bitstream` given to `Decode`. The buffer is the memory from the pointer on, which may be
more than the size says. -/
structure UscBitstream where
  pBuffer : List Uint8
  nbytes : Nat
  frametype : Int
  bitrate : Int
  deriving DecidableEq

structure UscPcmStream where
  pBuffer : List Uint8
  nbytes : Nat
  bitrate : Int
  deriving DecidableEq

/-- What `Encode` leaves in the stream out. -/
structure UscEncoded where
  data : List Uint8
  nbytes : Nat
  bitrate : Int
  deriving DecidableEq

structure Answer (σ α : Type) where
  status : UscStatus
  value : α
  next : σ

/-- The function table and the allocator. -/
structure UscFxns (σ : Type) where
  getInfo : σ → UscOption → Answer σ UscOption
  numAlloc : σ → UscOption → Answer σ Int
  /-- The value is the size asked for the one bank provided. -/
  memAlloc : σ → UscOption → Answer σ Int
  /-- `ippsMalloc_8u` for a module's internal structure; the value is what its handle
  member happens to hold. It always succeeds: the `NULL` it may return is left out, and so is the
  size asked for, which in the source is that of the pointer. -/
  mallocInternal : σ → Answer σ UscHandle
  mallocBank : σ → Int → Answer σ Nat
  /-- The value is the handle member after the call, given what it held before. -/
  init : σ → UscOption → UscMemBank → UscHandle → Answer σ UscHandle
  control : σ → UscModes → UscHandle → Answer σ Unit
  decode : σ → UscHandle → UscBitstream → Answer σ (List Uint16)
  encode : σ → UscHandle → UscPcmStream → Answer σ UscEncoded

/-- One call in the log, with its arguments as far as results speak of them. -/
inductive UscCall where
  | getInfo (status : UscStatus)
  | numAlloc (status : UscStatus) (nbanks : Int)
  | memAlloc (status : UscStatus)
  | init (status : UscStatus) (handle : UscHandle)
  | control (modes : UscModes) (handle : UscHandle) (status : UscStatus)
  | decode (handle : UscHandle) (input : UscBitstream) (status : UscStatus)
  | encode (handle : UscHandle) (input : UscPcmStream) (status : UscStatus)
  deriving DecidableEq

def Answer.logged {σ α : Type} (a : Answer σ α) (log : List UscCall) (call : UscCall) :
    Answer (σ × List UscCall) α :=
  ⟨a.status, a.value, (a.next, log ++ [call])⟩

/-- The same codec, recording the calls made to it. -/
def UscFxns.logging {σ : Type} (fxns : UscFxns σ) : UscFxns (σ × List UscCall) where
  getInfo s params :=
    let a := fxns.getInfo s.1 params
    a.logged s.2 (.getInfo a.status)
  numAlloc s params :=
    let a := fxns.numAlloc s.1 params
    a.logged s.2 (.numAlloc a.status a.value)
  memAlloc s params :=
    let a := fxns.memAlloc s.1 params
    a.logged s.2 (.memAlloc a.status)
  mallocInternal s :=
    let a := fxns.mallocInternal s.1
    ⟨a.status, a.value, (a.next, s.2)⟩
  mallocBank s nbytes :=
    let a := fxns.mallocBank s.1 nbytes
    ⟨a.status, a.value, (a.next, s.2)⟩
  init s params bank before :=
    let a := fxns.init s.1 params bank before
    a.logged s.2 (.init a.status a.value)
  control s modes handle :=
    let a := fxns.control s.1 modes handle
    a.logged s.2 (.control modes handle a.status)
  decode s handle input :=
    let a := fxns.decode s.1 handle input
    a.logged s.2 (.decode handle input a.status)
  encode s handle input :=
    let a := fxns.encode s.1 handle input
    a.logged s.2 (.encode handle input a.status)

end RtpServer.Source.Usc
