import RtpServer.Source.TypeDef

/-!
# Scratch memory (`l_scratch.c`)

The table of static buffers in the `BOARD_X86_VIRTUAL` build, the function that hands them
out and the supervision of their guard patterns. Sizes are in 16-bit words. No buffer of the
table is `NULL`.
-/
namespace RtpServer.Source.Scratch

open RtpServer.Library RtpServer.Source.TypeDef

def fatalErrorHiBits : Uint32 := 0x8 <<< 28
def fatalMask (maskNbr : Uint32) : Uint32 := generateErrorMask fatalErrorHiBits maskNbr

def eLScratchFatal : Ecode := fatalMask 0x052
def eLScratchInvalidId : Ecode := eLScratchFatal ||| errorCInternal ||| 0x001
def eLScratchInvalidSize : Ecode := eLScratchFatal ||| errorCInternal ||| 0x002
def eLScratchHeaderCorrupted : Ecode := eLScratchFatal ||| errorCInternal ||| 0x004
def eLScratchTrailerCorrupted : Ecode := eLScratchFatal ||| errorCInternal ||| 0x005

/-- A `uint32` in memory, seen as words. -/
def wordsOf32 (x : Uint32) : List Uint16 := [x.setWidth 16, (x >>> 16).setWidth 16]

def header : List Uint16 := [0x12345678, 0x98765432].flatMap wordsOf32
def trailer : List Uint16 := [0x98765432, 0x12345678].flatMap wordsOf32

def checkPatternsSize16 : Nat := header.length + trailer.length

def size16To32 (size : Nat) : Nat := (size + 1) / 2

/-- The room a buffer takes, without and with the two patterns. -/
def getBufSize32 (bufferSize16 : Nat) : Nat := size16To32 bufferSize16
def getSupervisedBufSize32 (bufferSize16 : Nat) : Nat :=
  size16To32 (bufferSize16 + checkPatternsSize16)

/-- `scratch_buffer_data` without the address: the room in 16-bit words, patterns included. -/
structure ScratchBufferData where
  size16 : Nat
  supervisionInUse : Bool
  deriving DecidableEq

def buffer (size16 : Nat) : ScratchBufferData := ⟨2 * getBufSize32 size16, false⟩
def supervisedBuffer (size16 : Nat) : ScratchBufferData :=
  ⟨2 * getSupervisedBufSize32 size16, true⟩

def scratch : List ScratchBufferData :=
  [buffer 82,             -- ater_output_scratch
   supervisedBuffer 600,  -- mod_internal_scratch
   supervisedBuffer 552,  -- event_scratch
   supervisedBuffer 244,  -- uph_lin_08_khz_pcm_scratch
   supervisedBuffer 484,  -- uph_lin_16_khz_pcm_scratch
   supervisedBuffer 306,  -- uph_upd_scratch
   buffer 1460,           -- uph_aec_scratch
   buffer 20,             -- uph_ec_ref_pcm_scratch
   buffer 40,             -- uph_ec_ref_lpcm_scratch
   buffer 226,            -- gvad_1_da_scratch
   buffer 80,             -- gvad_2_sa_scratch
   buffer 462,            -- gvad_3_sa_scratch
   supervisedBuffer 80,   -- upph_egress_scratch
   buffer 50,             -- int_ifh_tone_upd_scratch
   buffer 1032,           -- src_c6x_scratch
   -- allocated with room for the patterns, but not supervised
   ⟨2 * getSupervisedBufSize32 352, false⟩,  -- ipe_scratch
   buffer 1160,           -- aec_c6x_short_scratch
   buffer 4400,           -- aec_c6x_long_scratch
   buffer 294,            -- bfh_c6x_scratch
   buffer 655,            -- mb_ipt_data_io_scratch
   buffer 42]             -- conference_scratch

abbrev numScratchBuffs : Nat := 21

def scratchData (i : Fin numScratchBuffs) : ScratchBufferData := scratch.get i

/-- The contents of the static buffers. -/
abbrev ScratchMemory := (i : Fin numScratchBuffs) → Buffer Uint16 (scratchData i).size16

/-- A word of a buffer. -/
structure ScratchPtr where
  buffer : Fin numScratchBuffs
  offset : Nat
  deriving DecidableEq

/-- The pointer returned, `none` for `NULL`, and the error reported. The report is a line in
the log and ends nothing. -/
structure ScratchResult where
  buffer : Option ScratchPtr
  ecode : Ecode
  deriving DecidableEq

/-- `l_scratch_get_buffer`. A size that is too large is reported, and the buffer still returned. -/
def lScratchGetBuffer (scratchId size16 : Uint16) : ScratchResult :=
  if h : scratchId.toNat < numScratchBuffs then
    let i : Fin numScratchBuffs := ⟨scratchId.toNat, h⟩
    if (scratchData i).supervisionInUse then
      let bufferSize := (scratchData i).size16 - checkPatternsSize16
      ⟨some ⟨i, header.length⟩,
        if bufferSize < size16.toNat then eLScratchInvalidSize else eaNoErrors⟩
    else
      ⟨some ⟨i, 0⟩,
        if (scratchData i).size16 < size16.toNat then eLScratchInvalidSize else eaNoErrors⟩
  else ⟨none, eLScratchInvalidId⟩

/-- `l_scratch_init_supervision`: the patterns before and behind every supervised buffer. -/
def lScratchInitSupervision (m : ScratchMemory) : ScratchMemory := fun i =>
  if (scratchData i).supervisionInUse then
    ((m i).write 0 header).write ((scratchData i).size16 - trailer.length) trailer
  else m i

/-- The errors reported, each with its extra information. -/
def lScratchSupervision (m : ScratchMemory) : List (Ecode × Uint32) :=
  (List.finRange numScratchBuffs).filterMap fun i =>
    let size16 := (scratchData i).size16
    let extra := (BitVec.ofNat 32 size16 <<< 16) ||| BitVec.ofNat 32 i.val
    if (scratchData i).supervisionInUse then
      if (m i).cells.take header.length ≠ header then some (eLScratchHeaderCorrupted, extra)
      else if (m i).cells.drop (size16 - trailer.length) ≠ trailer then
        some (eLScratchTrailerCorrupted, extra)
      else none
    else none

end RtpServer.Source.Scratch
