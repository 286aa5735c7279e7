import RtpServer.Library.LittleEndian
import RtpServer.Library.Buffer

/-!
# Scalar types, sizes and error codes

The fixed-width types of `type_def.h`, the size conversions of `l_mgw.h` and the
error code layout of `l_error.h`, in the little-endian build the Makefile makes.
-/
namespace RtpServer.Source

abbrev Uint8 := BitVec 8
abbrev Uint16 := BitVec 16
abbrev Uint32 := BitVec 32
abbrev Uint64 := BitVec 64

/-- `int16`; read through `BitVec.toInt`. -/
abbrev Sint16 := BitVec 16

abbrev Ecode := Uint32

namespace TypeDef

/-- A value stored in a `uint16` variable. -/
def toUint16 (n : Nat) : Nat := n % 65536

/-- `SIZE_1_TO_8` and its kin: bits, octets and words, rounded up. -/
def size1To8 (size : Nat) : Nat := (size + 7) / 8
def size1To16 (size : Nat) : Nat := (size + 15) / 16
def size8To1 (size : Nat) : Nat := size * 8

def eaNoErrors : Ecode := 0

def severeErrorHiBits : Uint32 := 0x7 <<< 28
def minorErrorHiBits : Uint32 := 0x3 <<< 28

/-- `GENERATE_ERROR_MASK`: the severity in the top bits, the number of the module below. -/
def generateErrorMask (errorHiBits maskNbr : Uint32) : Uint32 :=
  errorHiBits ||| ((maskNbr &&& 0x0FFF) <<< 16)

def severeMask (maskNbr : Uint32) : Uint32 := generateErrorMask severeErrorHiBits maskNbr
def minorMask (maskNbr : Uint32) : Uint32 := generateErrorMask minorErrorHiBits maskNbr

def errorCInternal : Uint32 := 0x0000

end TypeDef

end RtpServer.Source
