import RtpServer.Library.Lanes
import RtpServer.Source.TypeDef

/-!
# `fir_filter_blk4.c`

The packed-lane filter the build uses and the scalar reference kept in the disabled
block of the same file. Loop counters start at 0 here and at 1 in the source.
-/
namespace RtpServer.Source.FirFilter

open RtpServer.Library RtpServer.Library.Lanes

def shrtMax : Int := 32767
def shrtMin : Int := -32768

def saturate16 (x : BitVec 32) : Sint16 :=
  if shrtMax < x.toInt then BitVec.ofInt 16 shrtMax
  else if x.toInt < shrtMin then BitVec.ofInt 16 shrtMin
  else x.setWidth 16

def load64 (xs : List Sint16) (start : Nat) : Pi16 :=
  ⟨xs.getD start 0, xs.getD (start + 1) 0, xs.getD (start + 2) 0, xs.getD (start + 3) 0⟩

/-- The inner loop body of `fir_blk4`; `d` is `dinxa + 2`, `Y` the two accumulators. -/
def firBlk4Inner (dLine coeffs : List Sint16) (nCoeffs d : Nat) (Y : BitVec 64 × BitVec 64)
    (j : Nat) : BitVec 64 × BitVec 64 :=
  let c10 := load64 dLine (d + 4 * j)
  let c11 := load64 coeffs (4 * j)
  let c20 := load64 dLine (d + 1 + 4 * j)
  let c30 := load64 dLine (d + nCoeffs / 2 + 4 * j)
  let c31 := load64 coeffs (nCoeffs / 2 + 4 * j)
  let c40 := load64 dLine (d + nCoeffs / 2 + 1 + 4 * j)
  let res1 := mmAddPi32 (mmMaddPi16 c10 c11) (mmMaddPi16 c30 c31)
  let res4 := mmAddPi32 (mmMaddPi16 c20 c11) (mmMaddPi16 c40 c31)
  (Y.1 + (mmCvtsi64Si32 res1 + mmCvtsi64Si32 (mmSraiPi32 res1 32)).signExtend 64,
    Y.2 + (mmCvtsi64Si32 res4 + mmCvtsi64Si32 (mmSraiPi32 res4 32)).signExtend 64)

/-- The rounding after the inner loop, on the `int40` accumulator, and the final cast. -/
def firRound (Y : BitVec 64) (scale : Nat) : Sint16 :=
  saturate16 (((Y + BitVec.ofNat 64 (2 ^ (14 - scale))).sshiftRight (15 - scale)).setWidth 32)

/-- `fir_blk4` on packed lanes: two outputs a round, eight taps a step. -/
def firBlk4 (dLine : List Sint16) (nNew nCoeffs : Nat) (coeffs : List Sint16) (scale : Nat) :
    List Sint16 :=
  (List.range (nNew / 2)).flatMap fun i =>
    let Y := (List.range (nCoeffs / 8)).foldl (firBlk4Inner dLine coeffs nCoeffs (2 * i)) (0, 0)
    [firRound Y.1 scale, firRound Y.2 scale]

def scalarPair (a p b q : Sint16) : BitVec 64 := (mul16 a p + mul16 b q).signExtend 64

/-- The inner loop body of the reference, which adds in another order than the packed one. -/
def firBlk4ScalarInner (dLine coeffs : List Sint16) (nCoeffs dinxa : Nat)
    (Y : BitVec 64 × BitVec 64) (j : Nat) : BitVec 64 × BitVec 64 :=
  let d := fun k => dLine.getD (dinxa + 4 * j + k) 0
  let e := fun k => dLine.getD (dinxa + 4 * j + nCoeffs / 2 + k) 0
  let ca := fun k => coeffs.getD (4 * j + k) 0
  let cb := fun k => coeffs.getD (4 * j + nCoeffs / 2 + k) 0
  let Y00a := scalarPair (d 0) (ca 0) (d 1) (ca 1)
  let Y10a := scalarPair (d 1) (ca 0) (d 2) (ca 1)
  let Y00b := scalarPair (e 0) (cb 0) (e 1) (cb 1)
  let Y10b := scalarPair (e 1) (cb 0) (e 2) (cb 1)
  let Y01a := scalarPair (d 2) (ca 2) (d 3) (ca 3)
  let Y11a := scalarPair (d 3) (ca 2) (d 4) (ca 3)
  let Y01b := scalarPair (e 2) (cb 2) (e 3) (cb 3)
  let Y11b := scalarPair (e 3) (cb 2) (e 4) (cb 3)
  (Y.1 + (Y01a + Y00a) + (Y01b + Y00b), Y.2 + (Y11b + Y10b) + (Y11a + Y10a))

/-- The scalar `fir_blk4` of the disabled block. -/
def firBlk4Scalar (dLine : List Sint16) (nNew nCoeffs : Nat) (coeffs : List Sint16)
    (scale : Nat) : List Sint16 :=
  (List.range (nNew / 2)).flatMap fun i =>
    let Y := (List.range (nCoeffs / 8)).foldl
      (firBlk4ScalarInner dLine coeffs nCoeffs (2 * i)) (0, 0)
    [firRound Y.1 scale, firRound Y.2 scale]

end RtpServer.Source.FirFilter
