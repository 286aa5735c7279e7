import Mathlib.Tactic.Ring
import RtpServer.Source.SampleRate

/-!
# The packed filter against exact integers

Every output of the filter is a sum of 72 products, rounded and saturated. The packed
code keeps two of the four products of every group of taps: the shift that should bring
the high lane down shifts each lane on its own. The scalar reference has the full sum.
-/
namespace RtpServer.Verify.FilterLanes

open RtpServer.Source RtpServer.Library RtpServer.Library.Lanes
open RtpServer.Source.FirFilter RtpServer.Source.SampleRate

def tap (dLine coeffs : List Sint16) (i k : Nat) : Int :=
  (dLine.getD (i + k) 0).toInt * (coeffs.getD k 0).toInt

def convolution (dLine coeffs : List Sint16) (i : Nat) : Int :=
  ∑ k ∈ Finset.range filterLengthTaps, tap dLine coeffs i k

def saturateInt (x : Int) : Int :=
  if shrtMax < x then shrtMax else if x < shrtMin then shrtMin else x

def filterValue (dLine coeffs : List Sint16) (i : Nat) : Int :=
  saturateInt ((convolution dLine coeffs i + 2 ^ 14) >>> (15 : Nat))

/-- Taps of group `j` that meet in the low lane. -/
def keptLane (dLine coeffs : List Sint16) (i j : Nat) : Int :=
  tap dLine coeffs i (4 * j) + tap dLine coeffs i (4 * j + 1) +
    (tap dLine coeffs i (36 + 4 * j) + tap dLine coeffs i (36 + 4 * j + 1))

/-- Taps of group `j` that meet in the high lane. -/
def droppedLane (dLine coeffs : List Sint16) (i j : Nat) : Int :=
  tap dLine coeffs i (4 * j + 2) + tap dLine coeffs i (4 * j + 3) +
    (tap dLine coeffs i (36 + 4 * j + 2) + tap dLine coeffs i (36 + 4 * j + 3))

/-- What the packed sum of output `i` is short of: the high lanes, and one for every
negative low lane, whose sign is added in their place. -/
def laneLoss (dLine coeffs : List Sint16) (i : Nat) : Int :=
  ∑ j ∈ Finset.range 9,
    (droppedLane dLine coeffs i j + if keptLane dLine coeffs i j < 0 then 1 else 0)

/-- The loss does not reach the output: it stays within the rounding step, or both sums
saturate on the same side. -/
def LossAbsorbed (dLine coeffs : List Sint16) (i : Nat) : Prop :=
  let sum := convolution dLine coeffs i + 2 ^ 14
  let loss := laneLoss dLine coeffs i
  (0 ≤ sum % 2 ^ 15 - loss ∧ sum % 2 ^ 15 - loss < 2 ^ 15) ∨
    (shrtMax * 2 ^ 15 ≤ sum ∧ shrtMax * 2 ^ 15 ≤ sum - loss) ∨
    (sum < (shrtMin + 1) * 2 ^ 15 ∧ sum - loss < (shrtMin + 1) * 2 ^ 15)

instance (dLine coeffs : List Sint16) (i : Nat) : Decidable (LossAbsorbed dLine coeffs i) :=
  inferInstanceAs (Decidable (_ ∨ _ ∨ _))

/-- The outputs of the filter are the exact ones, which are those of the scalar reference. -/
structure FilterExact (table : CoeffTable) (dLine : List Sint16) (nNew : Nat) : Prop where
  value : ∀ i < nNew, ∃ y,
    (firBlk4 dLine nNew filterLengthTaps table.coeffs 0)[i]? = some y ∧
      y.toInt = filterValue dLine table.coeffs i
  scalar : firBlk4 dLine nNew filterLengthTaps table.coeffs 0 =
    firBlk4Scalar dLine nNew filterLengthTaps table.coeffs 0

theorem sum_range_four_mul (f : Nat → Int) (n : Nat) :
    ∑ k ∈ Finset.range (4 * n), f k =
      ∑ j ∈ Finset.range n, (f (4 * j) + f (4 * j + 1) + (f (4 * j + 2) + f (4 * j + 3))) := by
  induction n with
  | zero => simp
  | succ n ih =>
    rw [Nat.mul_succ, Finset.sum_range_succ, Finset.sum_range_succ, Finset.sum_range_succ,
      Finset.sum_range_succ, ih, Finset.sum_range_succ]
    ring

theorem convolution_eq_lanes (dLine coeffs : List Sint16) (i : Nat) :
    convolution dLine coeffs i =
      ∑ j ∈ Finset.range 9, (keptLane dLine coeffs i j + droppedLane dLine coeffs i j) := by
  rw [convolution, show filterLengthTaps = 4 * 9 + 4 * 9 from rfl, Finset.sum_range_add,
    sum_range_four_mul, sum_range_four_mul, ← Finset.sum_add_distrib]
  refine Finset.sum_congr rfl fun j _ => ?_
  simp only [keptLane, droppedLane, Nat.add_assoc]
  ring

def packedGroup (dLine coeffs : List Sint16) (i j : Nat) : BitVec 64 :=
  let res := mmAddPi32
    (mmMaddPi16 (load64 dLine (i + 4 * j)) (load64 coeffs (4 * j)))
    (mmMaddPi16 (load64 dLine (i + (36 + 4 * j))) (load64 coeffs (36 + 4 * j)))
  (mmCvtsi64Si32 res + mmCvtsi64Si32 (mmSraiPi32 res 32)).signExtend 64

def scalarGroup (dLine coeffs : List Sint16) (i j : Nat) : BitVec 64 :=
  let pair := fun k => scalarPair (dLine.getD (i + k) 0) (coeffs.getD k 0)
    (dLine.getD (i + k + 1) 0) (coeffs.getD (k + 1) 0)
  pair (4 * j) + pair (4 * j + 2) + (pair (36 + 4 * j) + pair (36 + 4 * j + 2))

def sampleOf (group : Nat → BitVec 64) : Sint16 :=
  firRound ((List.range 9).foldl (fun y j => y + group j) 0) 0

theorem foldl_accumulators (g h : Nat → BitVec 64) (a b : BitVec 64) (l : List Nat) :
    l.foldl (fun Y j => (Y.1 + g j, Y.2 + h j)) (a, b) =
      (l.foldl (fun y j => y + g j) a, l.foldl (fun y j => y + h j) b) := by
  induction l generalizing a b with
  | nil => rfl
  | cons j l ih => exact ih (a + g j) (b + h j)

theorem firBlk4Inner_eq (dLine coeffs : List Sint16) (i : Nat) :
    firBlk4Inner dLine coeffs filterLengthTaps i = fun Y j =>
      (Y.1 + packedGroup dLine coeffs i j, Y.2 + packedGroup dLine coeffs (i + 1) j) := by
  funext Y j
  have h1 : i + 36 + 4 * j = i + (36 + 4 * j) := by omega
  have h2 : i + 36 + 1 + 4 * j = i + 1 + (36 + 4 * j) := by omega
  simp only [firBlk4Inner, packedGroup, show filterLengthTaps / 2 = 36 from rfl, h1, h2]

theorem firBlk4ScalarInner_eq (dLine coeffs : List Sint16) (i : Nat) :
    firBlk4ScalarInner dLine coeffs filterLengthTaps i = fun Y j =>
      (Y.1 + scalarGroup dLine coeffs i j, Y.2 + scalarGroup dLine coeffs (i + 1) j) := by
  funext Y j
  have hd : ∀ k, i + 4 * j + k = i + (4 * j + k) := fun k => by omega
  have hc : ∀ k, 4 * j + 36 + k = 36 + 4 * j + k := fun k => by omega
  have hs : ∀ k, i + 1 + k = i + (k + 1) := fun k => by omega
  simp only [firBlk4ScalarInner, scalarGroup, show filterLengthTaps / 2 = 36 from rfl, hd,
    hc, hs, Nat.add_assoc, Nat.reduceAdd, Nat.add_zero, Prod.mk.injEq]
  constructor <;> ac_rfl

theorem flatMap_pairs {α : Type} (f : Nat → α) (n : Nat) :
    (List.range n).flatMap (fun m => [f (2 * m), f (2 * m + 1)]) = (List.range (2 * n)).map f := by
  induction n with
  | zero => rfl
  | succ n ih =>
    rw [List.range_succ, List.flatMap_append, ih, Nat.mul_succ, List.range_succ,
      List.range_succ]
    simp

theorem firBlk4_eq (dLine coeffs : List Sint16) (nNew : Nat) :
    firBlk4 dLine nNew filterLengthTaps coeffs 0 =
      (List.range (2 * (nNew / 2))).map fun i => sampleOf (packedGroup dLine coeffs i) := by
  rw [← flatMap_pairs]
  simp only [firBlk4, firBlk4Inner_eq, foldl_accumulators, sampleOf]
  rfl

theorem firBlk4Scalar_eq (dLine coeffs : List Sint16) (nNew : Nat) :
    firBlk4Scalar dLine nNew filterLengthTaps coeffs 0 =
      (List.range (2 * (nNew / 2))).map fun i => sampleOf (scalarGroup dLine coeffs i) := by
  rw [← flatMap_pairs]
  simp only [firBlk4Scalar, firBlk4ScalarInner_eq, foldl_accumulators, sampleOf]
  rfl

/-- The coefficients of one low lane cannot overflow it, in either table. -/
theorem low_weights (table : CoeffTable) {j : Nat} (hj : j < 9) :
    |(table.coeffs.getD (4 * j) 0).toInt| + |(table.coeffs.getD (4 * j + 1) 0).toInt| +
      |(table.coeffs.getD (36 + 4 * j) 0).toInt| +
      |(table.coeffs.getD (36 + 4 * j + 1) 0).toInt| ≤ 65535 := by
  revert j
  cases table <;> decide +kernel

theorem pair_weights (table : CoeffTable) {k : Nat} (hk : k < 71) :
    |(table.coeffs.getD k 0).toInt| + |(table.coeffs.getD (k + 1) 0).toInt| ≤ 65535 := by
  revert k
  cases table <;> decide +kernel

theorem toInt_packedGroup (table : CoeffTable) (dLine : List Sint16) (i : Nat) {j : Nat}
    (hj : j < 9) :
    (packedGroup dLine table.coeffs i j).toInt =
      keptLane dLine table.coeffs i j + if keptLane dLine table.coeffs i j < 0 then -1 else 0 := by
  have hw := low_weights table hj
  have hk := toInt_four (dLine.getD (i + 4 * j) 0) (dLine.getD (i + 4 * j + 1) 0)
    (dLine.getD (i + (36 + 4 * j)) 0) (dLine.getD (i + (36 + 4 * j) + 1) 0) _ _ _ _ hw
  have hl := neg_one_lt_four (dLine.getD (i + 4 * j) 0) (dLine.getD (i + 4 * j + 1) 0)
    (dLine.getD (i + (36 + 4 * j)) 0) (dLine.getD (i + (36 + 4 * j) + 1) 0) _ _ _ _ hw
  change _ = keptLane dLine table.coeffs i j at hk
  change -2147483647 ≤ keptLane dLine table.coeffs i j at hl
  simp only [packedGroup, toInt_widen, mmCvtsi64Si32, mmSraiPi32, mmAddPi32, mmMaddPi16, load64]
  have hb := lane_bounds (mul16 (dLine.getD (i + 4 * j) 0) (table.coeffs.getD (4 * j) 0) +
    mul16 (dLine.getD (i + 4 * j + 1) 0) (table.coeffs.getD (4 * j + 1) 0) +
    (mul16 (dLine.getD (i + (36 + 4 * j)) 0) (table.coeffs.getD (36 + 4 * j) 0) +
      mul16 (dLine.getD (i + (36 + 4 * j) + 1) 0) (table.coeffs.getD (36 + 4 * j + 1) 0)))
  rw [hk] at hb
  rw [toInt_add] <;> rw [toInt_sshiftRight_all, hk] <;> split <;> omega

theorem toInt_scalarGroup (table : CoeffTable) (dLine : List Sint16) (i : Nat) {j : Nat}
    (hj : j < 9) :
    (scalarGroup dLine table.coeffs i j).toInt =
      keptLane dLine table.coeffs i j + droppedLane dLine table.coeffs i j := by
  have hp : ∀ k, k < 71 →
      (mul16 (dLine.getD (i + k) 0) (table.coeffs.getD k 0) +
        mul16 (dLine.getD (i + k + 1) 0) (table.coeffs.getD (k + 1) 0)).toInt =
      tap dLine table.coeffs i k + tap dLine table.coeffs i (k + 1) := fun k hk =>
    toInt_two _ _ _ _ (pair_weights table hk)
  simp only [scalarGroup, scalarPair, toInt_four_lanes]
  rw [hp _ (by omega), hp _ (by omega), hp _ (by omega), hp _ (by omega)]
  simp only [keptLane, droppedLane, Nat.add_assoc]
  ring

/-- Adding half a step, shifting and narrowing lose nothing far inside 64 bits. -/
theorem rounding_exact {Y : BitVec 64} (hY : |Y.toInt| < 2 ^ 39) :
    (Y + BitVec.ofNat 64 (2 ^ (14 - 0))).toInt = Y.toInt + 2 ^ 14 ∧
      ((Y + BitVec.ofNat 64 (2 ^ (14 - 0))).sshiftRight (15 - 0)).toInt =
        (Y.toInt + 2 ^ 14) / 2 ^ 15 ∧
      (((Y + BitVec.ofNat 64 (2 ^ (14 - 0))).sshiftRight (15 - 0)).setWidth 32).toInt =
        ((Y + BitVec.ofNat 64 (2 ^ (14 - 0))).sshiftRight (15 - 0)).toInt := by
  have hb := abs_lt.1 hY
  have hc : (BitVec.ofNat 64 (2 ^ (14 - 0))).toInt = 16384 := by decide
  have hs : (Y + BitVec.ofNat 64 (2 ^ (14 - 0))).toInt = Y.toInt + 16384 := by
    rw [← hc]
    exact toInt_add64 (c := 16384) hY.le (by rw [hc]; norm_num) (by norm_num)
  have hq : ((Y + BitVec.ofNat 64 (2 ^ (14 - 0))).sshiftRight (15 - 0)).toInt =
      (Y.toInt + 16384) / 32768 := by
    rw [BitVec.toInt_sshiftRight, hs, Int.shiftRight_eq_div_pow]
    norm_num
  refine ⟨hs, hq, toInt_narrow _ (by norm_num) ?_ ?_ (by norm_num)⟩
  · rw [hq]
    norm_num at hb ⊢
    omega
  · rw [hq]
    norm_num at hb ⊢
    omega

theorem toInt_firRound (Y : BitVec 64) (hY : |Y.toInt| ≤ 8589934592 * 9) :
    (firRound Y 0).toInt = saturateInt ((Y.toInt + 2 ^ 14) >>> (15 : Nat)) := by
  obtain ⟨-, hq, hw⟩ := rounding_exact (Y := Y) (by linarith)
  rw [hq] at hw
  have hf : (Y.toInt + 2 ^ 14) >>> (15 : Nat) = (Y.toInt + 2 ^ 14) / 2 ^ 15 := by
    rw [Int.shiftRight_eq_div_pow]
    rfl
  rw [firRound, saturate16, hw, hf, saturateInt]
  split
  · rfl
  · split
    · rfl
    · rename_i h1 h2
      simp only [shrtMax, shrtMin] at h1 h2
      rw [toInt_narrow _ (by norm_num) (by rw [hw]; norm_num at h2 ⊢; omega)
        (by rw [hw]; norm_num at h1 ⊢; omega) (by norm_num), hw]

/-- The packed output: the filter sum less the lane loss, rounded and saturated. -/
theorem toInt_packed_sample (table : CoeffTable) (dLine : List Sint16) (i : Nat) :
    (sampleOf (packedGroup dLine table.coeffs i)).toInt =
      saturateInt ((convolution dLine table.coeffs i - laneLoss dLine table.coeffs i + 2 ^ 14) >>>
        (15 : Nat)) := by
  obtain ⟨hv, hb⟩ := toInt_foldl_add (packedGroup dLine table.coeffs i) 9 (by norm_num)
    fun j _ => abs_widen_le _
  have hsum : ∑ j ∈ Finset.range 9, (packedGroup dLine table.coeffs i j).toInt =
      convolution dLine table.coeffs i - laneLoss dLine table.coeffs i := by
    rw [convolution_eq_lanes, laneLoss, ← Finset.sum_sub_distrib]
    refine Finset.sum_congr rfl fun j hj => ?_
    rw [toInt_packedGroup table dLine i (Finset.mem_range.1 hj)]
    split <;> ring
  rw [sampleOf, toInt_firRound _ (by rw [hv]; exact hb), hv, hsum]

theorem toInt_scalar_sample (table : CoeffTable) (dLine : List Sint16) (i : Nat) :
    (sampleOf (scalarGroup dLine table.coeffs i)).toInt = filterValue dLine table.coeffs i := by
  obtain ⟨hv, hb⟩ := toInt_foldl_add (scalarGroup dLine table.coeffs i) 9 (by norm_num)
    fun j _ => abs_four_lanes_le _ _ _ _
  have hsum : ∑ j ∈ Finset.range 9, (scalarGroup dLine table.coeffs i j).toInt =
      convolution dLine table.coeffs i := by
    rw [convolution_eq_lanes]
    exact Finset.sum_congr rfl fun j hj =>
      toInt_scalarGroup table dLine i (Finset.mem_range.1 hj)
  rw [sampleOf, toInt_firRound _ (by rw [hv]; exact hb), hv, hsum, filterValue]

theorem saturateInt_sub_eq_iff (sum loss : Int) :
    saturateInt ((sum - loss) >>> (15 : Nat)) = saturateInt (sum >>> (15 : Nat)) ↔
      (0 ≤ sum % 2 ^ 15 - loss ∧ sum % 2 ^ 15 - loss < 2 ^ 15) ∨
        (shrtMax * 2 ^ 15 ≤ sum ∧ shrtMax * 2 ^ 15 ≤ sum - loss) ∨
        (sum < (shrtMin + 1) * 2 ^ 15 ∧ sum - loss < (shrtMin + 1) * 2 ^ 15) := by
  rw [Int.shiftRight_eq_div_pow, Int.shiftRight_eq_div_pow]
  norm_num [saturateInt, shrtMax, shrtMin]
  split <;> split <;> omega

theorem packed_sample_exact_iff (table : CoeffTable) (dLine : List Sint16) (i : Nat) :
    (sampleOf (packedGroup dLine table.coeffs i)).toInt = filterValue dLine table.coeffs i ↔
      LossAbsorbed dLine table.coeffs i := by
  rw [toInt_packed_sample, filterValue, LossAbsorbed, ← saturateInt_sub_eq_iff,
    sub_add_eq_add_sub]

/-- The packed filter is exact at precisely the outputs whose loss is absorbed, for every
delay line and both tables. -/
theorem firBlk4_exact_iff_lossAbsorbed (table : CoeffTable) (dLine : List Sint16) (nNew : Nat)
    (heven : nNew % 2 = 0) :
    FilterExact table dLine nNew ↔ ∀ i < nNew, LossAbsorbed dLine table.coeffs i := by
  have hn : 2 * (nNew / 2) = nNew := by omega
  have hget : ∀ i < nNew, (firBlk4 dLine nNew filterLengthTaps table.coeffs 0)[i]? =
      some (sampleOf (packedGroup dLine table.coeffs i)) := by
    intro i hi
    rw [firBlk4_eq, hn, List.getElem?_map, List.getElem?_range hi, Option.map_some]
  constructor
  · intro h i hi
    obtain ⟨y, hy, hv⟩ := h.value i hi
    rw [hget i hi, Option.some.injEq] at hy
    exact (packed_sample_exact_iff table dLine i).1 (hy ▸ hv)
  · intro h
    have hv : ∀ i < nNew,
        (sampleOf (packedGroup dLine table.coeffs i)).toInt = filterValue dLine table.coeffs i :=
      fun i hi => (packed_sample_exact_iff table dLine i).2 (h i hi)
    refine ⟨fun i hi => ⟨_, hget i hi, hv i hi⟩, ?_⟩
    rw [firBlk4_eq, firBlk4Scalar_eq, hn]
    refine List.map_congr_left fun i hi => BitVec.eq_of_toInt_eq ?_
    rw [hv i (List.mem_range.1 hi), toInt_scalar_sample]

def clickLine : List Sint16 := [0, 0, 32767] ++ List.replicate 70 0

/-- The loudest click in a dropped lane that the rounding still absorbs. -/
def faintClick : List Sint16 := [0, 0, 862] ++ List.replicate 70 0

theorem firBlk4_exact_iff_lossAbsorbed_faintClick :
    laneLoss faintClick CoeffTable.decimation.coeffs 0 = -16378 ∧
      FilterExact .decimation faintClick 2 :=
  ⟨by decide +kernel,
    (firBlk4_exact_iff_lossAbsorbed .decimation faintClick 2 (by decide)).2 (by decide +kernel)⟩

/-- The filter answers 0 to a click whose first output is -19. -/
theorem firBlk4_click_not_exact : ¬ FilterExact .decimation clickLine 2 := by
  intro h
  obtain ⟨y, hy, hv⟩ := h.value 0 (by decide)
  have h0 : (firBlk4 clickLine 2 filterLengthTaps CoeffTable.decimation.coeffs 0)[0]? = some 0 := by
    decide +kernel
  have hf : filterValue clickLine CoeffTable.decimation.coeffs 0 = -19 := by decide +kernel
  rw [h0, Option.some.injEq] at hy
  rw [← hy, hf] at hv
  exact absurd hv (by decide)

end RtpServer.Verify.FilterLanes
