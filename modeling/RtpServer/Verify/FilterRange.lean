import RtpServer.Verify.Resampler

/-!
# Ranges in the resampler

Inside the filter no 32-bit lane, sum or cast loses anything, whatever the samples. Behind
it the level restore does: the scaling leaves room for a factor of four while the taps the
filter applies add up to more than one, so a frame that matches their signs wraps.
-/
namespace RtpServer.Verify.FilterRange

open RtpServer.Source RtpServer.Library RtpServer.Library.Lanes RtpServer.Source.Upd
open RtpServer.Source.FirFilter RtpServer.Source.SampleRate RtpServer.Verify.FilterLanes
open RtpServer.Verify.Resampler

def InLane (x : Int) : Prop := -2 ^ 31 ≤ x ∧ x ≤ 2 ^ 31 - 1

/-- The lane holds the integer `x`, which fits. -/
def HoldsExactly (lane : BitVec 32) (x : Int) : Prop := lane.toInt = x ∧ InLane x

theorem holdsExactly_of_eq {lane : BitVec 32} {x : Int} (h : lane.toInt = x) :
    HoldsExactly lane x := by
  have hb := lane_bounds lane
  rw [h] at hb
  exact ⟨h, by unfold InLane; omega⟩

def taps (dLine coeffs : List Sint16) (i k : Nat) : Pi32 :=
  mmMaddPi16 (load64 dLine (i + k)) (load64 coeffs k)

/-- `res1`, and `res4` for the next position: group `j` of the output at `i`. -/
def groupLanes (dLine coeffs : List Sint16) (i j : Nat) : Pi32 :=
  mmAddPi32 (taps dLine coeffs i (4 * j)) (taps dLine coeffs i (36 + 4 * j))

/-- The 32-bit operations that make group `j` of the output at position `i`. -/
structure GroupExact (coeffs dLine : List Sint16) (i j : Nat) : Prop where
  madd : ∀ k, k = 4 * j ∨ k = 36 + 4 * j →
    HoldsExactly (taps dLine coeffs i k).lo
        (tap dLine coeffs i k + tap dLine coeffs i (k + 1)) ∧
      HoldsExactly (taps dLine coeffs i k).hi
        (tap dLine coeffs i (k + 2) + tap dLine coeffs i (k + 3))
  add : HoldsExactly (groupLanes dLine coeffs i j).lo (keptLane dLine coeffs i j) ∧
    HoldsExactly (groupLanes dLine coeffs i j).hi (droppedLane dLine coeffs i j)
  sign : HoldsExactly ((groupLanes dLine coeffs i j).lo +
      (mmSraiPi32 (groupLanes dLine coeffs i j) 32).lo)
    (keptLane dLine coeffs i j + if keptLane dLine coeffs i j < 0 then -1 else 0)

/-- The products the packed filter applies at position `i`, with the sign it adds. -/
def appliedSum (dLine coeffs : List Sint16) (i n : Nat) : Int :=
  ∑ j ∈ Finset.range n,
    (keptLane dLine coeffs i j + if keptLane dLine coeffs i j < 0 then -1 else 0)

/-- An accumulator of `fir_blk4` holds `x`, far inside the 40 bits it stands for. -/
def SumExact (Y : BitVec 64) (x : Int) : Prop := Y.toInt = x ∧ |x| < 2 ^ 39

/-- The rounding and the cast after the inner loop. -/
structure RoundExact (Y : BitVec 64) : Prop where
  round : (Y + BitVec.ofNat 64 (2 ^ (14 - 0))).toInt = Y.toInt + 2 ^ 14
  shift : ((Y + BitVec.ofNat 64 (2 ^ (14 - 0))).sshiftRight (15 - 0)).toInt =
    (Y.toInt + 2 ^ 14) / 2 ^ 15
  cast : (((Y + BitVec.ofNat 64 (2 ^ (14 - 0))).sshiftRight (15 - 0)).setWidth 32).toInt =
    ((Y + BitVec.ofNat 64 (2 ^ (14 - 0))).sshiftRight (15 - 0)).toInt

/-- All the arithmetic of one pass of the outer loop, for the outputs at `d` and `d + 1`. -/
structure PassExact (coeffs dLine : List Sint16) (d : Nat) : Prop where
  group : ∀ j < 9, GroupExact coeffs dLine d j ∧ GroupExact coeffs dLine (d + 1) j
  sums : ∀ n ≤ 9,
    let Y := (List.range n).foldl (firBlk4Inner dLine coeffs filterLengthTaps d) (0, 0)
    SumExact Y.1 (appliedSum dLine coeffs d n) ∧ SumExact Y.2 (appliedSum dLine coeffs (d + 1) n)
  rounding :
    let Y := (List.range 9).foldl (firBlk4Inner dLine coeffs filterLengthTaps d) (0, 0)
    RoundExact Y.1 ∧ RoundExact Y.2

/-- As `low_weights`, for the lanes whose products are dropped. -/
theorem high_weights (table : CoeffTable) {j : Nat} (hj : j < 9) :
    |(table.coeffs.getD (4 * j + 2) 0).toInt| + |(table.coeffs.getD (4 * j + 3) 0).toInt| +
      |(table.coeffs.getD (36 + 4 * j + 2) 0).toInt| +
      |(table.coeffs.getD (36 + 4 * j + 3) 0).toInt| ≤ 65535 := by
  revert j
  cases table <;> decide +kernel

theorem toInt_taps (table : CoeffTable) (dLine : List Sint16) (i : Nat) {k : Nat} (hk : k < 69) :
    (taps dLine table.coeffs i k).lo.toInt =
        tap dLine table.coeffs i k + tap dLine table.coeffs i (k + 1) ∧
      (taps dLine table.coeffs i k).hi.toInt =
        tap dLine table.coeffs i (k + 2) + tap dLine table.coeffs i (k + 3) := by
  constructor
  · exact toInt_two _ _ _ _ (pair_weights table (by omega))
  · exact toInt_two _ _ _ _ (pair_weights table (show k + 2 < 71 by omega))

theorem toInt_groupLanes (table : CoeffTable) (dLine : List Sint16) (i : Nat) {j : Nat}
    (hj : j < 9) :
    (groupLanes dLine table.coeffs i j).lo.toInt = keptLane dLine table.coeffs i j ∧
      (groupLanes dLine table.coeffs i j).hi.toInt = droppedLane dLine table.coeffs i j := by
  constructor
  · exact toInt_four _ _ _ _ _ _ _ _ (low_weights table hj)
  · exact toInt_four _ _ _ _ _ _ _ _ (high_weights table hj)

theorem groupExact (table : CoeffTable) (dLine : List Sint16) (i : Nat) {j : Nat} (hj : j < 9) :
    GroupExact table.coeffs dLine i j where
  madd k hk := by
    obtain ⟨hlo, hhi⟩ := toInt_taps table dLine i (k := k) (by omega)
    exact ⟨holdsExactly_of_eq hlo, holdsExactly_of_eq hhi⟩
  add := by
    obtain ⟨hlo, hhi⟩ := toInt_groupLanes table dLine i hj
    exact ⟨holdsExactly_of_eq hlo, holdsExactly_of_eq hhi⟩
  sign := by
    have h := toInt_packedGroup table dLine i hj
    rw [packedGroup, toInt_widen] at h
    exact holdsExactly_of_eq h

theorem sumExact_foldl (table : CoeffTable) (dLine : List Sint16) (i : Nat) {n : Nat}
    (hn : n ≤ 9) :
    SumExact ((List.range n).foldl (fun y j => y + packedGroup dLine table.coeffs i j) 0)
      (appliedSum dLine table.coeffs i n) := by
  obtain ⟨hv, hb⟩ := toInt_foldl_add (packedGroup dLine table.coeffs i) n (by omega)
    fun j _ => abs_widen_le _
  have hsum : ∑ j ∈ Finset.range n, (packedGroup dLine table.coeffs i j).toInt =
      appliedSum dLine table.coeffs i n :=
    Finset.sum_congr rfl fun j hj =>
      toInt_packedGroup table dLine i ((Finset.mem_range.1 hj).trans_le hn)
  rw [hsum] at hv hb
  refine ⟨hv, hb.trans_lt ?_⟩
  have hn' : (n : Int) ≤ 9 := by exact_mod_cast hn
  linarith

theorem roundExact {Y : BitVec 64} {x : Int} (h : SumExact Y x) : RoundExact Y := by
  obtain ⟨hx, hb⟩ := h
  rw [← hx] at hb
  obtain ⟨hs, hq, hw⟩ := rounding_exact hb
  exact ⟨hs, hq, hw⟩

/-- No step of the filter loses anything: for every delay line, downscaled or not, and both
tables. -/
theorem firBlk4_arithmetic_exact (table : CoeffTable) (dLine : List Sint16) (d : Nat) :
    PassExact table.coeffs dLine d := by
  have hsums : ∀ n ≤ 9,
      let Y := (List.range n).foldl (firBlk4Inner dLine table.coeffs filterLengthTaps d) (0, 0)
      SumExact Y.1 (appliedSum dLine table.coeffs d n) ∧
        SumExact Y.2 (appliedSum dLine table.coeffs (d + 1) n) := by
    intro n hn
    rw [firBlk4Inner_eq, foldl_accumulators]
    exact ⟨sumExact_foldl table dLine d hn, sumExact_foldl table dLine (d + 1) hn⟩
  refine ⟨fun j hj => ⟨groupExact table dLine d hj, groupExact table dLine (d + 1) hj⟩, hsums, ?_⟩
  obtain ⟨h1, h2⟩ := hsums 9 le_rfl
  exact ⟨roundExact h1, roundExact h2⟩

theorem shl_eq (v : Sint16) (n : Nat) : shl v n = v <<< n := by
  have hv : (v.signExtend 32).setWidth 16 = v := by
    ext i hi
    rw [BitVec.getElem_setWidth, BitVec.getLsbD_signExtend, if_pos hi, BitVec.getLsbD_eq_getElem hi]
    simp [show i < 32 by omega]
  rw [shl, BitVec.setWidth_shiftLeft_of_le (by decide), hv]

theorem toInt_restore (v : Sint16) : (restore v).toInt = (v.toInt * 4).bmod 65536 := by
  rw [restore, shl_eq, scalingBits, BitVec.shiftLeft_eq_mul_twoPow, BitVec.toInt_mul]
  rfl

/-- `upscale` gives back four times the value. -/
structure RestoredExactly (v : Sint16) : Prop where
  range : -8192 ≤ v.toInt ∧ v.toInt ≤ 8191
  exact : (shl v scalingBits).toInt = 4 * v.toInt
  sign : (shl v scalingBits).toInt < 0 ↔ v.toInt < 0

theorem restoredExactly_iff (v : Sint16) :
    RestoredExactly v ↔ -8192 ≤ v.toInt ∧ v.toInt ≤ 8191 := by
  constructor
  · exact RestoredExactly.range
  · intro h
    have hexact : (shl v scalingBits).toInt = 4 * v.toInt := by
      change (restore v).toInt = _
      rw [toInt_restore, Int.bmod_eq_of_le] <;> omega
    exact ⟨h, hexact, by omega⟩

instance (v : Sint16) : Decidable (RestoredExactly v) := decidable_of_iff' _ (restoredExactly_iff v)

/-- What the taps at position `i` add up to, before the rounding, stays within a quarter of
full scale. -/
def LevelKept (dLine coeffs : List Sint16) (i : Nat) : Prop :=
  -(2 ^ 28 + 2 ^ 14) ≤ appliedSum dLine coeffs i 9 ∧
    appliedSum dLine coeffs i 9 < 2 ^ 28 - 2 ^ 14

theorem appliedSum_eq (dLine coeffs : List Sint16) (i : Nat) :
    appliedSum dLine coeffs i 9 = convolution dLine coeffs i - laneLoss dLine coeffs i := by
  rw [convolution_eq_lanes, laneLoss, ← Finset.sum_sub_distrib]
  apply Finset.sum_congr rfl
  intro j _
  split <;> ring

theorem toInt_sample (table : CoeffTable) (dLine : List Sint16) (i : Nat) :
    (sampleOf (packedGroup dLine table.coeffs i)).toInt =
      saturateInt ((appliedSum dLine table.coeffs i 9 + 2 ^ 14) / 2 ^ 15) := by
  rw [toInt_packed_sample, ← appliedSum_eq, Int.shiftRight_eq_div_pow]
  rfl

theorem sample_restored_iff (table : CoeffTable) (dLine : List Sint16) (i : Nat) :
    RestoredExactly (sampleOf (packedGroup dLine table.coeffs i)) ↔
      LevelKept dLine table.coeffs i := by
  rw [restoredExactly_iff, toInt_sample, saturateInt, LevelKept, shrtMax, shrtMin]
  norm_num
  split
  · omega
  · split <;> omega

theorem decimator_restored_iff (line : List Sint16) (n : Nat) :
    (∀ v ∈ decimator.outputs line n, RestoredExactly v) ↔
      ∀ m < n, LevelKept (downscale line) coeffDec (2 * m) := by
  have hiff := sample_restored_iff .decimation (downscale line)
  constructor
  · intro h m hm
    refine (hiff (2 * m)).1 (h _ (decimator.mem_outputs.2 ⟨m, hm, ?_⟩))
    rw [decimator_window_drop]
    exact List.mem_singleton_self _
  · intro h v hv
    obtain ⟨m, hm, hv⟩ := decimator.mem_outputs.1 hv
    rw [decimator_window_drop, List.mem_singleton] at hv
    rw [hv]
    exact (hiff (2 * m)).2 (h m hm)

/-- The interpolator makes two outputs for each sample. -/
theorem forall_pairs_iff (P : Nat → Prop) (n : Nat) :
    (∀ k < n, P (2 * k) ∧ P (2 * k + 1)) ↔ ∀ i < 2 * n, P i := by
  constructor
  · intro h i hi
    obtain ⟨heven, hodd⟩ := h (i / 2) (by omega)
    rcases Nat.mod_two_eq_zero_or_one i with hmod | hmod
    · rwa [show 2 * (i / 2) = i by omega] at heven
    · rwa [show 2 * (i / 2) + 1 = i by omega] at hodd
  · intro h k hk
    exact ⟨h (2 * k) (by omega), h (2 * k + 1) (by omega)⟩

theorem interpolator_restored_iff (line : List Sint16) (n : Nat) :
    (∀ v ∈ interpolator.outputs line n, RestoredExactly v) ↔
      ∀ i < 2 * n, LevelKept (stuffed line) coeffInt i := by
  have hiff := sample_restored_iff .interpolation (stuffed line)
  rw [← forall_pairs_iff]
  constructor
  · intro h k hk
    have hpair : ∀ v ∈ interpolator.window (line.drop (interpolator.hop * k)), RestoredExactly v :=
      fun v hv => h v (interpolator.mem_outputs.2 ⟨k, hk, hv⟩)
    rw [interpolator_window_drop, List.forall_mem_cons, List.forall_mem_singleton] at hpair
    exact ⟨(hiff _).1 hpair.1, (hiff _).1 hpair.2⟩
  · intro h v hv
    obtain ⟨k, hk, hv⟩ := interpolator.mem_outputs.1 hv
    obtain ⟨heven, hodd⟩ := h k hk
    rw [interpolator_window_drop, List.mem_pair] at hv
    rcases hv with hv | hv
    · rw [hv]
      exact (hiff _).2 heven
    · rw [hv]
      exact (hiff _).2 hodd

/-- In a run of either direction every value is restored exactly if and only if the stream
keeps the level at every position the filter stops at. -/
theorem level_restored_iff (extra : Uint32) :
    (∀ (internal : MSrcDownInternal) (calls : List DownCall),
      let stream := calls.flatMap DownCall.samples
      (∀ a ∈ srcDown.outputs ⟨extra, some internal⟩ calls, ∀ v ∈ a.passed, RestoredExactly v) ↔
        ∀ m < stream.length / 2,
          LevelKept (downscale (internal.delaybuffer.cells ++ stream)) coeffDec (2 * m)) ∧
    (∀ (internal : MSrcUpInternal) (calls : List UpCall),
      let stream := calls.flatMap UpCall.samples
      (∀ a ∈ srcUp.outputs ⟨extra, some internal⟩ calls, ∀ v ∈ a.passed, RestoredExactly v) ↔
        ∀ i < 2 * stream.length,
          LevelKept (stuffed (internal.delaybuffer.cells ++ downscale stream)) coeffInt i) := by
  have hall : ∀ (l : List ResamplerAnswer) (P : Sint16 → Prop),
      (∀ a ∈ l, ∀ v ∈ a.passed, P v) ↔ ∀ v ∈ l.flatMap ResamplerAnswer.passed, P v := by
    intro l P
    simp only [List.mem_flatMap]
    exact ⟨fun h v ⟨a, ha, hv⟩ => h a ha v hv, fun h a ha v hv => h v ⟨a, ha, hv⟩⟩
  constructor
  · intro internal calls stream
    have hholds : HoldsDown ⟨extra, some internal⟩ internal.delaybuffer.cells := ⟨_, rfl, rfl⟩
    have hrun := srcDown_refines.run hholds internal.delaybuffer.size_eq calls
    rw [hall, hrun.2]
    exact decimator_restored_iff _ _
  · intro internal calls stream
    have hholds : HoldsUp ⟨extra, some internal⟩ internal.delaybuffer.cells := ⟨_, rfl, rfl⟩
    have hrun := srcUp_refines.run hholds internal.delaybuffer.size_eq calls
    rw [hall, hrun.2, flatMap_downscale, length_downscale, show interpolator.hop = 1 from rfl,
      Nat.div_one]
    exact interpolator_restored_iff _ _

/-- Full-scale samples with the signs of the coefficients. -/
def loudSamples : List Sint16 :=
  0 :: coeffDec.map fun c => if 0 < c.toInt then 32767 else -32768

def silentCall : DownCall := downCall isPcmMode_05 (Buffer.replicate _ 0)

def loudCall : DownCall := downCall isPcmMode_05 ((Buffer.replicate _ 0).write 0 loudSamples)

def silentLine : MSrcDownInternal := ⟨Buffer.replicate _ 0⟩

def loudStream : List Sint16 := List.replicate 80 0 ++ loudSamples ++ List.replicate 7 0

def loudLine : List Sint16 := silentLine.delaybuffer.cells ++ loudStream

theorem toInt_loud_sample :
    (sampleOf (packedGroup (downscale loudLine) coeffDec (2 * 76))).toInt = 8333 := by
  decide +kernel

/-- After a silent packet the loud one makes the filter answer 8333, which is restored to
-32204. -/
theorem level_not_restored_loud :
    ¬ ∀ a ∈ srcDown.outputs ⟨0, some silentLine⟩ [silentCall, loudCall], ∀ v ∈ a.passed,
      RestoredExactly v := by
  intro h
  have hholds : HoldsDown ⟨0, some silentLine⟩ silentLine.delaybuffer.cells := ⟨_, rfl, rfl⟩
  have hrun := srcDown_refines.run hholds silentLine.delaybuffer.size_eq [silentCall, loudCall]
  have hstream : [silentCall, loudCall].flatMap DownCall.samples = loudStream := by
    decide +kernel
  have hlen : loudStream.length / decimator.hop = 80 := by decide +kernel
  have hmem : sampleOf (packedGroup (downscale loudLine) coeffDec (2 * 76)) ∈
      decimator.outputs loudLine 80 := by
    refine decimator.mem_outputs.2 ⟨76, by decide, ?_⟩
    rw [decimator_window_drop]
    exact List.mem_singleton_self _
  rw [hstream, hlen] at hrun
  rw [loudLine, ← hrun.2] at hmem
  obtain ⟨a, ha, hv⟩ := List.mem_flatMap.1 hmem
  have hrange := (h a ha _ hv).range.2
  rw [← loudLine, toInt_loud_sample] at hrange
  exact absurd hrange (by decide)

example : (shl (8333 : Sint16) scalingBits).toInt = -32204 := by decide

end RtpServer.Verify.FilterRange
