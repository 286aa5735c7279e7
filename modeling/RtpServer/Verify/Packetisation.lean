import RtpServer.Verify.FilterRange

/-!
# Streams of packets

What a sequence of accepted packets makes of a sample stream: the cut into packets does not
show, and the memory the delay line was allocated in does, at the first positions only.
-/
namespace RtpServer.Verify.Packetisation

open RtpServer.Source RtpServer.Library RtpServer.Source.Upd RtpServer.Source.SampleRate
open RtpServer.Verify.FilterLanes RtpServer.Verify.Resampler RtpServer.Verify.FilterRange

theorem holdsDown_unique {master master' : MSrcDownData} {delay : List Sint16}
    (h : HoldsDown master delay) (h' : HoldsDown master' delay) :
    master.internal = master'.internal := by
  obtain ⟨⟨b⟩, hi, rfl⟩ := h
  obtain ⟨⟨b'⟩, hi', hc⟩ := h'
  have hb : b' = b := Buffer.ext hc
  rw [hi, hi', hb]

theorem holdsUp_unique {master master' : MSrcUpData} {delay : List Sint16}
    (h : HoldsUp master delay) (h' : HoldsUp master' delay) :
    master.internal = master'.internal := by
  obtain ⟨⟨b⟩, hi, rfl⟩ := h
  obtain ⟨⟨b'⟩, hi', hc⟩ := h'
  have hb : b' = b := Buffer.ext hc
  rw [hi, hi', hb]

/-- Two cuts of one stream into accepted packets give the same samples and leave the same
delay line, in both directions and from every delay line. -/
theorem cut_irrelevant (extra : Uint32) :
    (∀ (internal : MSrcDownInternal) (cut cut' : List DownCall),
      cut.flatMap DownCall.samples = cut'.flatMap DownCall.samples →
        let master : MSrcDownData := ⟨extra, some internal⟩
        (srcDown.outputs master cut).flatMap ResamplerAnswer.samples =
            (srcDown.outputs master cut').flatMap ResamplerAnswer.samples ∧
          (srcDown.after master cut).internal = (srcDown.after master cut').internal) ∧
    (∀ (internal : MSrcUpInternal) (cut cut' : List UpCall),
      cut.flatMap UpCall.samples = cut'.flatMap UpCall.samples →
        let master : MSrcUpData := ⟨extra, some internal⟩
        (srcUp.outputs master cut).flatMap ResamplerAnswer.samples =
            (srcUp.outputs master cut').flatMap ResamplerAnswer.samples ∧
          (srcUp.after master cut).internal = (srcUp.after master cut').internal) := by
  constructor
  · intro internal cut cut' hcut master
    have hholds : HoldsDown master internal.delaybuffer.cells := ⟨_, rfl, rfl⟩
    obtain ⟨hrep, hout⟩ :=
      srcDown_refines_restored.run hholds internal.delaybuffer.size_eq cut
    obtain ⟨hrep', hout'⟩ :=
      srcDown_refines_restored.run hholds internal.delaybuffer.size_eq cut'
    rw [hcut] at hrep hout
    exact ⟨hout.trans hout'.symm, holdsDown_unique hrep hrep'⟩
  · intro internal cut cut' hcut master
    have hholds : HoldsUp master internal.delaybuffer.cells := ⟨_, rfl, rfl⟩
    obtain ⟨hrep, hout⟩ := srcUp_refines_restored.run hholds internal.delaybuffer.size_eq cut
    obtain ⟨hrep', hout'⟩ := srcUp_refines_restored.run hholds internal.delaybuffer.size_eq cut'
    rw [flatMap_downscale, hcut, ← flatMap_downscale] at hrep hout
    exact ⟨hout.trans hout'.symm, holdsUp_unique hrep hrep'⟩

def tone : Buffer Sint16 updMaxPayloadSize16 := Buffer.replicate _ 1000

theorem cut_irrelevant_tone :
    (srcDown.after ⟨0, some silentLine⟩ [downCall isPcmMode_10 tone]).internal =
        (srcDown.after ⟨0, some silentLine⟩
          [downCall isPcmMode_05 tone, downCall isPcmMode_05 tone]).internal ∧
      (srcUp.after ⟨0, some ⟨Buffer.replicate _ 0⟩⟩ [upCall isPcmMode_10 tone]).internal =
        (srcUp.after ⟨0, some ⟨Buffer.replicate _ 0⟩⟩
          [upCall isPcmMode_05 tone, upCall isPcmMode_05 tone]).internal :=
  ⟨((cut_irrelevant 0).1 silentLine [downCall isPcmMode_10 tone]
      [downCall isPcmMode_05 tone, downCall isPcmMode_05 tone] (by decide +kernel)).2,
    ((cut_irrelevant 0).2 ⟨Buffer.replicate _ 0⟩ [upCall isPcmMode_10 tone]
      [upCall isPcmMode_05 tone, upCall isPcmMode_05 tone] (by decide +kernel)).2⟩

theorem restore_eq_iff (v w : Sint16) :
    restore v = restore w ↔ (v.toInt - w.toInt) % 2 ^ 14 = 0 := by
  rw [← BitVec.toInt_inj, toInt_restore, toInt_restore]
  simp only [Int.bmod_def]
  norm_num
  split <;> split <;> omega

/-- The output at position `i` of either line: equal up to what the level restore drops. -/
def SameRestored (dLine dLine' coeffs : List Sint16) (i : Nat) : Prop :=
  (saturateInt ((appliedSum dLine coeffs i 9 + 2 ^ 14) / 2 ^ 15) -
    saturateInt ((appliedSum dLine' coeffs i 9 + 2 ^ 14) / 2 ^ 15)) % 2 ^ 14 = 0

theorem restored_sample_eq_iff (table : CoeffTable) (dLine dLine' : List Sint16) (i : Nat) :
    restore (sampleOf (packedGroup dLine table.coeffs i)) =
        restore (sampleOf (packedGroup dLine' table.coeffs i)) ↔
      SameRestored dLine dLine' table.coeffs i := by
  rw [restore_eq_iff, toInt_sample, toInt_sample, SameRestored]

theorem decimator_restored_window (line : List Sint16) (k : Nat) :
    (decimator.map restore).window (line.drop ((decimator.map restore).hop * k)) =
      [restore (sampleOf (packedGroup (downscale line) coeffDec (2 * k)))] :=
  congrArg (List.map restore) (decimator_window_drop line k)

theorem interpolator_restored_window (line : List Sint16) (k : Nat) :
    (interpolator.map restore).window (line.drop ((interpolator.map restore).hop * k)) =
      [restore (sampleOf (packedGroup (stuffed line) coeffInt (2 * k))),
        restore (sampleOf (packedGroup (stuffed line) coeffInt (2 * k + 1)))] :=
  congrArg (List.map restore) (interpolator_window_drop line k)

theorem mSrcDown_start_iff (master : MSrcDownData) (a b : Buffer Sint16 delayBufDownSize16)
    (calls : List DownCall) :
    let stream := calls.flatMap DownCall.samples
    (srcDown.outputs (mSrcDownInit master a).2 calls).map ResamplerAnswer.samples =
        (srcDown.outputs (mSrcDownInit master b).2 calls).map ResamplerAnswer.samples ↔
      ∀ k < stream.length / 2, k < 36 →
        SameRestored (downscale (a.cells ++ stream)) (downscale (b.cells ++ stream)) coeffDec
          (2 * k) := by
  intro stream
  have hholds : ∀ a, HoldsDown (mSrcDownInit master a).2 a.cells := fun _ => ⟨_, rfl, rfl⟩
  rw [srcDown_refines_restored.answers_eq_iff (hholds a) (hholds b) a.size_eq b.size_eq calls]
  refine forall₂_congr fun k _ => imp_congr (show 2 * k < 71 ↔ k < 36 by omega) ?_
  rw [decimator_restored_window, decimator_restored_window, List.singleton_inj]
  exact restored_sample_eq_iff .decimation _ _ _

theorem mSrcUp_start_iff (master : MSrcUpData) (a b : Buffer Sint16 delayBufUpSize16)
    (calls : List UpCall) :
    let stream := downscale (calls.flatMap UpCall.samples)
    (srcUp.outputs (mSrcUpInit master a).2 calls).map ResamplerAnswer.samples =
        (srcUp.outputs (mSrcUpInit master b).2 calls).map ResamplerAnswer.samples ↔
      ∀ i < 2 * stream.length, i < 70 →
        SameRestored (stuffed (a.cells ++ stream)) (stuffed (b.cells ++ stream)) coeffInt i := by
  intro stream
  have hholds : ∀ a, HoldsUp (mSrcUpInit master a).2 a.cells := fun _ => ⟨_, rfl, rfl⟩
  have hiff := restored_sample_eq_iff .interpolation (stuffed (a.cells ++ stream))
    (stuffed (b.cells ++ stream))
  rw [srcUp_refines_restored.answers_eq_iff (hholds a) (hholds b) a.size_eq b.size_eq calls,
    flatMap_downscale]
  have hpairs := forall_pairs_iff (fun i => i < 70 →
    SameRestored (stuffed (a.cells ++ stream)) (stuffed (b.cells ++ stream)) coeffInt i)
    stream.length
  have hhops : stream.length / (interpolator.map restore).hop = stream.length := Nat.div_one _
  rw [← hpairs, hhops]
  apply forall₂_congr
  intro k _
  rw [interpolator_restored_window, interpolator_restored_window, List.cons.injEq,
    List.singleton_inj]
  constructor
  · intro h
    exact ⟨fun hlt => (hiff _).1 (h (show 1 * k < 35 by omega)).1,
      fun hlt => (hiff _).1 (h (show 1 * k < 35 by omega)).2⟩
  · intro h hlt
    have hk : 1 * k < 35 := hlt
    exact ⟨(hiff _).2 (h.1 (by omega)), (hiff _).2 (h.2 (by omega))⟩

/-- After `m_src_down_init` and `m_src_up_init` the outputs are the same for two contents of
the memory allocated if and only if they are at the 36, respectively 70, first positions,
whose windows still reach into it. -/
theorem start_memory_iff (down : MSrcDownData) (up : MSrcUpData) :
    (∀ (a b : Buffer Sint16 delayBufDownSize16) (calls : List DownCall),
      let stream := calls.flatMap DownCall.samples
      (srcDown.outputs (mSrcDownInit down a).2 calls).map ResamplerAnswer.samples =
          (srcDown.outputs (mSrcDownInit down b).2 calls).map ResamplerAnswer.samples ↔
        ∀ k < stream.length / 2, k < 36 →
          SameRestored (downscale (a.cells ++ stream)) (downscale (b.cells ++ stream)) coeffDec
            (2 * k)) ∧
    (∀ (a b : Buffer Sint16 delayBufUpSize16) (calls : List UpCall),
      let stream := downscale (calls.flatMap UpCall.samples)
      (srcUp.outputs (mSrcUpInit up a).2 calls).map ResamplerAnswer.samples =
          (srcUp.outputs (mSrcUpInit up b).2 calls).map ResamplerAnswer.samples ↔
        ∀ i < 2 * stream.length, i < 70 →
          SameRestored (stuffed (a.cells ++ stream)) (stuffed (b.cells ++ stream)) coeffInt i) :=
  ⟨mSrcDown_start_iff down, mSrcUp_start_iff up⟩

def clearMemory : Buffer Sint16 delayBufDownSize16 := Buffer.replicate _ 0

def usedMemory : Buffer Sint16 delayBufDownSize16 := Buffer.replicate _ 8000

/-- A silent packet is heard when the memory was used before. -/
theorem start_memory_heard :
    (srcDown.outputs (mSrcDownInit ⟨0, none⟩ clearMemory).2 [silentCall]).map
        ResamplerAnswer.samples ≠
      (srcDown.outputs (mSrcDownInit ⟨0, none⟩ usedMemory).2 [silentCall]).map
        ResamplerAnswer.samples := by
  have hholds : ∀ a, HoldsDown (mSrcDownInit ⟨0, none⟩ a).2 a.cells := fun _ => ⟨_, rfl, rfl⟩
  have hstream : [silentCall].flatMap DownCall.samples = List.replicate 80 0 := by
    decide +kernel
  have hfirst : restore (sampleOf (packedGroup (downscale (clearMemory.cells ++
      List.replicate 80 0)) coeffDec (2 * 0))) ≠ restore (sampleOf (packedGroup (downscale
        (usedMemory.cells ++ List.replicate 80 0)) coeffDec (2 * 0))) := by
    decide +kernel
  intro h
  rw [srcDown_refines_restored.answers_eq_iff (hholds clearMemory) (hholds usedMemory)
    clearMemory.size_eq usedMemory.size_eq, hstream] at h
  have h0 := h 0 (by decide) (by decide)
  rw [decimator_restored_window, decimator_restored_window, List.singleton_inj] at h0
  exact hfirst h0

end RtpServer.Verify.Packetisation
