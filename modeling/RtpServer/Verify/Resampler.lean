import RtpServer.Library.BlockFilter
import RtpServer.Verify.FilterLanes

/-!
# The sample rate converter as a block filter

Each direction computes one group of outputs from every new sample pair, or sample, and
keeps exactly the samples the next packet needs, so a stream may be cut into packets in
any way.
-/
namespace RtpServer.Verify.Resampler

open RtpServer.Source RtpServer.Library RtpServer.Source.TypeDef RtpServer.Source.Upd
open RtpServer.Source.FirFilter RtpServer.Source.SampleRate RtpServer.Verify.FilterLanes

/-- The samples of a PCM packet, as many as its header says. -/
def pcmSamples {n : Nat} (packet : UpdPacket n) : List Sint16 :=
  packet.payload.cells.take (lUpdGetPayloadSize1 packet.toUpdHeader / 16)

theorem packedGroup_congr {line line' : List Sint16} (coeffs : List Sint16) {i i' : Nat}
    (h : ∀ k < 72, line.getD (i + k) 0 = line'.getD (i' + k) 0) {j : Nat}
    (hj : j < 9) : packedGroup line coeffs i j = packedGroup line' coeffs i' j := by
  have hload : ∀ k, k + 3 < 72 → load64 line (i + k) = load64 line' (i' + k) := by
    intro k hk
    simp only [load64, Nat.add_assoc, h k (by omega), h (k + 1) (by omega), h (k + 2) (by omega),
      h (k + 3) hk]
  simp only [packedGroup, hload (4 * j) (by omega), hload (36 + 4 * j) (by omega)]

/-- An output of the filter depends on the 72 samples from its position on. -/
theorem packed_sample_congr {line line' : List Sint16} (coeffs : List Sint16) {i i' : Nat}
    (h : ∀ k < 72, line.getD (i + k) 0 = line'.getD (i' + k) 0) :
    sampleOf (packedGroup line coeffs i) = sampleOf (packedGroup line' coeffs i') := by
  have hf : ∀ l : List Nat, (∀ j ∈ l, j < 9) → ∀ y,
      l.foldl (fun y j => y + packedGroup line coeffs i j) y =
        l.foldl (fun y j => y + packedGroup line' coeffs i' j) y := by
    intro l hl y
    apply List.foldl_ext
    intro y j hj
    rw [packedGroup_congr coeffs h (hl j hj)]
  rw [sampleOf, sampleOf, hf _ fun j hj => List.mem_range.1 hj]

@[simp] theorem getD_downscale (line : List Sint16) (k : Nat) :
    (downscale line).getD k 0 = shr (line.getD k 0) scalingBits :=
  List.getD_map line 0 fun s => shr s scalingBits

@[simp] theorem length_downscale (line : List Sint16) : (downscale line).length = line.length :=
  List.length_map _

theorem downscale_drop (line : List Sint16) (k : Nat) :
    downscale (line.drop k) = (downscale line).drop k := List.map_drop

/-- The values given to `upscale` for one accepted frame. -/
def decimated (internal : MSrcDownInternal) (payloadIn : List Sint16) (size : Nat) : List Sint16 :=
  let new16Khz := size8KhzTo16Khz size
  let dline := downscale (internal.delaybuffer.cells ++ payloadIn.take new16Khz)
  let outvec := firBlk4 dline new16Khz filterLengthTaps coeffDec 0
  (List.range size).map fun i => outvec.getD (2 * i) 0

theorem downsample_snd (internal : MSrcDownInternal) (payloadIn : List Sint16) (size : Nat) :
    (downsample internal payloadIn size).2 = upscale (decimated internal payloadIn size) := rfl

def decimator : BlockFilter Sint16 Sint16 where
  history := delayBufDownSize16
  hop := 2
  width := 1
  window line := [sampleOf (packedGroup (downscale line) coeffDec 0)]
  hop_pos := by decide
  length_window _ := rfl
  window_take line := by
    rw [packed_sample_congr coeffDec fun k hk => ?_]
    have hreads : k < delayBufDownSize16 + 2 := hk.trans (by decide)
    rw [getD_downscale, getD_downscale, getD_take_of_lt _ (by omega)]

theorem getD_firBlk4 (dLine coeffs : List Sint16) {nNew i : Nat} (hi : i < 2 * (nNew / 2)) :
    (firBlk4 dLine nNew filterLengthTaps coeffs 0).getD i 0 =
      sampleOf (packedGroup dLine coeffs i) := by
  rw [firBlk4_eq, List.getD_eq_getElem?_getD, List.getElem?_map, List.getElem?_range hi,
    Option.map_some, Option.getD_some]

theorem decimator_window_drop (line : List Sint16) (m : Nat) :
    decimator.window (line.drop (decimator.hop * m)) =
      [sampleOf (packedGroup (downscale line) coeffDec (2 * m))] := by
  refine congrArg (fun s => [s]) (packed_sample_congr coeffDec fun k _ => ?_)
  rw [downscale_drop, getD_drop, Nat.zero_add]
  rfl

theorem decimated_eq (internal : MSrcDownInternal) (payloadIn : List Sint16) (size : Nat) :
    decimated internal payloadIn size =
      decimator.outputs (internal.delaybuffer.cells ++ payloadIn.take (size8KhzTo16Khz size))
        size := by
  simp only [decimated, BlockFilter.outputs, decimator_window_drop]
  rw [← List.map_eq_flatMap]
  apply List.map_congr_left
  intro i hi
  have hi' := List.mem_range.1 hi
  rw [getD_firBlk4 _ _ (by rw [size8KhzTo16Khz]; omega)]

/-- The saved delay line is the end of the old one and the new samples together. -/
theorem saved_delay {n : Nat} (delay : Buffer Sint16 n) (x : List Sint16) (f : BlockFilter Sint16 Sint16)
    (hf : f.history = n) {size : Nat} (hn : n ≤ size) (hx : size ≤ x.length) :
    (delay.write 0 ((x.drop (size - n)).take n)).cells = f.kept (delay.cells ++ x.take size) := by
  have hlen : (x.take size).length = size := by rw [List.length_take]; omega
  have hcells : ((x.drop (size - n)).take n).length = delay.cells.length := by
    rw [delay.size_eq, List.length_take, List.length_drop]
    omega
  rw [Buffer.write_cells, Buffer.blit_zero_of_length_eq _ hcells, f.kept_append _ (by omega),
    BlockFilter.kept, hlen, hf, List.drop_take, Nat.sub_sub_self hn]

theorem downsample_eq (internal : MSrcDownInternal) {payloadIn : List Sint16} {size : Nat}
    (hs : 40 ≤ size) (hx : 2 * size ≤ payloadIn.length) :
    let r := decimator.process internal.delaybuffer.cells (payloadIn.take (size8KhzTo16Khz size))
    (downsample internal payloadIn size).1.delaybuffer.cells = r.1 ∧
      decimated internal payloadIn size = r.2 := by
  have hlen : (payloadIn.take (size8KhzTo16Khz size)).length / 2 = size := by
    rw [List.length_take, size8KhzTo16Khz]
    omega
  have hhist : delayBufDownSize16 ≤ size8KhzTo16Khz size := by
    rw [size8KhzTo16Khz]
    exact (show 71 ≤ 2 * size by omega)
  refine ⟨saved_delay _ payloadIn decimator rfl hhist hx, ?_⟩
  rw [decimated_eq, BlockFilter.process, show decimator.hop = 2 from rfl, hlen]

/-- Zeros between the samples, as the delay line of the upsampling filter holds them. -/
def stuffed (line : List Sint16) : List Sint16 := line.flatMap fun s => [0, s]

theorem stuffed_append (line more : List Sint16) :
    stuffed (line ++ more) = stuffed line ++ stuffed more := List.flatMap_append

theorem getD_stuffed (line : List Sint16) (k : Nat) :
    (stuffed line).getD k 0 = if k % 2 = 0 then 0 else line.getD (k / 2) 0 := by
  induction line generalizing k with
  | nil => simp [stuffed]
  | cons s line ih =>
    change (0 :: s :: stuffed line).getD k 0 = _
    match k with
    | 0 => rfl
    | 1 => rfl
    | k + 2 =>
      rw [List.getD_cons_succ, List.getD_cons_succ, ih, Nat.add_mod_right,
        Nat.add_div_right k (by decide), List.getD_cons_succ]

theorem stuffed_eq_dline (delay x : List Sint16) :
    (delay.flatMap fun s => [0, s]) ++ 0 :: (x.flatMap fun s => [s, 0]) =
      stuffed (delay ++ x) ++ [0] := by
  have hshift : (0 : Sint16) :: (x.flatMap fun s => [s, 0]) = stuffed x ++ [0] := by
    induction x with
    | nil => rfl
    | cons s x ih =>
      rw [List.flatMap_cons, stuffed, List.flatMap_cons]
      change 0 :: s :: (0 :: x.flatMap fun s => [s, 0]) = 0 :: s :: (stuffed x ++ [0])
      rw [ih]
  rw [hshift, stuffed_append, List.append_assoc]
  rfl

theorem getD_append_zero (line : List Sint16) (k : Nat) :
    (line ++ [0]).getD k 0 = line.getD k 0 := by
  rcases Nat.lt_trichotomy k line.length with h | rfl | h
  · rw [List.getD_append _ _ _ _ h]
  · simp
  · rw [List.getD_eq_default _ _ (by simp; omega), List.getD_eq_default _ _ (by omega)]

def interpolator : BlockFilter Sint16 Sint16 where
  history := delayBufUpSize16
  hop := 1
  width := 2
  window line := [0, 1].map fun i => sampleOf (packedGroup (stuffed line) coeffInt i)
  hop_pos := by decide
  length_window _ := rfl
  window_take line := by
    refine List.map_congr_left fun i hi => packed_sample_congr coeffInt fun k hk => ?_
    have hi' : i ≤ 1 := by
      rcases List.mem_pair.1 hi with rfl | rfl <;> decide
    rw [getD_stuffed, getD_stuffed]
    split
    · rfl
    · exact getD_take_of_lt _ (show (i + k) / 2 < 36 by omega) 0

/-- The values given to `upscale` for one accepted frame, already scaled down. -/
def interpolated (internal : MSrcUpInternal) (payloadIn : List Sint16) (size : Nat) :
    List Sint16 :=
  let dline := (internal.delaybuffer.cells.flatMap fun s => [0, s]) ++
    0 :: (payloadIn.take size).flatMap fun s => [s, 0]
  firBlk4 dline (size8KhzTo16Khz size) filterLengthTaps coeffInt 0

theorem upsample_snd (internal : MSrcUpInternal) (payloadIn : List Sint16) (size : Nat) :
    (upsample internal payloadIn size).2 = upscale (interpolated internal payloadIn size) := rfl

theorem interpolator_window_drop (line : List Sint16) (m : Nat) :
    interpolator.window (line.drop (interpolator.hop * m)) =
      [sampleOf (packedGroup (stuffed line) coeffInt (2 * m)),
        sampleOf (packedGroup (stuffed line) coeffInt (2 * m + 1))] := by
  have hread : ∀ i k, (stuffed line).getD (2 * m + i + k) 0 =
      (stuffed (line.drop (interpolator.hop * m))).getD (i + k) 0 := by
    intro i k
    rw [show interpolator.hop = 1 from rfl, Nat.one_mul, getD_stuffed, getD_stuffed, getD_drop,
      Nat.add_assoc, Nat.mul_add_mod, Nat.mul_add_div (by decide)]
  have hsample := fun i => packed_sample_congr coeffInt fun k _ => hread i k
  have hwindow : ∀ l, interpolator.window l = [sampleOf (packedGroup (stuffed l) coeffInt 0),
      sampleOf (packedGroup (stuffed l) coeffInt 1)] := fun _ => rfl
  rw [hwindow, ← hsample 0, ← hsample 1]
  rfl

theorem interpolated_eq (internal : MSrcUpInternal) (payloadIn : List Sint16) (size : Nat) :
    interpolated internal payloadIn size =
      interpolator.outputs (internal.delaybuffer.cells ++ payloadIn.take size) size := by
  have hzero := fun i => packed_sample_congr coeffInt fun k _ =>
    getD_append_zero (stuffed (internal.delaybuffer.cells ++ payloadIn.take size)) (i + k)
  simp only [interpolated, stuffed_eq_dline, firBlk4_eq, BlockFilter.outputs, hzero,
    interpolator_window_drop]
  rw [size8KhzTo16Khz, Nat.mul_div_cancel_left size (by decide), ← flatMap_pairs]

theorem upsample_eq (internal : MSrcUpInternal) {payloadIn : List Sint16} {size : Nat}
    (hs : 40 ≤ size) (hx : size ≤ payloadIn.length) :
    let r := interpolator.process internal.delaybuffer.cells (payloadIn.take size)
    (upsample internal payloadIn size).1.delaybuffer.cells = r.1 ∧
      interpolated internal payloadIn size = r.2 := by
  have hlen : (payloadIn.take size).length / 1 = size := by
    rw [List.length_take]
    omega
  have hhist : delayBufUpSize16 ≤ size := (show 35 ≤ 40 by decide).trans hs
  refine ⟨saved_delay _ payloadIn interpolator rfl hhist hx, ?_⟩
  rw [interpolated_eq, BlockFilter.process, show interpolator.hop = 1 from rfl, hlen]

def IsPcmMode (mode : BitVec 4) : Prop :=
  mode = updModePcm05Ms ∨ mode = updModePcm10Ms ∨ mode = updModePcm20Ms ∨ mode = updModePcm30Ms

def linear08 (mode : BitVec 4) : UpdHeader :=
  ⟨updCodecPcm, updTypeSpeechGood, mode, updFormPcmLinear08Khz⟩

def linear16 (mode : BitVec 4) : UpdHeader :=
  ⟨updCodecPcm, updTypeSpeechGood, mode, updFormPcmLinear16Khz⟩

theorem of_ok16 {h : UpdHeader} (hok : is16KhzUpdPacketOk h = true) :
    IsPcmMode h.mode ∧ h = linear16 h.mode := by
  obtain ⟨codec, type, mode, form⟩ := h
  simp only [is16KhzUpdPacketOk, Bool.and_eq_true, Bool.or_eq_true, decide_eq_true_eq] at hok
  obtain ⟨⟨⟨rfl, rfl⟩, hm⟩, rfl⟩ := hok
  exact ⟨by simpa only [IsPcmMode, or_assoc] using hm, rfl⟩

theorem of_ok08 {h : UpdHeader} (hok : is8KhzUpdPacketOk h = true) :
    IsPcmMode h.mode ∧ h = linear08 h.mode := by
  obtain ⟨codec, type, mode, form⟩ := h
  simp only [is8KhzUpdPacketOk, Bool.and_eq_true, Bool.or_eq_true, decide_eq_true_eq] at hok
  obtain ⟨⟨⟨rfl, rfl⟩, hm⟩, rfl⟩ := hok
  exact ⟨by simpa only [IsPcmMode, or_assoc] using hm, rfl⟩

theorem isPcmMode_05 : IsPcmMode updModePcm05Ms := Or.inl rfl

theorem isPcmMode_10 : IsPcmMode updModePcm10Ms := Or.inr (Or.inl rfl)

theorem IsPcmMode.size_bounds {mode : BitVec 4} (h : IsPcmMode mode) :
    40 ≤ lUpdGetPcmSizeSamples mode ∧ lUpdGetPcmSizeSamples mode ≤ 240 := by
  rcases h with rfl | rfl | rfl | rfl <;> decide

theorem IsPcmMode.size08 {mode : BitVec 4} (h : IsPcmMode mode) :
    lUpdGetPayloadSize1 (linear08 mode) / 16 = lUpdGetPcmSizeSamples mode := by
  rcases h with rfl | rfl | rfl | rfl <;> decide

theorem IsPcmMode.size16 {mode : BitVec 4} (h : IsPcmMode mode) :
    lUpdGetPayloadSize1 (linear16 mode) / 16 = size8KhzTo16Khz (lUpdGetPcmSizeSamples mode) := by
  rcases h with rfl | rfl | rfl | rfl <;> decide

theorem pcmSamples_filled {n : Nat} (packet : UpdPacket n) {h : UpdHeader} {new : List Sint16}
    (hsize : lUpdGetPayloadSize1 h / 16 = new.length) (hfit : new.length ≤ n) :
    pcmSamples { packet with toUpdHeader := h, payload := packet.payload.write 0 new } = new := by
  rw [pcmSamples, Buffer.write_cells, hsize,
    Buffer.blit_zero_of_fits _ (by rw [packet.payload.size_eq]; exact hfit), List.take_left]

theorem length_upscale (line : List Sint16) : (upscale line).length = line.length :=
  List.length_map _

theorem length_decimated (internal : MSrcDownInternal) (payloadIn : List Sint16) (size : Nat) :
    (decimated internal payloadIn size).length = size := by
  unfold decimated
  rw [List.length_map, List.length_range]

theorem length_interpolated (internal : MSrcUpInternal) (payloadIn : List Sint16) (size : Nat) :
    (interpolated internal payloadIn size).length = size8KhzTo16Khz size := by
  rw [interpolated, firBlk4_eq, List.length_map, List.length_range, size8KhzTo16Khz,
    Nat.mul_div_cancel_left size (by decide)]

/-- What one call makes: the values it gives to `upscale` and the samples it fills in. -/
structure ResamplerAnswer where
  passed : List Sint16
  samples : List Sint16

structure DownCall where
  packetIn : UpdPacket updMaxPayloadSize16
  packetOut : UpdPacket updMaxPayloadSize16
  accepted : is16KhzUpdPacketOk packetIn.toUpdHeader = true

def DownCall.samples (c : DownCall) : List Sint16 := pcmSamples c.packetIn

def srcDown : Machine MSrcDownData DownCall ResamplerAnswer where
  step master c :=
    let r := mSrcDown master (some c.packetIn) (some c.packetOut)
    (r.master,
      { passed := master.internal.elim [] fun internal =>
          decimated internal c.packetIn.payload.cells (lUpdGetPcmSizeSamples c.packetIn.mode)
        samples := r.updOut.elim [] pcmSamples })

def HoldsDown (master : MSrcDownData) (delay : List Sint16) : Prop :=
  ∃ internal, master.internal = some internal ∧ internal.delaybuffer.cells = delay

structure UpCall where
  packetIn : UpdPacket updMaxPayloadSize16
  packetOut : UpdPacket updMaxPayloadSize16
  accepted : is8KhzUpdPacketOk packetIn.toUpdHeader = true

def UpCall.samples (c : UpCall) : List Sint16 := pcmSamples c.packetIn

def srcUp : Machine MSrcUpData UpCall ResamplerAnswer where
  step master c :=
    let r := mSrcUp master (some c.packetIn) (some c.packetOut)
    (r.master,
      { passed := master.internal.elim [] fun internal =>
          interpolated internal (scaledDown c.packetIn).payload.cells
            (lUpdGetPcmSizeSamples c.packetIn.mode)
        samples := r.updOut.elim [] pcmSamples })

def HoldsUp (master : MSrcUpData) (delay : List Sint16) : Prop :=
  ∃ internal, master.internal = some internal ∧ internal.delaybuffer.cells = delay

def downCall {mode : BitVec 4} (hm : IsPcmMode mode)
    (payload : Buffer Sint16 updMaxPayloadSize16) : DownCall where
  packetIn := ⟨linear16 mode, 0, payload⟩
  packetOut := UpdPacket.zero _
  accepted := by rcases hm with rfl | rfl | rfl | rfl <;> rfl

def upCall {mode : BitVec 4} (hm : IsPcmMode mode)
    (payload : Buffer Sint16 updMaxPayloadSize16) : UpCall where
  packetIn := ⟨linear08 mode, 0, payload⟩
  packetOut := UpdPacket.zero _
  accepted := by rcases hm with rfl | rfl | rfl | rfl <;> rfl

section Down

variable (c : DownCall)

theorem DownCall.samples_eq : c.samples = c.packetIn.payload.cells.take
    (size8KhzTo16Khz (lUpdGetPcmSizeSamples c.packetIn.mode)) := by
  obtain ⟨hm, hh⟩ := of_ok16 c.accepted
  rw [DownCall.samples, pcmSamples, hh, hm.size16]
  rfl

theorem DownCall.room : size8KhzTo16Khz (lUpdGetPcmSizeSamples c.packetIn.mode) ≤
    c.packetIn.payload.cells.length := by
  obtain ⟨hm, -⟩ := of_ok16 c.accepted
  have hb := hm.size_bounds
  rw [c.packetIn.payload.size_eq, size8KhzTo16Khz]
  exact (show 2 * _ ≤ 480 by omega)

theorem srcDown_step {master : MSrcDownData} {internal : MSrcDownInternal}
    (hi : master.internal = some internal) :
    srcDown.step master c =
      let size := lUpdGetPcmSizeSamples c.packetIn.mode
      let passed := decimated internal c.packetIn.payload.cells size
      (⟨0, some (downsample internal c.packetIn.payload.cells size).1⟩,
        ⟨passed, upscale passed⟩) := by
  obtain ⟨hm, -⟩ := of_ok16 c.accepted
  have hb := hm.size_bounds
  have hlen : (downsample internal c.packetIn.payload.cells
      (lUpdGetPcmSizeSamples c.packetIn.mode)).2.length = lUpdGetPcmSizeSamples c.packetIn.mode := by
    rw [downsample_snd, length_upscale, length_decimated]
  have hsamples := (pcmSamples_filled c.packetOut (hm.size08.trans hlen.symm)
    (hlen.le.trans (hb.2.trans (by decide)))).trans (downsample_snd _ _ _)
  simp only [srcDown, mSrcDown_of_ok c.packetIn c.packetOut hi c.accepted, hi, Option.elim_some]
  exact congrArg (fun samples => (_, ResamplerAnswer.mk _ samples)) hsamples

theorem srcDown_refines :
    decimator.Refines srcDown HoldsDown DownCall.samples ResamplerAnswer.passed where
  whole c := by
    have hr := c.room
    rw [c.samples_eq, List.length_take, Nat.min_eq_left hr]
    exact Dvd.intro _ rfl
  step master delay c hr hd := by
    obtain ⟨internal, hi, rfl⟩ := hr
    obtain ⟨hm, -⟩ := of_ok16 c.accepted
    obtain ⟨hstate, hout⟩ := downsample_eq internal hm.size_bounds.1 c.room
    rw [srcDown_step c hi, c.samples_eq]
    exact ⟨⟨_, rfl, hstate⟩, hout⟩

def restore (s : Sint16) : Sint16 := shl s scalingBits

theorem srcDown_refines_restored :
    (decimator.map restore).Refines srcDown HoldsDown DownCall.samples
      ResamplerAnswer.samples := by
  apply srcDown_refines.map restore
  intro master delay c hr
  obtain ⟨internal, hi, -⟩ := hr
  rw [srcDown_step c hi]
  rfl

end Down

section Up

variable (c : UpCall)

theorem UpCall.samples_eq :
    c.samples = c.packetIn.payload.cells.take (lUpdGetPcmSizeSamples c.packetIn.mode) := by
  obtain ⟨hm, hh⟩ := of_ok08 c.accepted
  rw [UpCall.samples, pcmSamples, hh, hm.size08]
  rfl

theorem UpCall.room :
    lUpdGetPcmSizeSamples c.packetIn.mode ≤ c.packetIn.payload.cells.length := by
  obtain ⟨hm, -⟩ := of_ok08 c.accepted
  rw [c.packetIn.payload.size_eq]
  exact hm.size_bounds.2.trans (by decide)

/-- The scaled payload starts with the packet's samples, scaled. -/
theorem UpCall.scaled_samples :
    (scaledDown c.packetIn).payload.cells.take (lUpdGetPcmSizeSamples c.packetIn.mode) =
      downscale c.samples := by
  have hr := c.room
  have hlen : (downscale c.samples).length = lUpdGetPcmSizeSamples c.packetIn.mode := by
    rw [length_downscale, c.samples_eq, List.length_take, Nat.min_eq_left hr]
  rw [scaledDown, Buffer.write_cells, ← c.samples_eq, Buffer.blit_zero_of_fits _ (hlen.le.trans hr),
    List.take_left' hlen]

theorem UpCall.scaled_room :
    lUpdGetPcmSizeSamples c.packetIn.mode ≤ (scaledDown c.packetIn).payload.cells.length := by
  have hlen := c.packetIn.payload.size_eq.trans (scaledDown c.packetIn).payload.size_eq.symm
  exact c.room.trans_eq hlen

theorem srcUp_step {master : MSrcUpData} {internal : MSrcUpInternal}
    (hi : master.internal = some internal) :
    srcUp.step master c =
      let size := lUpdGetPcmSizeSamples c.packetIn.mode
      let payloadIn := (scaledDown c.packetIn).payload.cells
      let passed := interpolated internal payloadIn size
      (⟨0, some (upsample internal payloadIn size).1⟩, ⟨passed, upscale passed⟩) := by
  obtain ⟨hm, -⟩ := of_ok08 c.accepted
  have hb := hm.size_bounds
  have hlen : (upsample internal (scaledDown c.packetIn).payload.cells
      (lUpdGetPcmSizeSamples c.packetIn.mode)).2.length =
        size8KhzTo16Khz (lUpdGetPcmSizeSamples c.packetIn.mode) := by
    rw [upsample_snd, length_upscale, length_interpolated]
  have hfit : size8KhzTo16Khz (lUpdGetPcmSizeSamples c.packetIn.mode) ≤ updMaxPayloadSize16 := by
    rw [size8KhzTo16Khz]
    exact (show 2 * _ ≤ 480 by omega)
  have hsamples := (pcmSamples_filled c.packetOut (hm.size16.trans hlen.symm)
    (hlen.le.trans hfit)).trans (upsample_snd _ _ _)
  simp only [srcUp, mSrcUp_of_ok c.packetIn c.packetOut hi c.accepted, hi, Option.elim_some]
  exact congrArg (fun samples => (_, ResamplerAnswer.mk _ samples)) hsamples

theorem flatMap_downscale (calls : List UpCall) :
    (calls.flatMap fun c => downscale c.samples) = downscale (calls.flatMap UpCall.samples) :=
  List.map_flatMap.symm

theorem srcUp_refines :
    interpolator.Refines srcUp HoldsUp (fun c => downscale c.samples)
      ResamplerAnswer.passed where
  whole c := one_dvd _
  step master delay c hr hd := by
    obtain ⟨internal, hi, rfl⟩ := hr
    obtain ⟨hm, -⟩ := of_ok08 c.accepted
    obtain ⟨hstate, hout⟩ := upsample_eq internal hm.size_bounds.1 c.scaled_room
    rw [srcUp_step c hi, ← c.scaled_samples]
    exact ⟨⟨_, rfl, hstate⟩, hout⟩

theorem srcUp_refines_restored :
    (interpolator.map restore).Refines srcUp HoldsUp (fun c => downscale c.samples)
      ResamplerAnswer.samples := by
  apply srcUp_refines.map restore
  intro master delay c hr
  obtain ⟨internal, hi, -⟩ := hr
  rw [srcUp_step c hi]
  rfl

end Up

end RtpServer.Verify.Resampler
