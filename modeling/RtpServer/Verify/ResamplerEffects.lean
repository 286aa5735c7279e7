import RtpServer.Verify.Resampler

/-!
# What a call of the resampler changes

Downsampling works on a copy of the delay line and the input; upsampling scales the samples
down in the caller's packet and leaves them so. A rejected packet changes nothing in either
direction: its header is swapped for the error code and swapped back.
-/
namespace RtpServer.Verify.ResamplerEffects

open RtpServer.Source RtpServer.Library RtpServer.Source.TypeDef RtpServer.Source.Upd
open RtpServer.Source.SampleRate RtpServer.Verify.Resampler

section

variable {n m : Nat}

/-- The input packet comes back as it was; a rejected one changes neither the output packet
nor the delay line nor what the next accepted packet does. -/
structure DownConfined (master : MSrcDownData) (packetIn : UpdPacket n) (packetOut : UpdPacket m) :
    Prop where
  input : (mSrcDown master (some packetIn) (some packetOut)).updIn = some packetIn
  rejected : (mSrcDown master (some packetIn) (some packetOut)).ecode ≠ eaNoErrors →
    (mSrcDown master (some packetIn) (some packetOut)).updOut = some packetOut ∧
      (mSrcDown master (some packetIn) (some packetOut)).master.internal = master.internal
  next : (mSrcDown master (some packetIn) (some packetOut)).ecode ≠ eaNoErrors →
    ∀ {n' m' : Nat} (nextIn : UpdPacket n') (nextOut : UpdPacket m'),
      is16KhzUpdPacketOk nextIn.toUpdHeader = true →
        mSrcDown (mSrcDown master (some packetIn) (some packetOut)).master (some nextIn)
            (some nextOut) = mSrcDown master (some nextIn) (some nextOut)

/-- The same for `m_src_up`. -/
structure UpConfined (master : MSrcUpData) (packetIn : UpdPacket n) (packetOut : UpdPacket m) :
    Prop where
  input : (mSrcUp master (some packetIn) (some packetOut)).updIn = some packetIn
  rejected : (mSrcUp master (some packetIn) (some packetOut)).ecode ≠ eaNoErrors →
    (mSrcUp master (some packetIn) (some packetOut)).updOut = some packetOut ∧
      (mSrcUp master (some packetIn) (some packetOut)).master.internal = master.internal
  next : (mSrcUp master (some packetIn) (some packetOut)).ecode ≠ eaNoErrors →
    ∀ {n' m' : Nat} (nextIn : UpdPacket n') (nextOut : UpdPacket m'),
      is8KhzUpdPacketOk nextIn.toUpdHeader = true →
        mSrcUp (mSrcUp master (some packetIn) (some packetOut)).master (some nextIn)
            (some nextOut) = mSrcUp master (some nextIn) (some nextOut)

theorem toInt_shr (s : Sint16) : (shr s scalingBits).toInt = s.toInt / 4 := by
  have hb := Lanes.toInt_bounds s
  have hq : ((s.signExtend 32).sshiftRight scalingBits).toInt = s.toInt / 4 := by
    rw [BitVec.toInt_sshiftRight, BitVec.toInt_signExtend_of_le (by decide),
      Int.shiftRight_eq_div_pow]
    rfl
  rw [shr, Lanes.toInt_narrow _ (by decide) _ _ (by decide), hq]
  · rw [hq]
    norm_num
    omega
  · rw [hq]
    norm_num
    omega

theorem shr_eq_self_iff (s : Sint16) : shr s scalingBits = s ↔ s = 0 ∨ s = -1 := by
  rw [← BitVec.toInt_inj, toInt_shr, ← BitVec.toInt_inj, ← BitVec.toInt_inj]
  change _ ↔ s.toInt = 0 ∨ s.toInt = -1
  omega

theorem downscale_eq_self_iff (line : List Sint16) :
    downscale line = line ↔ ∀ s ∈ line, s = 0 ∨ s = -1 := by
  induction line with
  | nil => simp [downscale]
  | cons s line ih =>
    rw [downscale, List.map_cons, List.cons.injEq, shr_eq_self_iff, List.forall_mem_cons]
    exact and_congr_right fun _ => ih

def scaledSamples (packet : UpdPacket n) : List Sint16 :=
  packet.payload.cells.take (lUpdGetPcmSizeSamples packet.mode)

theorem scaledDown_eq_self_iff (packet : UpdPacket n) :
    scaledDown packet = packet ↔ ∀ s ∈ scaledSamples packet, s = 0 ∨ s = -1 := by
  obtain ⟨rest, hrest⟩ : scaledSamples packet <+: packet.payload.cells := List.take_prefix _ _
  have hcells : (scaledDown packet).payload.cells = downscale (scaledSamples packet) ++ rest :=
    calc Buffer.blit packet.payload.cells 0 (downscale (scaledSamples packet))
        = Buffer.blit (scaledSamples packet ++ rest) 0 (downscale (scaledSamples packet)) := by
          rw [hrest]
      _ = _ := Buffer.blit_zero_append rest (length_downscale _).symm
  rw [← downscale_eq_self_iff]
  constructor
  · intro h
    rw [h, ← hrest] at hcells
    exact (List.append_cancel_right hcells).symm
  · intro h
    have hp : (scaledDown packet).payload = packet.payload := by
      apply Buffer.ext
      rw [hcells, h, hrest]
    calc scaledDown packet = { packet with payload := (scaledDown packet).payload } := rfl
      _ = packet := by rw [hp]

variable (packetIn : UpdPacket n) (packetOut : UpdPacket m)

theorem downConfined (master : MSrcDownData) : DownConfined master packetIn packetOut := by
  cases hi : master.internal with
  | none =>
    have hr := mSrcDown_of_none packetIn packetOut hi
    constructor <;> rw [hr]
    · exact fun _ => ⟨rfl, rfl⟩
    · exact fun _ _ _ _ _ _ => rfl
  | some internal =>
    cases hok : is16KhzUpdPacketOk packetIn.toUpdHeader with
    | true =>
      have hr := mSrcDown_of_ok packetIn packetOut hi hok
      constructor <;> rw [hr]
      · exact fun hne => absurd rfl hne
      · exact fun hne => absurd rfl hne
    | false =>
      have hr := mSrcDown_of_not_ok packetIn packetOut hi hok
      constructor <;> rw [hr]
      · exact fun _ => ⟨rfl, rfl⟩
      · intro _ _ _ nextIn nextOut hnext
        rw [mSrcDown_of_ok nextIn nextOut hi hnext, mSrcDown_of_ok nextIn nextOut _ hnext]
        exact hi

/-- The samples are scaled in the caller's packet. -/
theorem mSrcUp_updIn {master : MSrcUpData} {internal : MSrcUpInternal}
    (hi : master.internal = some internal) (hok : is8KhzUpdPacketOk packetIn.toUpdHeader = true) :
    (mSrcUp master (some packetIn) (some packetOut)).updIn = some (scaledDown packetIn) := by
  rw [mSrcUp_of_ok packetIn packetOut hi hok]

theorem upConfined_iff (master : MSrcUpData) :
    UpConfined master packetIn packetOut ↔
      (master.internal ≠ none → is8KhzUpdPacketOk packetIn.toUpdHeader = true →
        ∀ s ∈ scaledSamples packetIn, s = 0 ∨ s = -1) := by
  cases hi : master.internal with
  | none =>
    have hr := mSrcUp_of_none packetIn packetOut hi
    refine ⟨fun _ hne => absurd rfl hne, fun _ => ?_⟩
    constructor <;> rw [hr]
    · exact fun _ => ⟨rfl, rfl⟩
    · exact fun _ _ _ _ _ _ => rfl
  | some internal =>
    cases hok : is8KhzUpdPacketOk packetIn.toUpdHeader with
    | true =>
      rw [← scaledDown_eq_self_iff]
      constructor
      · intro h _ _
        have hin := h.input
        rw [mSrcUp_updIn packetIn packetOut hi hok] at hin
        exact Option.some.inj hin
      · intro h
        have hs := h (Option.some_ne_none internal) rfl
        have hr := mSrcUp_of_ok packetIn packetOut hi hok
        constructor <;> rw [hr]
        · rw [hs]
        · exact fun hne => absurd rfl hne
        · exact fun hne => absurd rfl hne
    | false =>
      have hr := mSrcUp_of_not_ok packetIn packetOut hi hok
      refine ⟨fun _ _ he => absurd he Bool.false_ne_true, fun _ => ?_⟩
      constructor <;> rw [hr]
      · exact fun _ => ⟨rfl, rfl⟩
      · intro _ _ _ nextIn nextOut hnext
        rw [mSrcUp_of_ok nextIn nextOut hi hnext, mSrcUp_of_ok nextIn nextOut _ hnext]
        exact hi

end

/-- Downsampling is confined for every state and packet; upsampling is for every packet but
the accepted ones with a sample other than 0 and -1. -/
theorem effects_confined_iff {n m : Nat} (down : MSrcDownData) (up : MSrcUpData)
    (packetIn : UpdPacket n) (packetOut : UpdPacket m) :
    DownConfined down packetIn packetOut ∧ UpConfined up packetIn packetOut ↔
      (up.internal ≠ none → is8KhzUpdPacketOk packetIn.toUpdHeader = true →
        ∀ s ∈ scaledSamples packetIn, s = 0 ∨ s = -1) := by
  rw [← upConfined_iff packetIn packetOut up]
  exact and_iff_right (downConfined packetIn packetOut down)

def loudPacket : UpdPacket updMaxPayloadSize16 :=
  ⟨linear08 updModePcm05Ms, 0, Buffer.replicate _ 1000⟩

/-- The samples of an accepted packet are 250 after the call and were 1000 before. -/
theorem not_upConfined_loud :
    ¬ UpConfined ⟨0, some ⟨Buffer.replicate _ 0⟩⟩ loudPacket (UpdPacket.zero 480) := by
  intro h
  have hi : (⟨0, some ⟨Buffer.replicate _ 0⟩⟩ : MSrcUpData).internal =
    some ⟨Buffer.replicate _ 0⟩ := rfl
  have hin := h.input
  rw [mSrcUp_updIn loudPacket _ hi (by decide), Option.some.injEq, scaledDown_eq_self_iff] at hin
  exact absurd (hin 1000 (by decide)) (by decide)

end RtpServer.Verify.ResamplerEffects
