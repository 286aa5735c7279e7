import RtpServer.Verify.ByteOrder

/-!
# Room for the payload of a UPD packet

The size of a payload is read from the header alone. Every codec but one keeps it within
the largest payload; the 12 bits of an Opus size can name more octets than a packet has,
and the byte order conversions then leave the packet.
-/
namespace RtpServer.Verify.PacketRoom

open RtpServer.Source RtpServer.Library RtpServer.Source.TypeDef RtpServer.Source.Mgw
open RtpServer.Source.Upd RtpServer.Source.SampleRate RtpServer.Source.UpdByteOrder
open RtpServer.Verify.ByteOrder

theorem ite_le {p : Prop} [Decidable p] {a b n : Nat} (ha : a ≤ n) (hb : b ≤ n) :
    (if p then a else b) ≤ n := by
  split
  · exact ha
  · exact hb

theorem sizeOfMode_le {sizes : List Nat} {n : Nat} (h : ∀ size ∈ sizes, size ≤ n)
    (mode : BitVec 4) : sizeOfMode sizes mode ≤ n := by
  unfold sizeOfMode
  by_cases hmode : mode.toNat < sizes.length
  · rw [List.getD_eq_getElem _ _ hmode]
    exact h _ (List.getElem_mem hmode)
  · rw [List.getD_eq_default _ _ (Nat.le_of_not_lt hmode)]
    exact Nat.zero_le n

theorem pcmPayloadSize1_le (mode : BitVec 4) (bits05Ms : Nat) :
    pcmPayloadSize1 mode bits05Ms ≤ 6 * bits05Ms := by
  unfold pcmPayloadSize1
  refine ite_le ?_ (ite_le ?_ (ite_le ?_ (ite_le (Nat.le_refl _) (Nat.zero_le _)))) <;> omega

theorem speechOrSid_le (h : UpdHeader) {speech sid n : Nat} (hspeech : speech ≤ n)
    (hsid : sid ≤ n) : lUpdGetPayloadSize1.speechOrSid h speech sid ≤ n := by
  unfold lUpdGetPayloadSize1.speechOrSid
  exact ite_le (ite_le hspeech (ite_le hsid (Nat.zero_le n))) (Nat.zero_le n)

theorem lUpdGetAmrPayloadSize1_le (codec mode : BitVec 4) :
    lUpdGetAmrPayloadSize1 codec mode ≤ 7680 := by
  unfold lUpdGetAmrPayloadSize1
  exact ite_le (sizeOfMode_le (by decide) mode)
    (ite_le (sizeOfMode_le (by decide) mode) (by decide))

theorem size8To1_form_le (form : BitVec 4) : size8To1 form.toNat ≤ 7680 := by
  have hform := form.isLt
  unfold size8To1
  omega

theorem size8To1_t38_le (h : UpdHeader) : size8To1 (lUpdGetT38PayloadSize8 h) ≤ 7680 := by
  have hsize := (h.type ++ h.mode : BitVec 8).isLt
  unfold size8To1 lUpdGetT38PayloadSize8
  omega

/-- The decision tree without the Opus branch, leaf by leaf. -/
theorem lUpdGetPayloadSize1_le {h : UpdHeader} (hcodec : h.codec ≠ updCodecOpus) :
    lUpdGetPayloadSize1 h ≤ 7680 := by
  have hpcm : ∀ bits05Ms ≤ 1280, pcmPayloadSize1 h.mode bits05Ms ≤ 7680 := fun bits05Ms hbits =>
    Nat.le_trans (pcmPayloadSize1_le h.mode bits05Ms) (Nat.mul_le_mul_left 6 hbits)
  have hform := size8To1_form_le h.form
  have hwbio : lUpdGetEvsWbioPayloadSize h.mode ≤ 7680 := sizeOfMode_le (by decide) h.mode
  have hprimary : lUpdGetEvsPrimaryPayloadSize h.mode ≤ 7680 := sizeOfMode_le (by decide) h.mode
  rw [lUpdGetPayloadSize1, if_neg hcodec]
  refine ite_le ?pcm <| ite_le ?gsmFr <| ite_le ?gsmEfr <| ite_le ?gsmHr <| ite_le ?amrnb <|
    ite_le ?amrwb <| ite_le ?bfp <| ite_le ?ilbc <| ite_le ?g723 <| ite_le ?g729 <|
    ite_le ?data <| ite_le ?evrc <| ite_le ?evs (Nat.zero_le _)
  case pcm =>
    exact ite_le (ite_le (hpcm _ (by decide)) (ite_le (hpcm _ (by decide)) (hpcm _ (by decide))))
      (ite_le hform (by decide))
  case gsmFr => exact speechOrSid_le h (by decide) (by decide)
  case gsmEfr => exact speechOrSid_le h (by decide) (by decide)
  case gsmHr => exact speechOrSid_le h (by decide) (by decide)
  case amrnb => exact speechOrSid_le h (lUpdGetAmrPayloadSize1_le _ _) (by decide)
  case amrwb =>
    exact ite_le (by decide) (speechOrSid_le h (lUpdGetAmrPayloadSize1_le _ _) (by decide))
  case data =>
    exact ite_le (ite_le (by decide) (by decide)) <| ite_le (ite_le (by decide) (by decide)) <|
      ite_le (size8To1_t38_le h) (by decide)
  case ilbc =>
    exact ite_le (ite_le (by decide) (ite_le (by decide) (by decide))) (ite_le hform (by decide))
  case evs =>
    exact ite_le (by decide) <|
      ite_le (ite_le (by decide) (ite_le hwbio (by decide))) <|
        ite_le (ite_le (by decide) (ite_le hprimary (by decide))) (by decide)
  all_goals repeat' first | apply ite_le | decide

/-- The size an Opus header names, in octets, from its three nibbles. -/
def opusOctets (h : UpdHeader) : Nat := 256 * h.type.toNat + 16 * h.mode.toNat + h.form.toNat

theorem lUpdGetOpusPayloadSize8_eq (h : UpdHeader) :
    lUpdGetOpusPayloadSize8 h = opusOctets h := by
  change (h.type ++ h.mode ++ h.form).toNat = _
  rw [LittleEndian.toNat_append_eq, LittleEndian.toNat_append_eq, opusOctets]
  omega

theorem lUpdGetPayloadSize1_opus {h : UpdHeader} (hcodec : h.codec = updCodecOpus) :
    lUpdGetPayloadSize1 h = 8 * opusOctets h := by
  rw [← lUpdGetOpusPayloadSize8_eq, Nat.mul_comm]
  simp [lUpdGetPayloadSize1, hcodec, size8To1]

/-- The header names at most the octets a packet has room for. -/
def NamesRoom (h : UpdHeader) : Prop :=
  h.codec = updCodecOpus → opusOctets h ≤ updMaxPayloadSize8

instance (h : UpdHeader) : Decidable (NamesRoom h) :=
  inferInstanceAs (Decidable (_ → _))

theorem lUpdGetPayloadSize1_le_iff (h : UpdHeader) :
    lUpdGetPayloadSize1 h ≤ 8 * updMaxPayloadSize8 ↔ NamesRoom h := by
  by_cases hcodec : h.codec = updCodecOpus
  · rw [lUpdGetPayloadSize1_opus hcodec, Nat.mul_le_mul_left_iff (by decide), NamesRoom]
    exact ⟨fun hle _ => hle, fun hle => hle hcodec⟩
  · exact ⟨fun _ hopus => absurd hopus hcodec, fun _ => lUpdGetPayloadSize1_le hcodec⟩

variable {size16 : Nat}

/-- A loop with more words to go than the payload has leaves it. -/
theorem swapWords_outside (swap : Uint16 → Uint16) (n i : Nat) (payload : Buffer Uint16 size16)
    (hstart : i ≤ size16) (hroom : size16 < i + n) : swapWords swap n i payload = none := by
  induction n generalizing i payload with
  | zero => omega
  | succ n ih =>
    rw [swapWords]
    by_cases hi : i < payload.cells.length
    · rw [List.getElem?_eq_getElem hi, Option.bind_eq_bind, Option.bind_some]
      rw [payload.size_eq] at hi
      exact ih (i + 1) _ hi (by omega)
    · rw [List.getElem?_eq_none (Nat.le_of_not_lt hi)]
      rfl

theorem size1To16_gt {h : UpdHeader} (hh : ¬ NamesRoom h) :
    updMaxPayloadSize16 < size1To16 (lUpdGetPayloadSize1 h) := by
  rw [← lUpdGetPayloadSize1_le_iff] at hh
  unfold updMaxPayloadSize8 at hh
  unfold size1To16 updMaxPayloadSize16
  omega

theorem isContentOctets_eq_false {h : UpdHeader} (hh : ¬ NamesRoom h) :
    isContentOctets h = false := by
  obtain ⟨hcodec, -⟩ := Classical.not_imp.1 hh
  unfold isContentOctets
  rw [hcodec]
  rfl

theorem swapPayload_outside (swap : Uint16 → Uint16) {packet : UpdPacket updMaxPayloadSize16}
    (hh : ¬ NamesRoom packet.toUpdHeader) : swapPayload swap packet = none := by
  have hloop := swapWords_outside swap _ 0 packet.payload (Nat.zero_le _)
    (show _ < 0 + size1To16 (lUpdGetPayloadSize1 packet.toUpdHeader) by
      rw [Nat.zero_add]
      exact size1To16_gt hh)
  rw [swapPayload, isContentOctets_eq_false hh, if_neg Bool.false_ne_true]
  change (swapWords swap (size1To16 _) 0 packet.payload).bind _ = none
  rw [hloop, Option.bind_none]

/-- A header that names more octets than a packet has sends both conversions outside it. -/
theorem conversions_outside (packet : UpdPacket updMaxPayloadSize16) :
    (¬ NamesRoom packet.toUpdHeader → lUpdNatToBe packet = none) ∧
      (¬ NamesRoom (swapHeader packet.toUpdHeader) → lUpdBeToNat packet = none) := by
  constructor
  · intro hh
    rw [lUpdNatToBe, swapPayload_outside _ hh]
    rfl
  · intro hh
    exact @swapPayload_outside beToNat16
      { packet with toUpdHeader := swapHeader packet.toUpdHeader } hh

/-- What the two conversions rely on for a packet whose header, in the order of the machine,
is `h`. -/
structure ConvertsInside (h : UpdHeader) : Prop where
  size : lUpdGetPayloadSize1 h ≤ 8 * updMaxPayloadSize8
  natToBe : ∀ packet : UpdPacket updMaxPayloadSize16, packet.toUpdHeader = h →
    lUpdNatToBe packet ≠ none
  beToNat : ∀ packet : UpdPacket updMaxPayloadSize16,
    headerOfWord (beToNat16 (headerWord packet.toUpdHeader)) = h → lUpdBeToNat packet ≠ none

theorem convertsInside_iff (h : UpdHeader) :
    ConvertsInside h ↔
      (h.codec = updCodecOpus →
        256 * h.type.toNat + 16 * h.mode.toNat + h.form.toNat ≤ updMaxPayloadSize8) := by
  constructor
  · intro hinside
    exact (lUpdGetPayloadSize1_le_iff h).1 hinside.size
  · intro hh
    have hsize := (lUpdGetPayloadSize1_le_iff h).2 hh
    have hroom : size1To16 (lUpdGetPayloadSize1 h) ≤ updMaxPayloadSize16 := by
      apply size1To16_le
      unfold updMaxPayloadSize8 at hsize
      unfold size1To8
      omega
    refine ⟨hsize, fun packet hpacket => ?_, fun packet hpacket => ?_⟩
    · obtain ⟨be, hbe, -⟩ := lUpdNatToBe_converts packet (by rwa [hpacket])
      rw [hbe]
      exact Option.some_ne_none be
    · subst hpacket
      obtain ⟨nat, hnat, -⟩ := lUpdBeToNat_converts packet hroom
      rw [hnat]
      exact Option.some_ne_none nat

/-- An Opus header of all ones names 4095 octets; its payload words end at 480. -/
theorem convertsInside_opus :
    ¬ (∀ h : UpdHeader, ConvertsInside h) ∧
      lUpdGetPayloadSize1 ⟨updCodecOpus, 15, 15, 15⟩ = 32760 ∧
      lUpdNatToBe (⟨⟨updCodecOpus, 15, 15, 15⟩, 0, Buffer.replicate _ 0⟩ :
        UpdPacket updMaxPayloadSize16) = none := by
  have hsize : lUpdGetPayloadSize1 ⟨updCodecOpus, 15, 15, 15⟩ = 32760 := by decide
  refine ⟨fun hall => ?_, hsize, (conversions_outside _).1 (by decide)⟩
  have hle := (hall ⟨updCodecOpus, 15, 15, 15⟩).size
  rw [hsize] at hle
  exact absurd hle (by decide)

end RtpServer.Verify.PacketRoom
