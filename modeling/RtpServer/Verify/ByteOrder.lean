import RtpServer.Source.UpdByteOrder

/-!
# UPD byte order conversions

How many words are swapped is read from the header in the machine's order: before the
header is swapped in one direction, after it in the other. Both conversions therefore swap
the same words, and a swap undoes itself.
-/
namespace RtpServer.Verify.ByteOrder

open RtpServer.Source RtpServer.Library RtpServer.Library.LittleEndian RtpServer.Source.TypeDef
open RtpServer.Source.Mgw RtpServer.Source.Upd RtpServer.Source.SampleRate
open RtpServer.Source.UpdByteOrder

@[simp] theorem headerWord_headerOfWord (w : Uint16) : headerWord (headerOfWord w) = w := by
  change w.extractLsb' 12 4 ++ w.extractLsb' 8 4 ++ w.extractLsb' 4 4 ++ w.extractLsb' 0 4 = w
  rw [BitVec.extractLsb'_append_extractLsb'_eq_extractLsb' (show 12 = 8 + 4 from rfl),
    BitVec.extractLsb'_append_extractLsb'_eq_extractLsb' (show 8 = 4 + 4 from rfl),
    BitVec.extractLsb'_append_extractLsb'_eq_extractLsb' (show 4 = 0 + 4 from rfl)]
  exact BitVec.extractLsb'_eq_self

def swapHeader (h : UpdHeader) : UpdHeader := headerOfWord (natToBe16 (headerWord h))

@[simp] theorem swapHeader_swapHeader (h : UpdHeader) : swapHeader (swapHeader h) = h := by
  have hback : natToBe16 (natToBe16 (headerWord h)) = headerWord h := beToNat16_natToBe16 _
  rw [swapHeader, swapHeader, headerWord_headerOfWord, hback, headerOfWord_headerWord]

/-- The first octet of the swapped header is codec and type, the second mode and form. -/
theorem octets_swapHeader (h : UpdHeader) :
    (low (headerWord (swapHeader h))).toNat = h.codec.toNat * 16 + h.type.toNat ∧
      (high (headerWord (swapHeader h))).toNat = h.mode.toNat * 16 + h.form.toNat := by
  obtain ⟨hcodec, htype, hmode, hform⟩ := headerWord_fields h
  have hhigh : high (headerWord h) = (h.codec ++ h.type : BitVec (4 + 4)) := by
    rw [← hcodec, ← htype]
    exact (BitVec.extractLsb'_append_extractLsb'_eq_extractLsb' (show 12 = 8 + 4 from rfl)).symm
  have hlow : low (headerWord h) = (h.mode ++ h.form : BitVec (4 + 4)) := by
    rw [← hmode, ← hform]
    exact (BitVec.extractLsb'_append_extractLsb'_eq_extractLsb' (show 4 = 0 + 4 from rfl)).symm
  rw [swapHeader, headerWord_headerOfWord, low_natToBe16, high_natToBe16, hhigh, hlow]
  exact ⟨toNat_append_eq _ _, toNat_append_eq _ _⟩

variable {size16 : Nat}

/-- The first `n` words are swapped, the rest is unchanged. -/
def PayloadSwapped (n : Nat) (payload result : Buffer Uint16 size16) : Prop :=
  ∀ k, result.cells[k]? =
    if k < n then payload.cells[k]?.map natToBe16 else payload.cells[k]?

theorem PayloadSwapped.symm {n : Nat} {payload result : Buffer Uint16 size16}
    (h : PayloadSwapped n payload result) : PayloadSwapped n result payload := by
  have hback : natToBe16 ∘ natToBe16 = id := funext beToNat16_natToBe16
  intro k
  rw [h k]
  by_cases hk : k < n
  · rw [if_pos hk, if_pos hk, Option.map_map, hback, Option.map_id, id]
  · rw [if_neg hk, if_neg hk]

theorem PayloadSwapped.unique {n : Nat} {payload result result' : Buffer Uint16 size16}
    (h : PayloadSwapped n payload result) (h' : PayloadSwapped n payload result') :
    result = result' :=
  Buffer.ext (List.ext_getElem? fun k => (h k).trans (h' k).symm)

/-- The loop, by induction on the words left. -/
theorem swapWords_swaps (n i : Nat) (payload : Buffer Uint16 size16) (hroom : i + n ≤ size16) :
    ∃ result, swapWords natToBe16 n i payload = some result ∧
      ∀ k, result.cells[k]? =
        if i ≤ k ∧ k < i + n then payload.cells[k]?.map natToBe16 else payload.cells[k]? := by
  induction n generalizing i payload with
  | zero => exact ⟨payload, rfl, fun k => by rw [if_neg (by omega)]⟩
  | succ n ih =>
    have hi : i < payload.cells.length := by
      rw [payload.size_eq]
      omega
    obtain ⟨result, hresult, hcells⟩ :=
      ih (i + 1) (payload.write i [natToBe16 payload.cells[i]]) (by omega)
    refine ⟨result, ?_, fun k => ?_⟩
    · rw [swapWords, List.getElem?_eq_getElem hi, Option.bind_eq_bind, Option.bind_some, hresult]
    · rw [hcells, Buffer.write_cells, Buffer.blit_singleton _ hi]
      by_cases hk : i = k
      · subst hk
        rw [if_neg (by omega), if_pos (by omega), List.getElem?_set_self hi,
          List.getElem?_eq_getElem hi, Option.map_some]
      · rw [List.getElem?_set_ne hk]
        by_cases hin : i + 1 ≤ k ∧ k < i + 1 + n
        · rw [if_pos hin, if_pos (by omega)]
        · rw [if_neg hin, if_neg (by omega)]

/-- Number of words either conversion swaps, by the header in the machine's order. -/
def swapCount (h : UpdHeader) : Nat :=
  if isContentOctets h then 0 else size1To16 (lUpdGetPayloadSize1 h)

theorem swapCount_le (h : UpdHeader) : swapCount h ≤ size1To16 (lUpdGetPayloadSize1 h) := by
  unfold swapCount
  split
  · exact Nat.zero_le _
  · exact Nat.le_refl _

/-- `result` is `packet` in the other byte order, where `h` is the header in the machine's. -/
structure Converts (h : UpdHeader) (packet result : UpdPacket size16) : Prop where
  header : result.toUpdHeader = swapHeader packet.toUpdHeader
  padding : result.padding = packet.padding
  payload : PayloadSwapped (swapCount h) packet.payload result.payload

theorem Converts.symm {h : UpdHeader} {packet result : UpdPacket size16}
    (hc : Converts h packet result) : Converts h result packet where
  header := by rw [hc.header, swapHeader_swapHeader]
  padding := hc.padding.symm
  payload := hc.payload.symm

theorem Converts.unique {h : UpdHeader} {packet result result' : UpdPacket size16}
    (hc : Converts h packet result) (hc' : Converts h packet result') : result = result' := by
  have hheader := hc.header.trans hc'.header.symm
  have hpadding := hc.padding.trans hc'.padding.symm
  have hpayload := hc.payload.unique hc'.payload
  cases result
  cases result'
  rw [UpdPacket.mk.injEq]
  exact ⟨hheader, hpadding, hpayload⟩

theorem swapPayload_swaps (packet : UpdPacket size16)
    (hroom : size1To16 (lUpdGetPayloadSize1 packet.toUpdHeader) ≤ size16) :
    ∃ payload, swapPayload natToBe16 packet = some { packet with payload } ∧
      PayloadSwapped (swapCount packet.toUpdHeader) packet.payload payload := by
  unfold swapPayload swapCount
  split
  · exact ⟨packet.payload, rfl, fun k => (if_neg (Nat.not_lt_zero k)).symm⟩
  · obtain ⟨payload, hpayload, hcells⟩ := swapWords_swaps
      (size1To16 (lUpdGetPayloadSize1 packet.toUpdHeader)) 0 packet.payload
      (by rwa [Nat.zero_add])
    refine ⟨payload, ?_, fun k => ?_⟩
    · change (swapWords natToBe16 (size1To16 _) 0 packet.payload).bind _ = _
      rw [hpayload, Option.bind_some]
      rfl
    · rw [hcells, Nat.zero_add]
      simp only [Nat.zero_le, true_and]

theorem lUpdNatToBe_converts (packet : UpdPacket size16)
    (hroom : size1To16 (lUpdGetPayloadSize1 packet.toUpdHeader) ≤ size16) :
    ∃ result, lUpdNatToBe packet = some result ∧ Converts packet.toUpdHeader packet result := by
  obtain ⟨payload, hpayload, hswapped⟩ := swapPayload_swaps packet hroom
  refine ⟨{ packet with toUpdHeader := swapHeader packet.toUpdHeader, payload }, ?_, rfl, rfl,
    hswapped⟩
  rw [lUpdNatToBe, hpayload]
  rfl

theorem lUpdBeToNat_converts (packet : UpdPacket size16)
    (hroom : size1To16 (lUpdGetPayloadSize1 (swapHeader packet.toUpdHeader)) ≤ size16) :
    ∃ result, lUpdBeToNat packet = some result ∧
      Converts (swapHeader packet.toUpdHeader) packet result := by
  obtain ⟨payload, hpayload, hswapped⟩ :=
    swapPayload_swaps { packet with toUpdHeader := swapHeader packet.toUpdHeader } hroom
  exact ⟨_, hpayload, rfl, rfl, hswapped⟩

/-- A payload of at most 960 octets has at most the words of the buffer. -/
theorem size1To16_le {size1 : Nat} (h : size1To8 size1 ≤ 960) :
    size1To16 size1 ≤ updMaxPayloadSize16 := by
  unfold size1To8 at h
  unfold size1To16 updMaxPayloadSize16
  omega

/-- The two conversions are inverse, and the one to network order gives the octets that
`upd.h` draws. -/
theorem byte_order_round_trip (packet : UpdPacket updMaxPayloadSize16) :
    (size1To8 (lUpdGetPayloadSize1 packet.toUpdHeader) ≤ 960 →
      ∃ be, lUpdNatToBe packet = some be ∧ lUpdBeToNat be = some packet ∧
        (low (headerWord be.toUpdHeader)).toNat =
          packet.codec.toNat * 16 + packet.type.toNat ∧
        (high (headerWord be.toUpdHeader)).toNat =
          packet.mode.toNat * 16 + packet.form.toNat ∧
        be.padding = packet.padding ∧
        ∀ k, size1To16 (lUpdGetPayloadSize1 packet.toUpdHeader) ≤ k →
          be.payload.cells[k]? = packet.payload.cells[k]?) ∧
    (size1To8 (lUpdGetPayloadSize1 (headerOfWord (beToNat16 (headerWord packet.toUpdHeader)))) ≤
        960 →
      ∃ nat, lUpdBeToNat packet = some nat ∧ lUpdNatToBe nat = some packet) := by
  constructor
  · intro hsize
    obtain ⟨be, hbe, hconverts⟩ := lUpdNatToBe_converts packet (size1To16_le hsize)
    have hheader : swapHeader be.toUpdHeader = packet.toUpdHeader := by
      rw [hconverts.header, swapHeader_swapHeader]
    obtain ⟨nat, hnat, hback⟩ := lUpdBeToNat_converts be (by
      rw [hheader]
      exact size1To16_le hsize)
    rw [hheader] at hback
    obtain ⟨hfirst, hsecond⟩ := octets_swapHeader packet.toUpdHeader
    refine ⟨be, hbe, by rw [hnat, hback.unique hconverts.symm], ?_, ?_, hconverts.padding, ?_⟩
    · rw [hconverts.header, hfirst]
    · rw [hconverts.header, hsecond]
    · intro k hk
      rw [hconverts.payload, if_neg (Nat.not_lt.2 (Nat.le_trans (swapCount_le _) hk))]
  · intro hsize
    obtain ⟨nat, hnat, hconverts⟩ := lUpdBeToNat_converts packet (size1To16_le hsize)
    obtain ⟨be, hbe, hback⟩ := lUpdNatToBe_converts nat (by
      rw [hconverts.header]
      exact size1To16_le hsize)
    rw [hconverts.header] at hback
    exact ⟨nat, hnat, by rw [hbe, hback.unique hconverts.symm]⟩

/-- A 30 ms packet of 16 kHz PCM fills the whole buffer; read in network order the same
header is that of a GSM EFR frame. -/
theorem byte_order_round_trip_pcm :
    let packet : UpdPacket updMaxPayloadSize16 :=
      ⟨⟨updCodecPcm, updTypeSpeechGood, updModePcm30Ms, updFormPcmLinear16Khz⟩, 0,
        Buffer.replicate _ 0x1234⟩
    (∃ be, lUpdNatToBe packet = some be ∧ lUpdBeToNat be = some packet) ∧
      ∃ nat, lUpdBeToNat packet = some nat ∧ lUpdNatToBe nat = some packet := by
  have h := byte_order_round_trip
    ⟨⟨updCodecPcm, updTypeSpeechGood, updModePcm30Ms, updFormPcmLinear16Khz⟩, 0,
      Buffer.replicate _ 0x1234⟩
  obtain ⟨be, hbe, hback, -⟩ := h.1 (by decide)
  exact ⟨⟨be, hbe, hback⟩, h.2 (by decide)⟩

end RtpServer.Verify.ByteOrder
