import RtpServer.Source.EvsCmr
import RtpServer.Verify.BitBuffer

/-!
# Which octet a payload is classified by

The payload is a string of octets, the readers take it as words of the machine. The most
significant bits of word 0 are those of payload octet 1, so the bits that decide on the
format and the mode request are taken from the second octet sent.
-/
namespace RtpServer.Verify.FirstOctet

open RtpServer.Source RtpServer.Library RtpServer.Library.Bits RtpServer.Library.LittleEndian
open RtpServer.Source.TypeDef RtpServer.Source.Mgw RtpServer.Source.Upd
open RtpServer.Source.EvsIngress RtpServer.Source.EvsCmr RtpServer.Verify.BitBuffer

/-- One bit copied behind the last bit but one of a zeroed word is the value of the word. -/
theorem copied_bit {payload : List Uint16} (hroom : 2 ≤ payload.length) :
    ((lMgwOrBitBuf payload 0 [0, 0] 15 1).getD [0, 0]).getD 0 0 = 1 ↔ bitAt payload 0 = true := by
  obtain ⟨r, hr, hcopy⟩ := @lMgwOrBitBuf_copied payload [0, 0] 0 15 1 hroom (by decide)
  have hone : ∀ j < 16, (1 : Uint16).getMsbD j = decide (15 ≤ j) := by decide
  have hbits : ∀ j < 16, (r.getD 0 0).getMsbD j = (decide (15 ≤ j) && bitAt payload 0) := by
    intro j hj
    have hbit := hcopy.bits j
    have hzero : ∀ j < 16, bitAt ([0, 0] : List Uint16) j = false := by decide
    rw [hzero j hj, Bool.false_or] at hbit
    have hword := bitAt_word r 0 hj
    rw [Nat.mul_zero, Nat.zero_add] at hword
    rw [← hword, hbit, decide_eq_decide.2 (show 15 ≤ j ∧ j < 15 + 1 ↔ 15 ≤ j by omega)]
    by_cases h15 : 15 ≤ j
    · rw [show 0 + (j - 15) = 0 by omega]
    · rw [decide_eq_false h15, Bool.false_and, Bool.false_and]
  rw [hr, Option.getD_some]
  constructor
  · intro h1
    have hlast := hbits 15 (by decide)
    rw [h1, hone 15 (by decide)] at hlast
    simpa using hlast.symm
  · intro hbit
    apply BitVec.eq_of_getMsbD_eq
    intro j hj
    rw [hbits j hj, hone j hj, hbit, Bool.and_true]

theorem isWbioHfSid_iff {payload : List Uint16} (hroom : 2 ≤ payload.length) :
    isWbioHfSid payload = true ↔ bitAt payload 0 = true := by
  rw [isWbioHfSid, decide_eq_true_iff]
  exact copied_bit hroom

theorem checkIfCmr_iff {payload : List Uint16} (hroom : 2 ≤ payload.length) :
    checkIfCmr payload = true ↔ bitAt payload 0 = true := by
  rw [checkIfCmr, decide_eq_true_iff]
  exact copied_bit hroom

theorem words_head {buff : List Uint8} (hroom : 4 ≤ buff.length) :
    2 ≤ (words buff).length ∧
      payloadWord (words buff) 0 = word (buff.getD 0 0) (buff.getD 1 0) := by
  constructor
  · rw [length_words]
    omega
  · rcases buff with _ | ⟨o0, _ | ⟨o1, rest⟩⟩
    · exact absurd (show 4 ≤ 0 from hroom) (by decide)
    · exact absurd (show 4 ≤ 1 from hroom) (by decide)
    · rfl

theorem bitAt_words_zero {buff : List Uint8} (hroom : 4 ≤ buff.length) :
    bitAt (words buff) 0 = (buff.getD 1 0).msb := by
  obtain ⟨-, hword⟩ := words_head hroom
  change (payloadWord (words buff) 0).getMsbD 0 = _
  rw [hword]
  change (buff.getD 1 0 ++ buff.getD 0 0 : BitVec (8 + 8)).getMsbD 0 = _
  rw [BitVec.getMsbD_append, if_neg (by decide), BitVec.msb]

/-- The three bits the compact format takes its request from. -/
theorem request_bits {buff : List Uint8} (hroom : 4 ≤ buff.length) :
    ((payloadWord (words buff) 0 >>> 13) &&& 0x7).toNat = (buff.getD 1 0 >>> 5).toNat := by
  obtain ⟨-, hword⟩ := words_head hroom
  have hmask := Nat.and_two_pow_sub_one_eq_mod ((payloadWord (words buff) 0).toNat / 2 ^ 13) 3
  have hhigh := toNat_word (buff.getD 0 0) (buff.getD 1 0)
  rw [← hword] at hhigh
  have hlo := (buff.getD 0 0).isLt
  have hhi := (buff.getD 1 0).isLt
  rw [BitVec.toNat_and, BitVec.toNat_ushiftRight, BitVec.toNat_ushiftRight,
    Nat.shiftRight_eq_div_pow, Nat.shiftRight_eq_div_pow]
  change _ &&& 2 ^ 3 - 1 = _
  rw [hmask, hhigh]
  omega

theorem evsHdrFmt_seven_iff {buff : List Uint8} (hroom : 4 ≤ buff.length) :
    evsHdrFmt (words buff) 7 = .full ↔ (buff.getD 1 0).msb = true := by
  have hsize : getEvsHdrFormat (toUint16 (size8To1 7)) updEvsPrimaryMode = .ptSize56 := by decide
  rw [← bitAt_words_zero hroom, ← isWbioHfSid_iff (words_head hroom).1, evsHdrFmt, hsize]
  cases isWbioHfSid (words buff) <;> decide

theorem updateEvsCmrData_compact_ingress {buff : List Uint8} (hroom : 4 ≤ buff.length)
    (rtpCmrData : RtpCmrData) (params : Params) (updPacket : UpdHeader) :
    (updateEvsCmrData rtpCmrData params (words buff) updPacket updEvsWbioMode .compact).ingress =
      BitVec.ofNat 8 (mapUpdMode (buff.getD 1 0 >>> 5).toNat updPacket.mode) := by
  rw [updateEvsCmrData, if_pos ⟨rfl, rfl⟩, request_bits hroom]

/-- No two requests of the compact format name one mode. -/
theorem mapUpdMode_injective : ∀ a < 8, ∀ b < 8, ∀ updModeIn : BitVec 4,
    BitVec.ofNat 8 (mapUpdMode a updModeIn) = BitVec.ofNat 8 (mapUpdMode b updModeIn) → a = b := by
  decide +kernel

/-- Format and mode request as the first octet of the payload has them. -/
structure ReadsFirstOctet (buff : List Uint8) (rtpCmrData : RtpCmrData) (params : Params)
    (updPacket : UpdHeader) : Prop where
  headerFull : evsHdrFmt (words buff) 7 = .full ↔ (buff.getD 0 0).msb = true
  cmr : checkIfCmr (words buff) = true ↔ (buff.getD 0 0).msb = true
  request :
    (updateEvsCmrData rtpCmrData params (words buff) updPacket updEvsWbioMode .compact).ingress =
      BitVec.ofNat 8 (mapUpdMode (buff.getD 0 0 >>> 5).toNat updPacket.mode)

theorem msb_eq_of_top {a b : Uint8} (h : a >>> 5 = b >>> 5) : a.msb = b.msb := by
  have hmsb : ∀ o : Uint8, o.msb = (o >>> 5).getLsbD 2 := by
    intro o
    rw [BitVec.getLsbD_ushiftRight, BitVec.msb_eq_getLsbD_last]
  rw [hmsb, hmsb, h]

theorem readsFirstOctet_iff {buff : List Uint8} (hroom : 4 ≤ buff.length)
    (rtpCmrData : RtpCmrData) (params : Params) (updPacket : UpdHeader) :
    ReadsFirstOctet buff rtpCmrData params updPacket ↔
      buff.getD 0 0 >>> 5 = buff.getD 1 0 >>> 5 := by
  constructor
  · intro h
    have hrequest := h.request
    rw [updateEvsCmrData_compact_ingress hroom] at hrequest
    have hlt : ∀ o : Uint8, (o >>> 5).toNat < 8 := fun o =>
      BitVec.toNat_ushiftRight_lt o 5 (by decide)
    exact (BitVec.eq_of_toNat_eq
      (mapUpdMode_injective _ (hlt _) _ (hlt _) updPacket.mode hrequest)).symm
  · intro htop
    have hmsb := msb_eq_of_top htop
    refine ⟨?_, ?_, ?_⟩
    · rw [hmsb]
      exact evsHdrFmt_seven_iff hroom
    · rw [hmsb, ← bitAt_words_zero hroom]
      exact checkIfCmr_iff (words_head hroom).1
    · rw [htop]
      exact updateEvsCmrData_compact_ingress hroom rtpCmrData params updPacket

def noCmr : RtpCmrData := ⟨0, 0, 0, 0, 0, 0, 15, 15, 0, 0, 0⟩

theorem readsFirstOctet_iff_repeated :
    ReadsFirstOctet (List.replicate 8 0xE0) noCmr ⟨0, 0⟩ ⟨updCodecEvs, 1, 0, 1⟩ :=
  (readsFirstOctet_iff (show 4 ≤ (List.replicate 8 0xE0).length by decide) noCmr ⟨0, 0⟩
    ⟨updCodecEvs, 1, 0, 1⟩).2 (by decide)

/-- A payload whose first octet has its top three bits set and whose second has not. -/
theorem readsFirstOctet_second :
    let buff : List Uint8 := [0xE0, 0x00, 0, 0, 0, 0, 0, 0]
    evsHdrFmt (words buff) 7 = .compact ∧ checkIfCmr (words buff) = false ∧
      (updateEvsCmrData noCmr ⟨0, 0⟩ (words buff) ⟨updCodecEvs, 1, 0, 1⟩ updEvsWbioMode
        .compact).ingress = 0 ∧
      ¬ ReadsFirstOctet buff noCmr ⟨0, 0⟩ ⟨updCodecEvs, 1, 0, 1⟩ := by
  refine ⟨by decide, by decide, by decide, fun h => ?_⟩
  exact absurd (h.cmr.2 (by decide)) (by decide)

end RtpServer.Verify.FirstOctet
