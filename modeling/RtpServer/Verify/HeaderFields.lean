import RtpServer.Library.BitField
import RtpServer.Source.RtpHeader

/-!
# RTP header fields

Where each field stands in the octets of the three headers, counted in bits from the first
one of octet 0 as RFC 3550 draws it. The getters read these bits and the setters write
them, through byte swaps, masks and halves; the rest follows from the fields of one header
having no bit in common.
-/
namespace RtpServer.Verify.HeaderFields

open RtpServer.Source RtpServer.Library.Bits RtpServer.Library.LittleEndian
open RtpServer.Source.Mgw RtpServer.Source.RtpHeader

/-- First bit and width of a field; the width is 0 where the type does not have it. -/
def fieldSpan : LRtpType → LRtpFieldId → Nat × Nat
  | .rtpUncompressed, .version => (0, 2)
  | .rtpUncompressed, .padding => (2, 1)
  | .rtpUncompressed, .extension => (3, 1)
  | .rtpUncompressed, .csrcCount => (4, 4)
  | .rtpUncompressed, .marker => (8, 1)
  | .rtpUncompressed, .payloadType => (9, 7)
  | .rtpUncompressed, .seqNumber => (16, 16)
  | .rtpUncompressed, .timestamp => (32, 32)
  | .rtpUncompressed, .ssrc => (64, 32)
  | .rtpCompressedMb, .seqNumber => (0, 8)
  | .rtpCompressedMb, .timestamp => (8, 16)
  | .rtpCompressedMb, .marker => (24, 1)
  | .rtpCompressedMb, .payloadType => (25, 7)
  | .rtpCompressedNb, .seqNumber => (0, 8)
  | .rtpCompressedNb, .timestamp => (8, 16)
  | _, _ => (0, 0)

def fieldFirst (type : LRtpType) (f : LRtpFieldId) : Nat := (fieldSpan type f).1

def fieldWidth (type : LRtpType) (f : LRtpFieldId) : Nat := (fieldSpan type f).2

def HasField (type : LRtpType) (f : LRtpFieldId) : Prop := 0 < fieldWidth type f

/-- `l_rtp_set_field` has no case for three of the fields. -/
def Settable (type : LRtpType) (f : LRtpFieldId) : Prop :=
  HasField type f ∧ f ≠ .padding ∧ f ≠ .extension ∧ f ≠ .csrcCount

/-- The fields `l_rtp_increment_field` has a case for. -/
def Counts (f : LRtpFieldId) : Prop :=
  f = .seqNumber ∨ f = .timestamp ∨ f = .ssrc ∨ f = .payloadType

instance (type : LRtpType) (f : LRtpFieldId) : Decidable (HasField type f) :=
  inferInstanceAs (Decidable (0 < fieldWidth type f))

instance (type : LRtpType) (f : LRtpFieldId) : Decidable (Settable type f) :=
  inferInstanceAs (Decidable (_ ∧ _))

instance (f : LRtpFieldId) : Decidable (Counts f) := inferInstanceAs (Decidable (_ ∨ _))

theorem fieldWidth_le (type : LRtpType) (f : LRtpFieldId) : fieldWidth type f ≤ 32 := by
  cases type <;> cases f <;> decide

theorem fields_disjoint (type : LRtpType) {f g : LRtpFieldId} (h : g ≠ f) :
    fieldFirst type g + fieldWidth type g ≤ fieldFirst type f ∨
      fieldFirst type f + fieldWidth type f ≤ fieldFirst type g := by
  cases type <;> cases f <;> cases g <;> first | exact absurd rfl h | decide

theorem octet_reads (header : List Uint8) (i : Nat) :
    Reads ((header.getD i 0).setWidth 32 : Uint32) header (8 * i) 8 :=
  (Reads.word header i).setWidth (by decide)

/-- A word read on the little-endian machine and swapped is its two octets in order. -/
theorem beToNat16_readWord (header : List Uint8) (i : Nat) :
    beToNat16 (readWord header i) =
      (header.getD (2 * i) 0).setWidth 16 <<< 8 ||| (header.getD (2 * i + 1) 0).setWidth 16 := by
  have hword : beToNat16 (readWord header i) =
      (header.getD (2 * i) 0 ++ header.getD (2 * i + 1) 0 : BitVec (8 + 8)) :=
    beToNat16_word _ _
  rw [hword]
  apply BitVec.eq_of_getLsbD_eq
  intro j hj
  rw [BitVec.getLsbD_append, BitVec.getLsbD_or, BitVec.getLsbD_shiftLeft,
    BitVec.getLsbD_setWidth, BitVec.getLsbD_setWidth, decide_eq_true hj,
    decide_eq_true (show j - 8 < 16 by omega)]
  by_cases h : j < 8
  · simp [h]
  · rw [BitVec.getLsbD_of_ge (header.getD (2 * i + 1) 0) j (Nat.not_lt.1 h)]
    simp [h]

theorem word_reads (header : List Uint8) (i : Nat) :
    Reads (beToNat16 (readWord header i)) header (16 * i) 16 := by
  have hhi := (Reads.word header (2 * i)).setWidth (n := 16) (by decide)
  have hlo := (Reads.word header (2 * i + 1)).setWidth (n := 16) (by decide)
  rw [← Nat.mul_assoc] at hhi
  rw [Nat.mul_succ, ← Nat.mul_assoc] at hlo
  rw [beToNat16_readWord]
  exact hhi.join hlo (by decide)

theorem lRtpGetField_reads (header : List Uint8) (type : LRtpType) (f : LRtpFieldId) :
    Reads (lRtpGetField header type f) header (fieldFirst type f) (fieldWidth type f) := by
  have hword := fun i => (word_reads header i).setWidth (n := 32) (by decide)
  have hbits := octet_reads header 3
  have htimestamp8 := (octet_reads header 1).join (octet_reads header 2) (by decide)
  cases type with
  | undefined => exact Reads.zero header 0
  | rtpUncompressed =>
    cases f with
    | undefined => exact Reads.zero header 0
    | version => exact (hword 0).part (s := 14) (n := 2) (by decide) (by decide)
    | padding => exact (hword 0).part (s := 13) (n := 1) (by decide) (by decide)
    | extension => exact (hword 0).part (s := 12) (n := 1) (by decide) (by decide)
    | csrcCount => exact (hword 0).part (s := 8) (n := 4) (by decide) (by decide)
    | marker => exact (hword 0).part (s := 7) (n := 1) (by decide) (by decide)
    | payloadType => exact (hword 0).part (s := 0) (n := 7) (by decide) (by decide)
    | seqNumber => exact hword 1
    | timestamp => exact (hword 2).join (hword 3) (by decide)
    | ssrc => exact (hword 4).join (hword 5) (by decide)
  | rtpCompressedMb =>
    cases f with
    | seqNumber => exact octet_reads header 0
    | timestamp => exact htimestamp8
    | marker => exact hbits.part (s := 7) (n := 1) (by decide) (by decide)
    | payloadType => exact hbits.part (s := 0) (n := 7) (by decide) (by decide)
    | _ => exact Reads.zero header 0
  | rtpCompressedNb =>
    cases f with
    | seqNumber => exact octet_reads header 0
    | timestamp => exact htimestamp8
    | _ => exact Reads.zero header 0

theorem octet_fieldSet {header : List Uint8} {i : Nat} (hi : i < header.length) (value : Uint32) :
    FieldSet header (8 * i) 8 value.toNat (header.set i (value.setWidth 8)) := by
  apply (FieldSet.word hi (value.setWidth 8)).congr
  intro j hj
  rw [BitVec.testBit_toNat, BitVec.testBit_toNat, BitVec.getLsbD_setWidth, decide_eq_true hj,
    Bool.true_and]

theorem word_fieldSet {header : List Uint8} {i : Nat} (hi : 2 * i + 1 < header.length)
    (x : Uint16) :
    FieldSet header (16 * i) 16 x.toNat (writeWord header i (natToBe16 x)) := by
  have hhi := FieldSet.word (show 2 * i < header.length by omega) (high x)
  have hlo := FieldSet.word (show 2 * i + 1 < (header.set (2 * i) (high x)).length by
    rwa [List.length_set]) (low x)
  rw [← Nat.mul_assoc] at hhi
  rw [Nat.mul_succ, ← Nat.mul_assoc] at hlo
  rw [writeWord, low_natToBe16, high_natToBe16]
  refine (hhi.congr fun j hj => ?_).join (hlo.congr fun j hj => ?_)
  · rw [BitVec.testBit_toNat, Nat.testBit_div_two_pow, BitVec.testBit_toNat, high,
      BitVec.getLsbD_extractLsb', decide_eq_true hj, Bool.true_and, Nat.add_comm]
  · rw [BitVec.testBit_toNat, BitVec.testBit_toNat, low, BitVec.getLsbD_extractLsb',
      decide_eq_true hj, Bool.true_and, Nat.zero_add]

theorem getLsbD_natToBe16 (x : Uint16) {j : Nat} (hj : j < 16) :
    (natToBe16 x).getLsbD j = x.getLsbD ((j + 8) % 16) := by
  rw [natToBe16, lMgwByteSwap16_eq]
  change (low x ++ high x : BitVec (8 + 8)).getLsbD j = _
  rw [BitVec.getLsbD_append, low, high, BitVec.getLsbD_extractLsb', BitVec.getLsbD_extractLsb']
  by_cases h : j < 8
  · rw [if_pos h, decide_eq_true h, Bool.true_and, Nat.add_comm, Nat.mod_eq_of_lt (by omega)]
  · rw [if_neg h, decide_eq_true (show j - 8 < 8 by omega), Bool.true_and,
      show (j + 8) % 16 = 0 + (j - 8) by omega]

/-- Masking and setting swapped words is masking and setting in the other order of octets. -/
theorem setBitfield_eq (header : List Uint8) (mask : Uint16) (value : Uint32) :
    setBitfield header mask value = writeWord header 0
      (natToBe16 ((beToNat16 (readWord header 0) &&& ~~~ mask) ||| value.setWidth 16)) := by
  unfold setBitfield
  refine congrArg (writeWord header 0) (BitVec.eq_of_getLsbD_eq fun j hj => ?_)
  have hmod : (j + 8) % 16 < 16 := Nat.mod_lt _ (by decide)
  have hback : ((j + 8) % 16 + 8) % 16 = j := by omega
  rw [getLsbD_natToBe16 _ hj, BitVec.getLsbD_or, BitVec.getLsbD_or, BitVec.getLsbD_and,
    BitVec.getLsbD_and, BitVec.getLsbD_not, BitVec.getLsbD_not, getLsbD_natToBe16 _ hj,
    getLsbD_natToBe16 _ hj, decide_eq_true hj, decide_eq_true hmod,
    show beToNat16 (readWord header 0) = natToBe16 (readWord header 0) from rfl,
    getLsbD_natToBe16 _ hmod, hback]

/-- A part of word 0 of the uncompressed header. -/
theorem setBitfield_fieldSet {header : List Uint8} (hroom : 12 ≤ header.length) (value : Uint32)
    (mask : Uint16) (ones : Uint32) (s n : Nat) (hn : s + n ≤ 16)
    (hmask : ∀ j < 16, mask.getLsbD j = decide (s ≤ j ∧ j < s + n))
    (hones : ∀ j < 16, ones.getLsbD j = decide (j < n)) :
    FieldSet header (16 * 0 + (16 - s - n)) n value.toNat
      (setBitfield header mask ((value &&& ones) <<< s)) := by
  have hword := word_fieldSet (show 2 * 0 + 1 < header.length by omega)
    ((beToNat16 (readWord header 0) &&& ~~~ mask) ||| ((value &&& ones) <<< s).setWidth 16)
  rw [setBitfield_eq]
  exact hword.masked (word_reads header 0) hn (by decide) hmask hones

/-- A part of octet 3 of the Mb header. -/
theorem octet_masked_fieldSet {header : List Uint8} {i : Nat} (hi : i < header.length)
    (value : Uint32) (mask : Uint8) (ones : Uint32) (s n : Nat) (hn : s + n ≤ 8)
    (hmask : ∀ j < 8, mask.getLsbD j = decide (s ≤ j ∧ j < s + n))
    (hones : ∀ j < 8, ones.getLsbD j = decide (j < n)) :
    FieldSet header (8 * i + (8 - s - n)) n value.toNat
      (header.set i ((header.getD i 0 &&& ~~~ mask) |||
        ((value &&& ones) <<< s).setWidth 8)) :=
  (FieldSet.word hi _).masked (Reads.word header i) hn (by decide) hmask hones

theorem setHiLo_fieldSet {header : List Uint8} {i : Nat} (hi : 2 * i + 3 < header.length)
    (value : Uint32) : FieldSet header (16 * i) 32 value.toNat (setHiLo header i value) := by
  have hhi := word_fieldSet (show 2 * i + 1 < header.length by omega)
    (((value &&& 0xFFFF0000) >>> 16).setWidth 16)
  have hlo := word_fieldSet (i := i + 1) (show 2 * (i + 1) + 1 < (writeWord header i
    (natToBe16 (((value &&& 0xFFFF0000) >>> 16).setWidth 16))).length by
      rw [length_writeWord]
      omega) ((value &&& 0x0000FFFF).setWidth 16)
  rw [Nat.mul_succ] at hlo
  have hupper : ∀ j < 16, (0xFFFF0000 : Uint32).getLsbD (16 + j) = true := by decide
  have hlower : ∀ j < 16, (0x0000FFFF : Uint32).getLsbD j = true := by decide
  refine (hhi.congr fun j hj => ?_).join (hlo.congr fun j hj => ?_)
  · rw [BitVec.testBit_toNat, Nat.testBit_div_two_pow, BitVec.testBit_toNat,
      BitVec.getLsbD_setWidth, BitVec.getLsbD_ushiftRight, BitVec.getLsbD_and, hupper j hj,
      decide_eq_true hj, Bool.true_and, Bool.and_true, Nat.add_comm]
  · rw [BitVec.testBit_toNat, BitVec.testBit_toNat, BitVec.getLsbD_setWidth, BitVec.getLsbD_and,
      hlower j hj, decide_eq_true hj, Bool.true_and, Bool.and_true]

theorem setTimestamp8_fieldSet {header : List Uint8} (hroom : 3 ≤ header.length) (value : Uint32) :
    FieldSet header 8 16 value.toNat (lRtpSetField.setTimestamp8 header value) := by
  have hhi := octet_fieldSet (show 1 < header.length by omega) ((value >>> 8) &&& 0x000000FF)
  have hlo := octet_fieldSet (show 2 < (header.set 1
    (((value >>> 8) &&& 0x000000FF).setWidth 8)).length by
      rw [List.length_set]
      omega) ((value >>> 0) &&& 0x000000FF)
  have hones : ∀ j < 8, (0x000000FF : Uint32).getLsbD j = true := by decide
  refine (hhi.congr fun j hj => ?_).join (hlo.congr fun j hj => ?_)
  · rw [BitVec.testBit_toNat, Nat.testBit_div_two_pow, BitVec.testBit_toNat, BitVec.getLsbD_and,
      BitVec.getLsbD_ushiftRight, hones j hj, Bool.and_true, Nat.add_comm]
  · rw [BitVec.testBit_toNat, BitVec.testBit_toNat, BitVec.getLsbD_and,
      BitVec.getLsbD_ushiftRight, hones j hj, Bool.and_true, Nat.zero_add]

/-- The setter writes the field and nothing else. -/
theorem lRtpSetField_fieldSet {header : List Uint8} {type : LRtpType}
    (hroom : lRtpGetHeaderSize8 type ≤ header.length) {f : LRtpFieldId} (hf : Settable type f)
    (value : Uint32) :
    FieldSet header (fieldFirst type f) (fieldWidth type f) value.toNat
      (lRtpSetField header type f value) := by
  obtain ⟨hhas, hpadding, hextension, hcsrc⟩ := hf
  cases type with
  | undefined => exact absurd hhas (Nat.lt_irrefl 0)
  | rtpUncompressed =>
    have h12 : 12 ≤ header.length := hroom
    cases f with
    | undefined => exact absurd hhas (Nat.lt_irrefl 0)
    | padding => exact absurd rfl hpadding
    | extension => exact absurd rfl hextension
    | csrcCount => exact absurd rfl hcsrc
    | version =>
      exact setBitfield_fieldSet h12 value 0xC000 0x0003 14 2 (by decide) (by decide) (by decide)
    | marker =>
      exact setBitfield_fieldSet h12 value 0x0080 0x0001 7 1 (by decide) (by decide) (by decide)
    | payloadType =>
      exact setBitfield_fieldSet h12 value 0x007F 0x007F 0 7 (by decide) (by decide) (by decide)
    | seqNumber =>
      apply (word_fieldSet (i := 1) (by omega) (value.setWidth 16)).congr
      intro j hj
      rw [BitVec.testBit_toNat, BitVec.testBit_toNat, BitVec.getLsbD_setWidth, decide_eq_true hj,
        Bool.true_and]
    | timestamp => exact setHiLo_fieldSet (i := 2) (by omega) value
    | ssrc => exact setHiLo_fieldSet (i := 4) (by omega) value
  | rtpCompressedMb =>
    have h4 : 4 ≤ header.length := hroom
    have hbits : 3 < header.length := h4
    cases f with
    | seqNumber => exact octet_fieldSet (i := 0) (by omega) value
    | timestamp => exact setTimestamp8_fieldSet (by omega) value
    | marker =>
      exact octet_masked_fieldSet hbits value 0x80 0x01 7 1 (by decide) (by decide) (by decide)
    | payloadType =>
      exact octet_masked_fieldSet hbits value 0x7F 0x7F 0 7 (by decide) (by decide) (by decide)
    | _ => exact absurd hhas (Nat.lt_irrefl 0)
  | rtpCompressedNb =>
    have h3 : 3 ≤ header.length := hroom
    cases f with
    | seqNumber => exact octet_fieldSet (i := 0) (by omega) value
    | timestamp => exact setTimestamp8_fieldSet h3 value
    | _ => exact absurd hhas (Nat.lt_irrefl 0)

theorem lRtpSetField_absent (header : List Uint8) {type : LRtpType} {f : LRtpFieldId}
    (hf : ¬ Settable type f) (value : Uint32) : lRtpSetField header type f value = header := by
  have hsettable : ∀ type f, Settable type f ∨
      ∀ header value, lRtpSetField header type f value = header := by
    intro type f
    cases type <;> cases f <;> first | exact Or.inr fun _ _ => rfl | exact Or.inl (by decide)
  exact (hsettable type f).resolve_left hf header value

theorem Counts.settable {type : LRtpType} {f : LRtpFieldId} (h : Counts f)
    (hhas : HasField type f) : Settable type f := by
  rcases h with rfl | rfl | rfl | rfl <;> exact ⟨hhas, by decide, by decide, by decide⟩

theorem lRtpIncrementField_counts (header : List Uint8) (type : LRtpType) {f : LRtpFieldId}
    (h : Counts f) (d : Uint32) :
    lRtpIncrementField header type f d =
      lRtpSetField header type f (lRtpGetField header type f + d) := by
  rcases h with rfl | rfl | rfl | rfl <;> rfl

theorem lRtpIncrementField_unchanged (header : List Uint8) {type : LRtpType} {f : LRtpFieldId}
    (h : ¬ (Counts f ∧ HasField type f)) (d : Uint32) :
    lRtpIncrementField header type f d = header := by
  by_cases hcounts : Counts f
  · rw [lRtpIncrementField_counts header type hcounts]
    exact lRtpSetField_absent header (fun hset => h ⟨hcounts, hset.1⟩) _
  · cases f <;> first | rfl | exact absurd (by decide) hcounts

/-- The 32-bit sum, cut to the field, is the sum modulo the field's width. -/
theorem toNat_add_mod {width : Nat} (hwidth : width ≤ 32) (x d : Uint32) :
    (x + d).toNat % 2 ^ width =
      (BitVec.ofNat 32 ((x.toNat + d.toNat) % 2 ^ width)).toNat % 2 ^ width := by
  have hdvd : 2 ^ width ∣ 2 ^ 32 := Nat.pow_dvd_pow 2 hwidth
  rw [BitVec.toNat_add, BitVec.toNat_ofNat, Nat.mod_mod_of_dvd _ hdvd, Nat.mod_mod_of_dvd _ hdvd,
    Nat.mod_mod]

theorem lRtpGetField_set {header : List Uint8} {type : LRtpType}
    (hroom : lRtpGetHeaderSize8 type ≤ header.length) {f : LRtpFieldId} (hf : Settable type f)
    (value : Uint32) :
    (lRtpGetField (lRtpSetField header type f value) type f).toNat =
        value.toNat % 2 ^ fieldWidth type f ∧
      ∀ g, g ≠ f →
        lRtpGetField (lRtpSetField header type f value) type g = lRtpGetField header type g := by
  have hset := lRtpSetField_fieldSet hroom hf value
  constructor
  · rw [(lRtpGetField_reads _ type f).toNat_eq, hset.read_same]
  · intro g hg
    apply BitVec.eq_of_toNat_eq
    rw [(lRtpGetField_reads _ type g).toNat_eq, (lRtpGetField_reads header type g).toNat_eq,
      hset.read_disjoint (fields_disjoint type hg)]

theorem lRtpIncrementField_eq_set {header : List Uint8} {type : LRtpType}
    (hroom : lRtpGetHeaderSize8 type ≤ header.length) {f : LRtpFieldId} (hcounts : Counts f)
    (hhas : HasField type f) (d : Uint32) :
    lRtpIncrementField header type f d = lRtpSetField header type f
      (BitVec.ofNat 32
        (((lRtpGetField header type f).toNat + d.toNat) % 2 ^ fieldWidth type f)) := by
  have hf := hcounts.settable hhas
  rw [lRtpIncrementField_counts header type hcounts]
  exact (lRtpSetField_fieldSet hroom hf _).unique (lRtpSetField_fieldSet hroom hf _)
    (toNat_add_mod (fieldWidth_le type f) _ d)

/-- Get, set and increment are those of independent big-endian fields. -/
theorem header_field_accessors {header : List Uint8} {type : LRtpType}
    (hroom : lRtpGetHeaderSize8 type ≤ header.length) :
    (∀ f, (lRtpGetField header type f).toNat =
      fieldValue header (fieldFirst type f) (fieldWidth type f)) ∧
    (∀ f, Settable type f → ∀ value : Uint32,
      (lRtpGetField (lRtpSetField header type f value) type f).toNat =
        value.toNat % 2 ^ fieldWidth type f ∧
      ∀ g, g ≠ f →
        lRtpGetField (lRtpSetField header type f value) type g = lRtpGetField header type g) ∧
    (∀ f, Counts f → HasField type f → ∀ d : Uint32,
      lRtpIncrementField header type f d = lRtpSetField header type f
        (BitVec.ofNat 32
          (((lRtpGetField header type f).toNat + d.toNat) % 2 ^ fieldWidth type f)) ∧
      ∀ g, g ≠ f →
        lRtpGetField (lRtpIncrementField header type f d) type g = lRtpGetField header type g) ∧
    (∀ f, ¬ (Counts f ∧ HasField type f) → ∀ d : Uint32,
      lRtpIncrementField header type f d = header) := by
  refine ⟨fun f => (lRtpGetField_reads header type f).toNat_eq,
    fun f hf value => lRtpGetField_set hroom hf value, fun f hcounts hhas d => ?_,
    fun f hf d => lRtpIncrementField_unchanged header hf d⟩
  have heq := lRtpIncrementField_eq_set hroom hcounts hhas d
  refine ⟨heq, fun g hg => ?_⟩
  rw [heq]
  exact (lRtpGetField_set hroom (hcounts.settable hhas) _).2 g hg

/-- A payload type of 127 plus 1 is 0, and the marker next to it stays set. -/
theorem header_field_accessors_carry :
    let header : List Uint8 := [0x80, 0xFF, 0, 1, 0, 0, 0, 2, 0, 0, 0, 3]
    let carried := lRtpIncrementField header .rtpUncompressed .payloadType 1
    carried = lRtpSetField header .rtpUncompressed .payloadType 0 ∧
      lRtpGetField carried .rtpUncompressed .marker = 1 := by
  obtain ⟨-, -, h, -⟩ := header_field_accessors
    (show lRtpGetHeaderSize8 .rtpUncompressed ≤
      ([0x80, 0xFF, 0, 1, 0, 0, 0, 2, 0, 0, 0, 3] : List Uint8).length by decide)
  obtain ⟨hset, hothers⟩ := h .payloadType (by decide) (by decide) 1
  exact ⟨hset, (hothers .marker (by decide)).trans (by decide)⟩

end RtpServer.Verify.HeaderFields
