import RtpServer.Library.BitWriter
import RtpServer.Source.EvsSerial

/-!
# The serialised frame

`evs_indices_to_serial_generic` appends the bits of the used indices, most significant bit
first, to what the frame holds; from the returned size it can be resumed, and every index is
read back from its place.
-/
namespace RtpServer.Verify.Serialiser

open RtpServer.Library.Bits RtpServer.Source RtpServer.Source.EvsSerial

def stateAt (frame : List Uint8) (p : Nat) : PackState := ⟨frame, p / 8, (0x80 : Uint8) >>> (p % 8)⟩

theorem modifyOctet_eq {frame : List Uint8} {i : Nat} (hi : i < frame.length) (f : Uint8 → Uint8) :
    modifyOctet frame i f = some (frame.set i (f (frame.getD i 0))) := by
  rw [modifyOctet, List.getElem?_eq_getElem hi, List.getD_eq_getElem _ _ hi, Option.map_some]

/-- The mask of each place, and when it moves on to the next octet. -/
theorem mask_table : ∀ r < 8,
    ((0x80 : Uint8) >>> r = 0x80 ↔ r = 0) ∧
      (0x80 : Uint8) >>> r = BitVec.twoPow 8 (8 - 1 - r) ∧
      ((0x80 : Uint8) >>> r >>> 1 = 0 ↔ r = 7) ∧
      (0x80 : Uint8) >>> r >>> 1 = (0x80 : Uint8) >>> (r + 1) := by decide

theorem stateAt_succ (frame : List Uint8) (p : Nat) :
    stateAt frame (p + 1) =
      if (0x80 : Uint8) >>> (p % 8) >>> 1 = 0 then ⟨frame, p / 8 + 1, 0x80⟩
      else ⟨frame, p / 8, (0x80 : Uint8) >>> (p % 8) >>> 1⟩ := by
  obtain ⟨-, -, hlast, hnext⟩ := mask_table (p % 8) (Nat.mod_lt p (by decide))
  unfold stateAt
  by_cases h7 : p % 8 = 7
  · rw [if_pos (hlast.2 h7), show (p + 1) / 8 = p / 8 + 1 by omega, show (p + 1) % 8 = 0 by omega]
    rfl
  · rw [if_neg fun h => h7 (hlast.1 h), hnext, show (p + 1) / 8 = p / 8 by omega,
      show (p + 1) % 8 = p % 8 + 1 by omega]

theorem packBit_eq {frame : List Uint8} {p : Nat} (hp : p < 8 * frame.length) (bit : Sint16) :
    packBit bit (stateAt frame p) = some (stateAt (putBit frame p (bit ≠ 0)) (p + 1)) := by
  obtain ⟨hfirst, hmask, -, -⟩ := mask_table (p % 8) (Nat.mod_lt p (by decide))
  have hi : p / 8 < frame.length := Nat.div_lt_of_lt_mul hp
  have hset : p / 8 < (frame.set (p / 8) 0).length := by rwa [List.length_set]
  rw [stateAt_succ]
  by_cases h0 : p % 8 = 0
  · by_cases hbit : bit ≠ 0
    · simp only [packBit, stateAt, if_pos (hfirst.2 h0), modifyOctet_eq hi, putBit, if_pos h0,
        Option.bind_eq_bind, Option.bind_some, if_pos hbit, modifyOctet_eq hset, decide_eq_true hbit,
        if_true, orAt, ← hmask]
      exact (apply_ite some _ _ _).symm
    · simp only [packBit, stateAt, if_pos (hfirst.2 h0), modifyOctet_eq hi, putBit, if_pos h0,
        Option.bind_eq_bind, Option.bind_some, if_neg hbit, decide_eq_false hbit,
        Bool.false_eq_true, if_false]
      exact (apply_ite some _ _ _).symm
  · have hne : ¬ (0x80 : Uint8) >>> (p % 8) = 0x80 := fun h => h0 (hfirst.1 h)
    by_cases hbit : bit ≠ 0
    · simp only [packBit, stateAt, if_neg hne, putBit, if_neg h0, if_pos hbit, modifyOctet_eq hi,
        Option.bind_eq_bind, Option.bind_some, decide_eq_true hbit, if_true, orAt,
        ← hmask]
      exact (apply_ite some _ _ _).symm
    · simp only [packBit, stateAt, if_neg hne, putBit, if_neg h0, if_neg hbit,
        decide_eq_false hbit, Bool.false_eq_true, if_false]
      exact (apply_ite some _ _ _).symm

/-- The mask at bit `n` picks bit `n` of the value. -/
theorem masked_ne_zero (value : Uint16) {n : Nat} (hn : n < 31) :
    decide (((value.setWidth 32 &&& (1 : Uint32) <<< n).setWidth 16 : Sint16) ≠ 0) =
      value.toNat.testBit n := by
  have hone : ∀ n < 31, (1 : Uint32) <<< n = BitVec.twoPow 32 n := by decide
  have hlow : ∀ n < 16, ((BitVec.twoPow 32 n).setWidth 16 : Sint16) ≠ 0 := by decide
  rw [hone n hn, BitVec.and_twoPow, BitVec.getLsbD_setWidth, BitVec.testBit_toNat]
  by_cases hbit : value.getLsbD n = true
  · have h16 : n < 16 := by
      by_contra hge
      rw [BitVec.getLsbD_of_ge _ _ (Nat.not_lt.1 hge)] at hbit
      cases hbit
    rw [hbit, Bool.and_true, decide_eq_true (show n < 32 by omega), if_pos rfl]
    exact decide_eq_true (hlow n h16)
  · rw [Bool.not_eq_true] at hbit
    rw [hbit, Bool.and_false]
    rfl

theorem mask_next : ∀ n < 30, ((1 : Uint32) <<< (n + 1)).sshiftRight 1 = (1 : Uint32) <<< n := by
  decide

theorem packIndice_eq (value : Uint16) {n : Nat} (hn : n ≤ 31) {frame : List Uint8} {p : Nat}
    (hroom : p + n ≤ 8 * frame.length) :
    packIndice value n ((1 : Uint32) <<< (n - 1)) (stateAt frame p) =
      some (stateAt (putBits frame p (msbBits value.toNat n)) (p + n)) := by
  induction n generalizing frame p with
  | zero => rfl
  | succ n ih =>
    rw [packIndice, Nat.add_sub_cancel, packBit_eq (by omega), masked_ne_zero value (by omega)]
    have hnext := @ih (by omega) (putBit frame p (value.toNat.testBit n)) (p + 1)
      (by rw [length_putBit]; omega)
    rw [msbBits, putBits, show p + (n + 1) = p + 1 + n by omega, ← hnext]
    cases n with
    | zero => rfl
    | succ n =>
      rw [mask_next n (by omega), Nat.add_sub_cancel]
      rfl

/-- The bits of the used indices. -/
def serialBits : List IndiceFx → List Bool
  | [] => []
  | ind :: inds =>
    (if ind.nbBits ≠ -1 then msbBits ind.value.toNat ind.nbBits.toInt.toNat else []) ++ serialBits inds

/-- Unused, or with a number of bits for which the mask is defined. -/
def WellSized (ind : IndiceFx) : Prop :=
  ind.nbBits = -1 ∨ (0 ≤ ind.nbBits.toInt ∧ ind.nbBits.toInt ≤ 31)

instance (ind : IndiceFx) : Decidable (WellSized ind) := inferInstanceAs (Decidable (_ ∨ _))

theorem packIndices_eq {inds : List IndiceFx} (hsize : ∀ ind ∈ inds, WellSized ind)
    {frame : List Uint8} {p : Nat} (hroom : p + (serialBits inds).length ≤ 8 * frame.length)
    (tot : Sint16) :
    packIndices inds (stateAt frame p) tot =
      some (stateAt (putBits frame p (serialBits inds)) (p + (serialBits inds).length),
        tot + BitVec.ofNat 16 (serialBits inds).length) := by
  induction inds generalizing frame p tot with
  | nil => simp [packIndices, serialBits, putBits]
  | cons ind inds ih =>
    have hrest : ∀ i ∈ inds, WellSized i := fun i hi => hsize i (List.mem_cons_of_mem _ hi)
    rw [serialBits] at hroom ⊢
    by_cases hused : ind.nbBits ≠ -1
    · rw [if_pos hused, List.length_append, length_msbBits] at hroom
      obtain ⟨hlo, hhi⟩ := (hsize ind List.mem_cons_self).resolve_left hused
      have hnat : BitVec.ofNat 16 ind.nbBits.toInt.toNat = ind.nbBits := by
        apply BitVec.eq_of_toInt_eq
        rw [BitVec.toInt_ofNat']
        have hmax : ind.nbBits.toInt ≤ 31 := hhi
        rw [Int.toNat_of_nonneg hlo, Int.bmod_eq_of_le (by omega) (by omega)]
      rw [packIndices, if_pos hused, if_pos hused]
      dsimp only
      rw [packIndice_eq _ (by omega) (by omega), putBits_append, length_msbBits,
        List.length_append, length_msbBits]
      have hnext := @ih hrest (putBits frame p (msbBits ind.value.toNat ind.nbBits.toInt.toNat))
        (p + ind.nbBits.toInt.toNat) (by rw [length_putBits]; omega) (tot + ind.nbBits)
      rw [Option.bind_eq_bind, Option.bind_some, hnext, Nat.add_assoc, BitVec.ofNat_add, hnat,
        BitVec.add_assoc]
    · rw [if_neg hused, List.nil_append] at hroom
      rw [packIndices, if_neg hused, if_neg hused, List.nil_append]
      exact ih hrest hroom tot

theorem serialBits_append (first second : List IndiceFx) :
    serialBits (first ++ second) = serialBits first ++ serialBits second := by
  induction first with
  | nil => rfl
  | cons ind first ih => rw [List.cons_append, serialBits, ih, serialBits, List.append_assoc]

theorem toNat_of_toInt {x : Sint16} {p : Nat} (h : x.toInt = p) : x.toNat = p ∧ p < 32768 := by
  have hx := x.isLt
  rw [BitVec.toInt_eq_toNat_cond] at h
  split at h <;> omega

theorem toInt_add_ofNat {x : Sint16} {p n : Nat} (h : x.toInt = p) (hshort : p + n < 32768) :
    (x + BitVec.ofNat 16 n).toInt = ((p + n : Nat) : Int) := by
  obtain ⟨hx, -⟩ := toNat_of_toInt h
  have hn : (x + BitVec.ofNat 16 n).toNat = p + n := by
    rw [BitVec.toNat_add, hx, BitVec.toNat_ofNat, Nat.add_mod_mod]
    exact Nat.mod_eq_of_lt (by omega)
  rw [BitVec.toInt_eq_toNat_of_lt (by omega), hn]

theorem evsIndicesToSerialGeneric_eq {indList : List IndiceFx} {numIndices : Nat}
    (hlist : numIndices ≤ indList.length) (hsize : ∀ ind ∈ indList.take numIndices, WellSized ind)
    {frame : List Uint8} {pFrameSize : Sint16} {p : Nat} (hp : pFrameSize.toInt = p)
    (hroom : p + (serialBits (indList.take numIndices)).length ≤ 8 * frame.length) :
    evsIndicesToSerialGeneric indList numIndices frame pFrameSize =
      some (putBits frame p (serialBits (indList.take numIndices)),
        pFrameSize + BitVec.ofNat 16 (serialBits (indList.take numIndices)).length) := by
  obtain ⟨hnat, -⟩ := toNat_of_toInt hp
  have hplace : (pFrameSize &&& 0x7).toNat = p % 8 := by
    rw [BitVec.toNat_and, hnat]
    exact Nat.and_two_pow_sub_one_eq_mod p 3
  have hvalid : ¬ (indList.length < numIndices ∨ pFrameSize.toInt < 0) := by omega
  have hpacked := packIndices_eq hsize hroom 0#16
  rw [BitVec.zero_add] at hpacked
  rw [evsIndicesToSerialGeneric, if_neg hvalid, hplace, hnat]
  change (packIndices _ (stateAt frame p) 0#16).bind _ = _
  rw [hpacked]
  rfl

/-- The used indices are appended to the bits held, and octets behind them keep their
contents. -/
theorem serial_appends {indList : List IndiceFx} {numIndices : Nat}
    (hlist : numIndices ≤ indList.length) (hsize : ∀ ind ∈ indList.take numIndices, WellSized ind)
    {frame : List Uint8} {bits : List Bool} (hheld : Holds frame bits) {pFrameSize : Sint16}
    (hbits : pFrameSize.toInt = bits.length)
    (hroom : bits.length + (serialBits (indList.take numIndices)).length ≤ 8 * frame.length)
    (hshort : bits.length + (serialBits (indList.take numIndices)).length < 32768) :
    ∃ frame' size', evsIndicesToSerialGeneric indList numIndices frame pFrameSize =
        some (frame', size') ∧
      Holds frame' (bits ++ serialBits (indList.take numIndices)) ∧
      size'.toInt = (bits ++ serialBits (indList.take numIndices)).length ∧
      frame'.length = frame.length ∧
      ∀ i, (bits ++ serialBits (indList.take numIndices)).length ≤ 8 * i →
        frame'.getD i 0 = frame.getD i 0 := by
  refine ⟨_, _, evsIndicesToSerialGeneric_eq hlist hsize hbits hroom, ?_, ?_, ?_, ?_⟩
  · exact hheld.append (by decide) hroom
  · rw [List.length_append]
    exact toInt_add_ofNat hbits hshort
  · exact length_putBits _ _ _
  · intro i hi
    rw [List.length_append] at hi
    exact getD_putBits_ge hi frame

/-- A frame that holds three bits, with octets of something else behind them. -/
def begun : List Uint8 := [0xC0, 0xFF, 0xFF]

theorem holds_begun : Holds begun [true, true, false] where
  fits := by decide
  written := by decide
  clear := by
    intro k hk hoctet
    have hfirst : ∀ k < 8, 3 ≤ k → bitAt begun k = false := by decide
    exact hfirst k (by simp at hoctet; omega) hk

theorem serial_appends_octets :
    ∃ frame' size', evsIndicesToSerialGeneric [⟨5, 3⟩, ⟨0xFFFF, -1⟩, ⟨0x1F, 7⟩] 3
        begun 3 = some (frame', size') ∧
      Holds frame' ([true, true, false] ++
        [true, false, true, false, false, true, true, true, true, true]) ∧
      size'.toInt = 13 ∧ frame'.length = 3 ∧
      ∀ i, 13 ≤ 8 * i → frame'.getD i 0 = begun.getD i 0 :=
  @serial_appends [⟨5, 3⟩, ⟨0xFFFF, -1⟩, ⟨0x1F, 7⟩] 3 (by decide) (by decide) begun
    [true, true, false] holds_begun 3 rfl (by decide) (by decide)

/-- Indices serialised in two goes give the frame of one go. -/
theorem serial_resumes {first second : List IndiceFx} (hfirst : ∀ ind ∈ first, WellSized ind)
    (hsecond : ∀ ind ∈ second, WellSized ind) {frame : List Uint8} {pFrameSize : Sint16}
    (hroom : pFrameSize.toNat + (serialBits (first ++ second)).length ≤ 8 * frame.length)
    (hshort : pFrameSize.toNat + (serialBits (first ++ second)).length < 32768) :
    evsIndicesToSerialGeneric (first ++ second) (first ++ second).length frame pFrameSize =
      (evsIndicesToSerialGeneric first first.length frame pFrameSize).bind fun r =>
        evsIndicesToSerialGeneric second second.length r.1 r.2 := by
  have hp : pFrameSize.toInt = (pFrameSize.toNat : Int) := by
    rw [BitVec.toInt_eq_toNat_of_lt]
    omega
  have hall : ∀ ind ∈ first ++ second, WellSized ind := fun ind hi =>
    (List.mem_append.1 hi).elim (hfirst ind) (hsecond ind)
  rw [serialBits_append, List.length_append] at hroom hshort
  rw [evsIndicesToSerialGeneric_eq (Nat.le_refl _) (by rwa [List.take_length]) hp
      (by rw [List.take_length, serialBits_append, List.length_append]; exact hroom),
    evsIndicesToSerialGeneric_eq (Nat.le_refl _) (by rwa [List.take_length]) hp
      (by rw [List.take_length]; omega)]
  simp only [List.take_length, Option.bind_some]
  rw [evsIndicesToSerialGeneric_eq (Nat.le_refl _) (by rwa [List.take_length])
      (toInt_add_ofNat hp (by omega)) (by rw [List.take_length, length_putBits]; omega)]
  rw [List.take_length, serialBits_append, putBits_append, List.length_append, BitVec.ofNat_add,
    BitVec.add_assoc]

theorem serial_resumes_octets :
    evsIndicesToSerialGeneric ([⟨5, 3⟩] ++ [⟨0x1F, 7⟩]) 2 [0xFF, 0xFF, 0xFF] 0 =
      (evsIndicesToSerialGeneric [⟨5, 3⟩] 1 [0xFF, 0xFF, 0xFF] 0).bind fun r =>
        evsIndicesToSerialGeneric [⟨0x1F, 7⟩] 1 r.1 r.2 :=
  @serial_resumes [⟨5, 3⟩] [⟨0x1F, 7⟩] (by decide) (by decide) _ _ (by decide) (by decide)

/-- Whatever was serialised before and behind it, an index is read back from its place. -/
theorem serial_read_back {before after : List IndiceFx} {ind : IndiceFx}
    (hsize : ∀ i ∈ before ++ ind :: after, WellSized i) (hused : ind.nbBits ≠ -1)
    {frame : List Uint8} {bits : List Bool} (hheld : Holds frame bits) {pFrameSize : Sint16}
    (hbits : pFrameSize.toInt = bits.length)
    (hroom : bits.length + (serialBits (before ++ ind :: after)).length ≤ 8 * frame.length) :
    ∃ frame' size', evsIndicesToSerialGeneric (before ++ ind :: after)
        (before ++ ind :: after).length frame pFrameSize = some (frame', size') ∧
      fieldValue frame' (bits.length + (serialBits before).length) ind.nbBits.toInt.toNat =
        ind.value.toNat % 2 ^ ind.nbBits.toInt.toNat := by
  refine ⟨_, _, evsIndicesToSerialGeneric_eq (Nat.le_refl _) (by rwa [List.take_length]) hbits
    (by rw [List.take_length]; exact hroom), ?_⟩
  have hsplit : bits ++ serialBits (before ++ ind :: after) =
      bits ++ serialBits before ++ msbBits ind.value.toNat ind.nbBits.toInt.toNat ++
        serialBits after := by
    rw [serialBits_append, serialBits, if_pos hused]
    simp only [List.append_assoc]
  have hnew := hheld.append (by decide) hroom
  rw [hsplit] at hnew
  rw [List.take_length, ← List.length_append]
  exact hnew.fieldValue

theorem serial_read_back_octets :
    ∃ frame' size', evsIndicesToSerialGeneric ([⟨5, 3⟩] ++ ⟨0x1F, 7⟩ :: [⟨0, -1⟩, ⟨1, 1⟩]) 4
        begun 3 = some (frame', size') ∧ fieldValue frame' 6 7 = 0x1F :=
  @serial_read_back [⟨5, 3⟩] [⟨0, -1⟩, ⟨1, 1⟩] ⟨0x1F, 7⟩ (by decide) (by decide) begun
    [true, true, false] holds_begun 3 rfl (by decide)

end RtpServer.Verify.Serialiser
