import RtpServer.Library.BitField

/-!
# Writing bits one after another

A bit writer over an array of `w`-bit words: it clears a word when it puts the first bit
into it and ORs every bit to its place. What is written so far is a list of bits, and the
writer appends to that list.
-/
namespace RtpServer.Library.Bits

variable {w : Nat} {ws us : List (BitVec w)} {bits : List Bool}

/-- The first bits of `ws` are `bits`; the word they end in holds nothing else. -/
structure Holds (ws : List (BitVec w)) (bits : List Bool) : Prop where
  fits : bits.length ≤ w * ws.length
  written : ∀ k < bits.length, bitAt ws k = bits.getD k false
  clear : ∀ k, bits.length ≤ k → w * (k / w) < bits.length → bitAt ws k = false

theorem Holds.nil (ws : List (BitVec w)) : Holds ws [] where
  fits := Nat.zero_le _
  written _ hk := absurd hk (Nat.not_lt_zero _)
  clear _ _ hk := absurd hk (Nat.not_lt_zero _)

/-- The words that bits were written to are determined by the bits. -/
theorem Holds.unique (h : Holds ws bits) (h' : Holds us bits) {k : Nat}
    (hk : w * (k / w) < bits.length) : bitAt ws k = bitAt us k := by
  by_cases hlt : k < bits.length
  · rw [h.written k hlt, h'.written k hlt]
  · rw [h.clear k (Nat.not_lt.1 hlt) hk, h'.clear k (Nat.not_lt.1 hlt) hk]

/-- The words written to hold the bits wherever they are put. -/
theorem Holds.take_append (h : Holds ws bits) {n : Nat} (hn : bits.length ≤ w * n)
    (hws : n ≤ ws.length) (rest : List (BitVec w)) : Holds (ws.take n ++ rest) bits := by
  have hlen : (ws.take n).length = n := by rw [List.length_take, Nat.min_eq_left hws]
  have hsame : ∀ k, k / w < n → bitAt (ws.take n ++ rest) k = bitAt ws k := by
    intro k hk
    unfold bitAt
    rw [List.getD_append _ _ _ _ (by omega), getD_take_of_lt _ hk]
  constructor
  · rw [List.length_append, hlen, Nat.mul_add]
    omega
  · intro k hk
    rw [hsame k (Nat.div_lt_of_lt_mul (by omega))]
    exact h.written k hk
  · intro k hk hword
    have hlt : k / w < n := by
      by_contra hge
      have hmul := Nat.mul_le_mul_left w (Nat.not_lt.1 hge)
      omega
    rw [hsame k hlt]
    exact h.clear k hk hword

def putBit (ws : List (BitVec w)) (p : Nat) (b : Bool) : List (BitVec w) :=
  let cleared := if p % w = 0 then ws.set (p / w) 0 else ws
  if b then orAt cleared (p / w) (BitVec.twoPow w (w - 1 - p % w)) else cleared

@[simp] theorem length_putBit (ws : List (BitVec w)) (p : Nat) (b : Bool) :
    (putBit ws p b).length = ws.length := by
  unfold putBit
  split <;> split <;> simp

theorem bitAt_set_zero {i : Nat} (hi : i < ws.length) (k : Nat) :
    bitAt (ws.set i 0) k = if k / w = i then false else bitAt ws k := by
  unfold bitAt
  rw [List.getD_eq_getElem?_getD, List.getElem?_set]
  by_cases he : k / w = i
  · rw [if_pos he.symm, if_pos hi, if_pos he, Option.getD_some]
    exact BitVec.getMsbD_zero
  · rw [if_neg (Ne.symm he), if_neg he, List.getD_eq_getElem?_getD]

/-- One bit is put to its place, behind it the word is cleared if it is a new one. -/
theorem bitAt_putBit (hw : 0 < w) {p : Nat} (hp : p < w * ws.length) (b : Bool) (k : Nat) :
    bitAt (putBit ws p b) k =
      (decide (k = p) && b || !decide (p % w = 0 ∧ k / w = p / w) && bitAt ws k) := by
  have hi : p / w < ws.length := Nat.div_lt_of_lt_mul hp
  have hcleared : bitAt (if p % w = 0 then ws.set (p / w) 0 else ws) k =
      (!decide (p % w = 0 ∧ k / w = p / w) && bitAt ws k) := by
    by_cases hnew : p % w = 0
    · rw [if_pos hnew, bitAt_set_zero hi]
      by_cases hk : k / w = p / w
      · rw [if_pos hk, decide_eq_true ⟨hnew, hk⟩]
        rfl
      · rw [if_neg hk, decide_eq_false fun h => hk h.2]
        rfl
    · rw [if_neg hnew, decide_eq_false fun h => hnew h.1]
      rfl
  have hlen : p / w < (if p % w = 0 then ws.set (p / w) 0 else ws).length := by
    split <;> simpa using hi
  unfold putBit
  cases b with
  | false =>
    rw [Bool.and_false, Bool.false_or]
    exact hcleared
  | true =>
    -- the only bit of the mask is the one put
    have hplace : (decide (w * (p / w) ≤ k ∧ k < w * (p / w) + w) &&
        (BitVec.twoPow w (w - 1 - p % w)).getMsbD (k - w * (p / w))) = decide (k = p) := by
      have hmod := Nat.mod_lt p hw
      have hdiv := Nat.div_add_mod p w
      by_cases hin : w * (p / w) ≤ k ∧ k < w * (p / w) + w
      · rw [decide_eq_true hin, Bool.true_and, BitVec.getMsbD_eq_getLsbD,
          decide_eq_true (show k - w * (p / w) < w by omega), Bool.true_and,
          BitVec.getLsbD_twoPow, decide_eq_true (show w - 1 - p % w < w by omega), Bool.true_and,
          decide_eq_decide]
        omega
      · rw [decide_eq_false hin, decide_eq_false (by omega), Bool.false_and]
    rw [if_pos rfl, bitAt_orAt hlen, hcleared, hplace, Bool.and_true, Bool.or_comm]

theorem getD_putBit_ne (ws : List (BitVec w)) {p i : Nat} (b : Bool) (hi : i ≠ p / w) :
    (putBit ws p b).getD i 0 = ws.getD i 0 := by
  have hcleared : (if p % w = 0 then ws.set (p / w) 0 else ws).getD i 0 = ws.getD i 0 := by
    split
    · rw [List.getD_eq_getElem?_getD, List.getElem?_set_ne (Ne.symm hi),
        List.getD_eq_getElem?_getD]
    · rfl
  unfold putBit
  cases b with
  | false => exact hcleared
  | true =>
    rw [if_pos rfl, orAt, List.getD_eq_getElem?_getD, List.getElem?_set_ne (Ne.symm hi),
      ← List.getD_eq_getElem?_getD, hcleared]

theorem Holds.push (hw : 0 < w) (h : Holds ws bits) (hroom : bits.length < w * ws.length)
    (b : Bool) : Holds (putBit ws bits.length b) (bits ++ [b]) where
  fits := by
    rw [length_putBit, List.length_append, List.length_singleton]
    exact hroom
  written k hk := by
    rw [List.length_append, List.length_singleton] at hk
    rw [bitAt_putBit hw hroom]
    by_cases he : k = bits.length
    · subst he
      rw [decide_eq_true rfl, Bool.true_and, List.getD_append_right _ _ _ _ (Nat.le_refl _),
        Nat.sub_self]
      -- the place is 0, or its word has just been cleared
      have hold : (!decide (bits.length % w = 0 ∧ bits.length / w = bits.length / w) &&
          bitAt ws bits.length) = false := by
        by_cases hnew : bits.length % w = 0
        · rw [decide_eq_true ⟨hnew, rfl⟩]
          rfl
        · have hdiv := Nat.div_add_mod bits.length w
          rw [h.clear _ (Nat.le_refl _) (by omega), Bool.and_false]
      rw [hold, Bool.or_false]
      rfl
    · have hlt : k < bits.length := by omega
      have hkeep : ¬ (bits.length % w = 0 ∧ k / w = bits.length / w) := by
        rintro ⟨hnew, hword⟩
        have hdiv := Nat.div_add_mod bits.length w
        have hk' := Nat.div_add_mod k w
        rw [hword] at hk'
        omega
      rw [decide_eq_false he, decide_eq_false hkeep, List.getD_append _ _ _ _ hlt,
        ← h.written k hlt]
      simp
  clear k hk hword := by
    rw [List.length_append, List.length_singleton] at hk hword
    have hmul := Nat.div_add_mod k w
    have hlast := Nat.div_add_mod bits.length w
    have hk' := Nat.mod_lt k hw
    have hl' := Nat.mod_lt bits.length hw
    -- a bit in the last word, behind the one put
    have hsame : k / w = bits.length / w := by
      have hle : k / w ≤ bits.length / w := by
        rw [Nat.le_div_iff_mul_le hw, Nat.mul_comm]
        omega
      have hge : bits.length / w ≤ k / w := Nat.div_le_div_right (by omega)
      omega
    rw [bitAt_putBit hw hroom, decide_eq_false (by omega), Bool.false_and, Bool.false_or]
    by_cases hnew : bits.length % w = 0
    · rw [decide_eq_true ⟨hnew, hsame⟩]
      rfl
    · rw [h.clear k (by omega) (by rw [hsame]; omega), Bool.and_false]

def putBits (ws : List (BitVec w)) (p : Nat) : List Bool → List (BitVec w)
  | [] => ws
  | b :: bs => putBits (putBit ws p b) (p + 1) bs

@[simp] theorem length_putBits (ws : List (BitVec w)) (p : Nat) (bs : List Bool) :
    (putBits ws p bs).length = ws.length := by
  induction bs generalizing ws p with
  | nil => rfl
  | cons b bs ih => rw [putBits, ih, length_putBit]

theorem putBits_append (ws : List (BitVec w)) (p : Nat) (bs cs : List Bool) :
    putBits ws p (bs ++ cs) = putBits (putBits ws p bs) (p + bs.length) cs := by
  induction bs generalizing ws p with
  | nil => rfl
  | cons b bs ih =>
    rw [List.cons_append, putBits, ih, putBits, List.length_cons, Nat.add_assoc, Nat.add_comm 1]

/-- Writing appends to what is held. -/
theorem Holds.append (hw : 0 < w) {bs : List Bool} (h : Holds ws bits)
    (hroom : bits.length + bs.length ≤ w * ws.length) :
    Holds (putBits ws bits.length bs) (bits ++ bs) := by
  induction bs generalizing ws bits with
  | nil =>
    rw [List.append_nil]
    exact h
  | cons b bs ih =>
    rw [List.length_cons] at hroom
    have hnext := ih (h.push hw (by omega) b) (by
      rw [length_putBit, List.length_append, List.length_singleton]
      omega)
    rw [List.append_assoc, List.length_append, List.length_singleton] at hnext
    exact hnext

/-- Words that start at or behind the end of what is written keep their contents. -/
theorem getD_putBits_ge {p : Nat} {bs : List Bool} {i : Nat}
    (hi : p + bs.length ≤ w * i) (ws : List (BitVec w)) :
    (putBits ws p bs).getD i 0 = ws.getD i 0 := by
  induction bs generalizing ws p with
  | nil => rfl
  | cons b bs ih =>
    rw [List.length_cons] at hi
    have hne : i ≠ p / w := by
      rintro rfl
      have hle := Nat.mul_div_le p w
      omega
    rw [putBits, ih (by omega), getD_putBit_ne _ _ hne]

/-- The lower `n` bits of `v`, most significant first. -/
def msbBits (v : Nat) : (n : Nat) → List Bool
  | 0 => []
  | n + 1 => v.testBit n :: msbBits v n

@[simp] theorem length_msbBits (v n : Nat) : (msbBits v n).length = n := by
  induction n with
  | zero => rfl
  | succ n ih => rw [msbBits, List.length_cons, ih]

theorem getD_msbBits (v : Nat) {n k : Nat} (hk : k < n) :
    (msbBits v n).getD k false = v.testBit (n - 1 - k) := by
  induction n generalizing k with
  | zero => exact absurd hk (Nat.not_lt_zero k)
  | succ n ih =>
    cases k with
    | zero => rfl
    | succ k =>
      rw [msbBits, List.getD_cons_succ, ih (by omega), show n + 1 - 1 - (k + 1) = n - 1 - k by omega]

/-- A number written between other bits is read back. -/
theorem Holds.fieldValue {pre post : List Bool} {v n : Nat}
    (h : Holds ws (pre ++ msbBits v n ++ post)) : fieldValue ws pre.length n = v % 2 ^ n := by
  apply Nat.eq_of_testBit_eq
  intro j
  rw [testBit_fieldValue, Nat.testBit_mod_two_pow]
  by_cases hj : j < n
  · have hlen : pre.length + (n - 1 - j) < (pre ++ msbBits v n ++ post).length := by
      simp only [List.length_append, length_msbBits]
      omega
    rw [h.written _ hlen, List.append_assoc, List.getD_append_right _ _ _ _ (Nat.le_add_right _ _),
      Nat.add_sub_cancel_left, List.getD_append _ _ _ _ (by rw [length_msbBits]; omega),
      getD_msbBits _ (by omega), show n - 1 - (n - 1 - j) = j by omega]
  · rw [decide_eq_false hj, Bool.false_and, Bool.false_and]

end RtpServer.Library.Bits
