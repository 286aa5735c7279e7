import RtpServer.Library.Buffer

/-!
# Bits of word arrays

The bits of an array of `w`-bit words, numbered from the most significant bit of word 0;
past the end every bit reads as 0. A word that does not start on a word boundary is read
from two neighbours and written into two neighbours by shifts.
-/
namespace RtpServer.Library.Bits

variable {w : Nat}

def bitAt (ws : List (BitVec w)) (k : Nat) : Bool := (ws.getD (k / w) 0).getMsbD (k % w)

theorem bitAt_word (ws : List (BitVec w)) (i : Nat) {j : Nat} (hj : j < w) :
    bitAt ws (w * i + j) = (ws.getD i 0).getMsbD j := by
  rw [bitAt, Nat.mul_add_div (by omega), Nat.mul_add_mod, Nat.div_eq_of_lt hj,
    Nat.mod_eq_of_lt hj, Nat.add_zero]

/-- Every bit number is a word and a place in it. -/
theorem exists_word_place (hw : 0 < w) (k : Nat) : ∃ i j, j < w ∧ k = w * i + j :=
  ⟨k / w, k % w, Nat.mod_lt k hw, (Nat.div_add_mod k w).symm⟩

/-- Arrays of one length are equal when their bits are. -/
theorem ext_of_bitAt {us ws : List (BitVec w)} (hlen : us.length = ws.length)
    (h : ∀ k < w * us.length, bitAt us k = bitAt ws k) : us = ws := by
  refine List.ext_getElem hlen fun i hi hi' => BitVec.eq_of_getMsbD_eq fun j hj => ?_
  have hk : w * i + j < w * us.length :=
    calc w * i + j < w * (i + 1) := by rw [Nat.mul_succ]; omega
      _ ≤ w * us.length := Nat.mul_le_mul_left w hi
  have hbit := h _ hk
  rwa [bitAt_word us i hj, bitAt_word ws i hj, List.getD_eq_getElem _ _ hi,
    List.getD_eq_getElem _ _ hi'] at hbit

theorem bitAt_take (ws : List (BitVec w)) (n k : Nat) :
    bitAt (ws.take n) k = (decide (k < w * n) && bitAt ws k) := by
  rcases Nat.eq_zero_or_pos w with rfl | hw
  · simp [bitAt]
  · obtain ⟨i, j, hj, rfl⟩ := exists_word_place hw k
    rw [bitAt_word _ _ hj, bitAt_word _ _ hj]
    by_cases hi : i < n
    · have hk : w * i + j < w * n :=
        calc w * i + j < w * (i + 1) := by rw [Nat.mul_succ]; omega
          _ ≤ w * n := Nat.mul_le_mul_left w hi
      rw [decide_eq_true hk, Bool.true_and, getD_take_of_lt ws hi]
    · have hk : ¬ w * i + j < w * n := by
        have hm := Nat.mul_le_mul_left w (Nat.not_lt.1 hi)
        omega
      rw [decide_eq_false hk, Bool.false_and, List.getD_eq_default _ _
        (Nat.le_trans (List.length_take_le _ _) (Nat.not_lt.1 hi))]
      exact BitVec.getMsbD_zero

theorem bitAt_drop (ws : List (BitVec w)) (n k : Nat) :
    bitAt (ws.drop n) k = bitAt ws (w * n + k) := by
  rcases Nat.eq_zero_or_pos w with rfl | hw
  · simp [bitAt]
  · rw [bitAt, bitAt, Nat.mul_add_div hw, Nat.mul_add_mod, getD_drop]

theorem bitAt_append (us ws : List (BitVec w)) (k : Nat) :
    bitAt (us ++ ws) k =
      if k < w * us.length then bitAt us k else bitAt ws (k - w * us.length) := by
  rcases Nat.eq_zero_or_pos w with rfl | hw
  · simp [bitAt]
  · obtain ⟨i, j, hj, rfl⟩ := exists_word_place hw k
    by_cases hi : i < us.length
    · have hk : w * i + j < w * us.length :=
        calc w * i + j < w * (i + 1) := by rw [Nat.mul_succ]; omega
          _ ≤ w * us.length := Nat.mul_le_mul_left w hi
      rw [if_pos hk, bitAt_word _ _ hj, bitAt_word _ _ hj, List.getD_append _ _ _ _ hi]
    · obtain ⟨d, rfl⟩ := Nat.exists_eq_add_of_le (Nat.not_lt.1 hi)
      have hk : w * (us.length + d) + j = w * us.length + (w * d + j) := by
        rw [Nat.mul_add, Nat.add_assoc]
      rw [bitAt_word _ _ hj, hk, if_neg (by omega), Nat.add_sub_cancel_left, bitAt_word _ _ hj,
        List.getD_append_right _ _ _ _ (by omega), Nat.add_sub_cancel_left]

theorem bitAt_cons (x : BitVec w) (ws : List (BitVec w)) (k : Nat) :
    bitAt (x :: ws) k = if k < w then x.getMsbD k else bitAt ws (k - w) := by
  rw [← List.singleton_append, bitAt_append, List.length_singleton, Nat.mul_one]
  split
  · next hk =>
    have hw := bitAt_word [x] 0 hk
    rwa [Nat.mul_zero, Nat.zero_add] at hw
  · rfl

theorem bitAt_replicate_zero (n k : Nat) : bitAt (List.replicate n (0 : BitVec w)) k = false := by
  have h : (List.replicate n (0 : BitVec w)).getD (k / w) 0 = 0 := by
    rw [List.getD_eq_getElem?_getD, List.getElem?_replicate]
    split <;> rfl
  rw [bitAt, h]
  exact BitVec.getMsbD_zero

/-- The word that starts `sh` bits into word `s`. -/
theorem getMsbD_across (ws : List (BitVec w)) (s : Nat) {sh j : Nat} (hsh : sh < w) (hj : j < w) :
    ((ws.getD s 0 <<< sh) ||| (ws.getD (s + 1) 0 >>> (w - sh))).getMsbD j =
      bitAt ws (w * s + sh + j) := by
  rw [BitVec.getMsbD_or, BitVec.getMsbD_shiftLeft, BitVec.getMsbD_ushiftRight,
    decide_eq_true hj, Bool.true_and]
  by_cases h : j + sh < w
  · rw [decide_eq_true (show j < w - sh by omega), Bool.not_true, Bool.false_and, Bool.or_false,
      Nat.add_assoc, Nat.add_comm sh j, bitAt_word _ _ h]
  · have hk : w * s + sh + j = w * (s + 1) + (j - (w - sh)) := by
      rw [Nat.mul_succ]
      omega
    rw [decide_eq_false (show ¬ j < w - sh by omega), BitVec.getMsbD_of_ge _ _ (by omega),
      Bool.false_or, Bool.not_false, Bool.true_and, hk, bitAt_word _ _ (by omega)]

def orAt (ws : List (BitVec w)) (i : Nat) (x : BitVec w) : List (BitVec w) :=
  ws.set i (ws.getD i 0 ||| x)

@[simp] theorem length_orAt (ws : List (BitVec w)) (i : Nat) (x : BitVec w) :
    (orAt ws i x).length = ws.length := List.length_set

theorem bitAt_orAt {ws : List (BitVec w)} {i : Nat} (hi : i < ws.length) (x : BitVec w) (k : Nat) :
    bitAt (orAt ws i x) k =
      (bitAt ws k || (decide (w * i ≤ k ∧ k < w * i + w) && x.getMsbD (k - w * i))) := by
  rcases Nat.eq_zero_or_pos w with rfl | hw
  · simp [bitAt]
  · obtain ⟨i', j, hj, rfl⟩ := exists_word_place hw k
    rw [bitAt_word _ _ hj, bitAt_word _ _ hj, orAt, List.getD_eq_getElem?_getD, List.getElem?_set]
    by_cases he : i = i'
    · subst he
      rw [if_pos rfl, if_pos hi, Option.getD_some, BitVec.getMsbD_or, Nat.add_sub_cancel_left,
        decide_eq_true ⟨Nat.le_add_right _ _, Nat.add_lt_add_left hj _⟩, Bool.true_and]
    · have hout : ¬ (w * i ≤ w * i' + j ∧ w * i' + j < w * i + w) := by
        rcases Nat.lt_or_gt_of_ne he with h | h
        · have hm := Nat.mul_le_mul_left w (Nat.succ_le_of_lt h)
          rw [Nat.mul_succ] at hm
          omega
        · have hm := Nat.mul_le_mul_left w (Nat.succ_le_of_lt h)
          rw [Nat.mul_succ] at hm
          omega
      rw [if_neg he, decide_eq_false hout, Bool.false_and, Bool.or_false,
        List.getD_eq_getElem?_getD]

/-- OR-ing the two halves of `x` into neighbouring words writes it across the boundary. -/
theorem bitAt_orAt_across {ws : List (BitVec w)} {t sh : Nat} (hsh : sh < w)
    (ht : t + 1 < ws.length) (x : BitVec w) (k : Nat) :
    bitAt (orAt (orAt ws t (x >>> sh)) (t + 1) (x <<< (w - sh))) k =
      (bitAt ws k || (decide (w * t + sh ≤ k ∧ k < w * t + sh + w) &&
        x.getMsbD (k - (w * t + sh)))) := by
  rw [bitAt_orAt (by rwa [length_orAt]), bitAt_orAt (by omega), BitVec.getMsbD_ushiftRight,
    BitVec.getMsbD_shiftLeft, Bool.or_assoc, Nat.mul_succ]
  congr 1
  by_cases hlow : k < w * t + sh
  · have h1 : ¬ (w * t + sh ≤ k ∧ k < w * t + sh + w) := by omega
    have h2 : ¬ (w * t + w ≤ k ∧ k < w * t + w + w) := by omega
    rw [decide_eq_false h1, decide_eq_false h2]
    by_cases h3 : w * t ≤ k
    · rw [decide_eq_true (show k - w * t < sh by omega)]
      simp
    · rw [decide_eq_false (show ¬ (w * t ≤ k ∧ k < w * t + w) by omega)]
      simp
  · by_cases hmid : k < w * t + w
    · rw [decide_eq_true (show w * t ≤ k ∧ k < w * t + w by omega),
        decide_eq_false (show ¬ (w * t + w ≤ k ∧ k < w * t + w + w) by omega),
        decide_eq_true (show w * t + sh ≤ k ∧ k < w * t + sh + w by omega),
        decide_eq_true (show k - w * t < w by omega),
        decide_eq_false (show ¬ k - w * t < sh by omega), Nat.sub_sub]
      simp
    · rw [decide_eq_false (show ¬ (w * t ≤ k ∧ k < w * t + w) by omega), Bool.false_and,
        Bool.false_or]
      by_cases hhi : k < w * t + sh + w
      · rw [decide_eq_true (show w * t + w ≤ k ∧ k < w * t + w + w by omega),
          decide_eq_true (show w * t + sh ≤ k ∧ k < w * t + sh + w by omega),
          show k - (w * t + w) + (w - sh) = k - (w * t + sh) by omega]
      · rw [BitVec.getMsbD_of_ge _ _ (show w ≤ k - (w * t + w) + (w - sh) by omega),
          BitVec.getMsbD_of_ge _ _ (show w ≤ k - (w * t + sh) by omega)]
        simp

/-- `result` is `target` with `n` bits of `source`, from bit `src` on, OR-ed in from bit
`trg` on. -/
structure OrCopied (source : List (BitVec w)) (src : Nat) (target : List (BitVec w)) (trg n : Nat)
    (result : List (BitVec w)) : Prop where
  length : result.length = target.length
  bits : ∀ k, bitAt result k =
    (bitAt target k || (decide (trg ≤ k ∧ k < trg + n) && bitAt source (src + (k - trg))))

variable {source target result : List (BitVec w)}

theorem OrCopied.zero (source : List (BitVec w)) (src : Nat) (target : List (BitVec w)) (trg : Nat) :
    OrCopied source src target trg 0 target where
  length := rfl
  bits k := by
    rw [decide_eq_false (show ¬ (trg ≤ k ∧ k < trg + 0) by omega), Bool.false_and, Bool.or_false]

/-- Copying the next bits of the same source behind a copied range extends the range. -/
theorem OrCopied.trans {src trg n m : Nat} {result' : List (BitVec w)}
    (h : OrCopied source src target trg n result)
    (h' : OrCopied source (src + n) result (trg + n) m result') :
    OrCopied source src target trg (n + m) result' where
  length := h'.length.trans h.length
  bits k := by
    rw [h'.bits, h.bits, Bool.or_assoc]
    congr 1
    by_cases hn : trg + n ≤ k
    · rw [decide_eq_false (show ¬ (trg ≤ k ∧ k < trg + n) by omega), Bool.false_and, Bool.false_or,
        show src + n + (k - (trg + n)) = src + (k - trg) by omega,
        decide_eq_decide.2 (show trg + n ≤ k ∧ k < trg + n + m ↔ trg ≤ k ∧ k < trg + (n + m) by
          omega)]
    · rw [decide_eq_false (show ¬ (trg + n ≤ k ∧ k < trg + n + m) by omega), Bool.false_and,
        Bool.or_false,
        decide_eq_decide.2 (show trg ≤ k ∧ k < trg + n ↔ trg ≤ k ∧ k < trg + (n + m) by omega)]

theorem OrCopied.unique {src trg n : Nat} {result' : List (BitVec w)}
    (h : OrCopied source src target trg n result) (h' : OrCopied source src target trg n result') :
    result = result' :=
  ext_of_bitAt (h.length.trans h'.length.symm) fun k _ => (h.bits k).trans (h'.bits k).symm

/-- A copy within the first words of both arrays is one within the arrays. -/
theorem OrCopied.of_take {src trg n srcRoom trgRoom : Nat} (ht : trgRoom ≤ target.length)
    (h : OrCopied (source.take srcRoom) src (target.take trgRoom) trg n result)
    (hsrc : src + n ≤ w * srcRoom) (htrg : trg + n ≤ w * trgRoom) :
    OrCopied source src target trg n (result ++ target.drop trgRoom) where
  length := by
    rw [List.length_append, h.length, List.length_take_of_le ht, List.length_drop]
    exact Nat.add_sub_cancel' ht
  bits k := by
    rw [bitAt_append, h.length, List.length_take_of_le ht, h.bits, bitAt_take, bitAt_take,
      bitAt_drop]
    by_cases hrange : trg ≤ k ∧ k < trg + n
    · rw [if_pos (by omega), decide_eq_true (show k < w * trgRoom by omega),
        decide_eq_true (show src + (k - trg) < w * srcRoom by omega), Bool.true_and, Bool.true_and]
    · rw [decide_eq_false hrange, Bool.false_and, Bool.false_and, Bool.or_false, Bool.or_false]
      split
      · next hk => rw [decide_eq_true hk, Bool.true_and]
      · next hk => rw [Nat.add_sub_cancel' (Nat.not_lt.1 hk)]

/-- A word whose first `n` bits are those of the source and the rest 0, written across a
boundary. -/
theorem orCopied_across (source : List (BitVec w)) (src : Nat) {t sh n : Nat} {x : BitVec w}
    (hsh : sh < w) (hn : n ≤ w) (ht : t + 1 < target.length)
    (hx : ∀ j < w, x.getMsbD j = (decide (j < n) && bitAt source (src + j))) :
    OrCopied source src target (w * t + sh) n
      (orAt (orAt target t (x >>> sh)) (t + 1) (x <<< (w - sh))) where
  length := by rw [length_orAt, length_orAt]
  bits k := by
    rw [bitAt_orAt_across hsh ht]
    congr 1
    by_cases hk : w * t + sh ≤ k ∧ k < w * t + sh + w
    · rw [decide_eq_true hk, Bool.true_and, hx _ (by omega),
        decide_eq_decide.2 (show k - (w * t + sh) < n ↔ w * t + sh ≤ k ∧ k < w * t + sh + n by
          omega)]
    · rw [decide_eq_false hk,
        decide_eq_false (show ¬ (w * t + sh ≤ k ∧ k < w * t + sh + n) by omega), Bool.false_and,
        Bool.false_and]

end RtpServer.Library.Bits
