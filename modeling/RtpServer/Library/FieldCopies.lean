import RtpServer.Library.BitField

/-!
# Copies of a field

One value shifted into several places of a word array. A copy is named by the number of the
bit behind its last one, so that the shifts of all words are the same function of the place,
and a copy that straddles a word boundary needs no case of its own.
-/
namespace RtpServer.Library.Bits

variable {w m : Nat}

/-- Bit `k` of an array that is 0 but for a copy of `x` that ends before bit `stop`. -/
def copyBit (x : BitVec m) (stop k : Nat) : Bool := decide (k < stop) && x.getLsbD (stop - 1 - k)

theorem Reads.copyBit_eq {x : BitVec m} {ws : List (BitVec w)} {first width : Nat}
    (h : Reads x ws first width) {stop : Nat} (hstop : width ≤ stop) (k : Nat) :
    copyBit x stop k = (decide (stop - width ≤ k ∧ k < stop) &&
      bitAt ws (first + (k - (stop - width)))) := by
  rw [copyBit, h]
  by_cases hk : k < stop
  · rw [decide_eq_true hk, Bool.true_and,
      decide_eq_decide.2 (show stop - 1 - k < width ↔ stop - width ≤ k ∧ k < stop by omega)]
    by_cases hin : stop - width ≤ k ∧ k < stop
    · rw [show width - 1 - (stop - 1 - k) = k - (stop - width) by omega]
    · rw [decide_eq_false hin, Bool.false_and, Bool.false_and]
  · rw [decide_eq_false hk, decide_eq_false (show ¬ (stop - width ≤ k ∧ k < stop) by omega),
      Bool.false_and, Bool.false_and]

/-- Bit `k` of copies of the bits `f`, `width` each, that end at `stops`; 0 between them. -/
def copiesBit (stops : List Nat) (width : Nat) (f : Nat → Bool) (k : Nat) : Bool :=
  stops.any fun stop => decide (stop - width ≤ k ∧ k < stop) && f (k - (stop - width))

theorem copiesBit_outside {stops : List Nat} {width : Nat} (f : Nat → Bool) {k : Nat}
    (hout : ∀ stop ∈ stops, ¬ (stop - width ≤ k ∧ k < stop)) : copiesBit stops width f k = false := by
  apply List.any_eq_false.2
  intro stop hstop
  rw [decide_eq_false (hout stop hstop), Bool.false_and]
  exact Bool.false_ne_true

/-- Copies that do not overlap are read back from every place. -/
theorem copiesBit_inside {stops : List Nat} {width : Nat} (f : Nat → Bool)
    (happart : ∀ stop ∈ stops, width ≤ stop ∧
      ∀ other ∈ stops, other = stop ∨ stop + width ≤ other ∨ other + width ≤ stop)
    {stop : Nat} (hstop : stop ∈ stops) {j : Nat} (hj : j < width) :
    copiesBit stops width f (stop - width + j) = f j := by
  obtain ⟨hwidth, hothers⟩ := happart stop hstop
  cases hf : f j with
  | true =>
    refine List.any_eq_true.2 ⟨stop, hstop, ?_⟩
    rw [decide_eq_true (show stop - width ≤ stop - width + j ∧ stop - width + j < stop by omega),
      Nat.add_sub_cancel_left, hf, Bool.and_self]
  | false =>
    apply List.any_eq_false.2
    intro other hother
    rcases hothers other hother with rfl | hapart
    · rw [Nat.add_sub_cancel_left, hf, Bool.and_false]
      exact Bool.false_ne_true
    · have hwidth' := (happart other hother).1
      rw [decide_eq_false (by omega), Bool.false_and]
      exact Bool.false_ne_true

theorem Reads.any_copyBit_eq {x : BitVec m} {ws : List (BitVec w)} {first width : Nat}
    (h : Reads x ws first width) {stops : List Nat} (hstops : ∀ stop ∈ stops, width ≤ stop)
    (k : Nat) :
    (stops.any fun stop => copyBit x stop k) =
      copiesBit stops width (fun j => bitAt ws (first + j)) k := by
  induction stops with
  | nil => rfl
  | cons stop stops ih =>
    rw [List.any_cons, h.copyBit_eq (hstops stop List.mem_cons_self),
      ih fun s hs => hstops s (List.mem_cons_of_mem _ hs)]
    rfl

/-- Word `i` of that array. -/
def copyWord (x : BitVec w) (stop i : Nat) : BitVec w :=
  if stop ≤ w * (i + 1) then x <<< (w * (i + 1) - stop) else x >>> (stop - w * (i + 1))

theorem getMsbD_copyWord (x : BitVec w) (stop i : Nat) {j : Nat} (hj : j < w) :
    (copyWord x stop i).getMsbD j = copyBit x stop (w * i + j) := by
  rw [BitVec.getMsbD_eq_getLsbD, decide_eq_true hj, Bool.true_and, copyWord, copyBit,
    Nat.mul_succ]
  split
  · next hstop =>
    rw [BitVec.getLsbD_shiftLeft, decide_eq_true (show w - 1 - j < w by omega), Bool.true_and]
    by_cases hk : w * i + j < stop
    · rw [decide_eq_true hk, decide_eq_false (show ¬ w - 1 - j < w * i + w - stop by omega),
        show w - 1 - j - (w * i + w - stop) = stop - 1 - (w * i + j) by omega, Bool.not_false]
    · rw [decide_eq_false hk, decide_eq_true (show w - 1 - j < w * i + w - stop by omega),
        Bool.not_true, Bool.false_and, Bool.false_and]
  · next hstop =>
    rw [BitVec.getLsbD_ushiftRight, decide_eq_true (show w * i + j < stop by omega),
      Bool.true_and, show stop - (w * i + w) + (w - 1 - j) = stop - 1 - (w * i + j) by omega]

/-- Word `i` of the array that holds a copy at every place of `stops`. -/
def copiesWord (x : BitVec w) (stops : List Nat) (i : Nat) : BitVec w :=
  stops.foldr (fun stop word => copyWord x stop i ||| word) 0

theorem getMsbD_copiesWord (x : BitVec w) (stops : List Nat) (i : Nat) {j : Nat} (hj : j < w) :
    (copiesWord x stops i).getMsbD j = stops.any fun stop => copyBit x stop (w * i + j) := by
  induction stops with
  | nil => exact BitVec.getMsbD_zero
  | cons stop stops ih =>
    rw [List.any_cons, ← ih, ← getMsbD_copyWord x stop i hj, ← BitVec.getMsbD_or]
    rfl

/-- The first `n` words hold `base` and the copies. -/
def HoldsCopies (base : List (BitVec w)) (x : BitVec w) (stops : List Nat) (n : Nat)
    (result : List (BitVec w)) : Prop :=
  ∀ i < n, result.getD i 0 = base.getD i 0 ||| copiesWord x stops i

theorem HoldsCopies.bitAt_eq {base result : List (BitVec w)} {x : BitVec w} {stops : List Nat}
    {n : Nat} (h : HoldsCopies base x stops n result) {k : Nat} (hk : k < w * n) :
    bitAt result k = (bitAt base k || stops.any fun stop => copyBit x stop k) := by
  have hw : 0 < w := Nat.pos_of_mul_pos_right (Nat.lt_of_le_of_lt (Nat.zero_le k) hk)
  obtain ⟨i, j, hj, rfl⟩ := exists_word_place hw k
  have hi : i < n := Nat.lt_of_mul_lt_mul_left (Nat.lt_of_le_of_lt (Nat.le_add_right _ j) hk)
  rw [bitAt_word _ _ hj, bitAt_word _ _ hj, h i hi, BitVec.getMsbD_or, getMsbD_copiesWord _ _ _ hj]

/-- OR-ing an array over another from word `i` on. -/
def orWords : List (BitVec w) → Nat → List (BitVec w) → List (BitVec w)
  | [], _, ws => ws
  | x :: xs, i, ws => orWords xs (i + 1) (orAt ws i x)

@[simp] theorem length_orWords (xs : List (BitVec w)) (i : Nat) (ws : List (BitVec w)) :
    (orWords xs i ws).length = ws.length := by
  induction xs generalizing i ws with
  | nil => rfl
  | cons x xs ih => rw [orWords, ih, length_orAt]

theorem bitAt_orWords {xs : List (BitVec w)} {i : Nat} {ws : List (BitVec w)}
    (hroom : i + xs.length ≤ ws.length) (k : Nat) :
    bitAt (orWords xs i ws) k =
      (bitAt ws k || (decide (w * i ≤ k) && bitAt xs (k - w * i))) := by
  induction xs generalizing i ws with
  | nil => simp [orWords, bitAt]
  | cons x xs ih =>
    rw [List.length_cons] at hroom
    rw [orWords, ih (by rw [length_orAt]; omega), bitAt_orAt (by omega), bitAt_cons, Bool.or_assoc,
      Nat.mul_succ]
    congr 1
    by_cases hin : w * i ≤ k ∧ k < w * i + w
    · rw [decide_eq_true hin, decide_eq_true hin.1,
        decide_eq_false (show ¬ w * i + w ≤ k by omega), if_pos (by omega)]
      simp
    · rw [decide_eq_false hin, Bool.false_and, Bool.false_or]
      by_cases hk : w * i ≤ k
      · rw [decide_eq_true hk, decide_eq_true (show w * i + w ≤ k by omega), if_neg (by omega),
          Nat.sub_sub]
      · rw [decide_eq_false hk, decide_eq_false (show ¬ w * i + w ≤ k by omega), Bool.false_and,
          Bool.false_and]

theorem getD_orWords {xs ws : List (BitVec w)} (hroom : xs.length ≤ ws.length) (i : Nat) :
    (orWords xs 0 ws).getD i 0 = ws.getD i 0 ||| xs.getD i 0 := by
  apply BitVec.eq_of_getMsbD_eq
  intro j hj
  rw [BitVec.getMsbD_or, ← bitAt_word _ _ hj, ← bitAt_word _ _ hj, ← bitAt_word _ _ hj,
    bitAt_orWords (by omega), Nat.mul_zero, decide_eq_true (Nat.zero_le _), Bool.true_and,
    Nat.sub_zero]

end RtpServer.Library.Bits
