import Mathlib.Data.List.Basic

/-!
# Mirroring

Cells exchanged pairwise from both ends, which reverses a list; and the octets of a word moved
one by one to the mirrored place, which reverses its octets.
-/
namespace RtpServer.Library.Mirror

variable {α : Type*}

/-- The first `m` cells and the last `m` are mirrored, those between them are not. -/
structure Mirrored (m : Nat) (cells result : List α) : Prop where
  length : result.length = cells.length
  cell : ∀ k < cells.length, result[k]? =
    if k < m ∨ cells.length ≤ k + m then cells[cells.length - 1 - k]? else cells[k]?

theorem Mirrored.start (cells : List α) : Mirrored 0 cells cells where
  length := rfl
  cell := fun k hk => by rw [if_neg (by omega)]

/-- A pair with `m` cells outside it on either side is still where it was. -/
theorem Mirrored.pair {m : Nat} {cells result : List α} (h : Mirrored m cells result)
    (hroom : 2 * (m + 1) ≤ cells.length) :
    result[m]? = cells[m]? ∧ result[cells.length - 1 - m]? = cells[cells.length - 1 - m]? := by
  constructor
  · rw [h.cell m (by omega), if_neg (by omega)]
  · rw [h.cell _ (by omega), if_neg (by omega)]

theorem Mirrored.exchange {m : Nat} {cells result : List α} (h : Mirrored m cells result)
    (hroom : 2 * (m + 1) ≤ cells.length) {lo hi : α} (hlo : cells[m]? = some lo)
    (hhi : cells[cells.length - 1 - m]? = some hi) :
    Mirrored (m + 1) cells ((result.set (cells.length - 1 - m) lo).set m hi) where
  length := by rw [List.length_set, List.length_set, h.length]
  cell := by
    intro k hk
    have hlength := h.length
    by_cases hm : k = m
    · subst hm
      rw [List.getElem?_set_self (by rw [List.length_set]; omega), if_pos (by omega), hhi]
    · rw [List.getElem?_set_ne (Ne.symm hm)]
      by_cases hmirror : k = cells.length - 1 - m
      · subst hmirror
        rw [List.getElem?_set_self (by omega), if_pos (by omega), ← hlo,
          show cells.length - 1 - (cells.length - 1 - m) = m by omega]
      · rw [List.getElem?_set_ne (Ne.symm hmirror), h.cell k hk]
        by_cases hout : k < m ∨ cells.length ≤ k + m
        · rw [if_pos hout, if_pos (by omega)]
        · rw [if_neg hout, if_neg (by omega)]

/-- When the pairs meet, the middle cell of an odd length is its own mirror image. -/
theorem Mirrored.eq_reverse {m : Nat} {cells result : List α} (h : Mirrored m cells result)
    (hmeet : cells.length ≤ 2 * m + 1) : result = cells.reverse := by
  apply List.ext_getElem?
  intro k
  by_cases hk : k < cells.length
  · rw [h.cell k hk, List.getElem?_reverse hk]
    by_cases hout : k < m ∨ cells.length ≤ k + m
    · rw [if_pos hout]
    · rw [if_neg hout, show cells.length - 1 - k = k by omega]
  · rw [List.getElem?_eq_none (by rw [h.length]; omega),
      List.getElem?_eq_none (by rw [List.length_reverse]; omega)]

variable {w : Nat}

/-- Octet `k`, counted from the least significant one. -/
def octet (x : BitVec w) (k : Nat) : BitVec 8 := x.extractLsb' (8 * k) 8

def octets (n : Nat) (x : BitVec w) : List (BitVec 8) := (List.range n).map (octet x)

theorem length_octets (n : Nat) (x : BitVec w) : (octets n x).length = n := by
  rw [octets, List.length_map, List.length_range]

theorem octets_eq_reverse {n : Nat} {x y : BitVec w}
    (h : ∀ k < n, octet y k = octet x (n - 1 - k)) : octets n y = (octets n x).reverse := by
  apply List.ext_getElem?
  intro k
  by_cases hk : k < n
  · rw [List.getElem?_reverse (by rwa [length_octets]), length_octets, octets, octets,
      List.getElem?_map, List.getElem?_map, List.getElem?_range hk,
      List.getElem?_range (show n - 1 - k < n by omega), Option.map_some, Option.map_some, h k hk]
  · rw [List.getElem?_eq_none (by rw [length_octets]; omega),
      List.getElem?_eq_none (by rw [List.length_reverse, length_octets]; omega)]

/-- Octet `j` of `x` alone, shifted to place `k`. -/
def moved (x : BitVec w) (j k : Nat) : BitVec w :=
  if j ≤ k then (x &&& (0xFF#w <<< (8 * j))) <<< (8 * (k - j))
  else (x &&& (0xFF#w <<< (8 * j))) >>> (8 * (j - k))

theorem getLsbD_octet (x : BitVec w) (k : Nat) {b : Nat} (hb : b < 8) :
    (octet x k).getLsbD b = x.getLsbD (8 * k + b) := by
  rw [octet, BitVec.getLsbD_extractLsb', decide_eq_true hb, Bool.true_and]

theorem getLsbD_octetMask (j i : Nat) :
    (0xFF#w <<< (8 * j)).getLsbD i = decide (i < w ∧ 8 * j ≤ i ∧ i < 8 * j + 8) := by
  have hones : ∀ i, Nat.testBit 0xFF i = decide (i < 8) := Nat.testBit_two_pow_sub_one 8
  rw [BitVec.getLsbD_shiftLeft, BitVec.getLsbD_ofNat, hones, ← decide_not, ← Bool.decide_and,
    ← Bool.decide_and, ← Bool.decide_and]
  apply decide_eq_decide.2
  omega

/-- Octet `j` of `x` alone keeps the bits of that octet. -/
theorem getLsbD_and_octetMask (x : BitVec w) (j i : Nat) :
    (x &&& (0xFF#w <<< (8 * j))).getLsbD i =
      (decide (8 * j ≤ i ∧ i < 8 * j + 8) && x.getLsbD i) := by
  rw [BitVec.getLsbD_and, getLsbD_octetMask]
  by_cases hi : i < w
  · rw [Bool.and_comm, decide_eq_decide.2 (and_iff_right hi)]
  · rw [BitVec.getLsbD_of_ge x i (Nat.le_of_not_lt hi), Bool.false_and, Bool.and_false]

theorem octet_moved (x : BitVec w) (j k : Nat) {i : Nat} (hi : 8 * (i + 1) ≤ w) :
    octet (moved x j k) i = if i = k then octet x j else 0#8 := by
  apply BitVec.eq_of_getLsbD_eq
  intro b hb
  rw [getLsbD_octet _ _ hb, apply_ite (fun o : BitVec 8 => o.getLsbD b), getLsbD_octet _ _ hb]
  rw [BitVec.getLsbD_zero, moved]
  by_cases hjk : j ≤ k
  · rw [if_pos hjk, BitVec.getLsbD_shiftLeft, getLsbD_and_octetMask,
      decide_eq_true (show 8 * i + b < w by omega), Bool.true_and]
    by_cases hik : i = k
    · rw [if_pos hik, decide_eq_false (by omega), decide_eq_true (by omega),
        show 8 * i + b - 8 * (k - j) = 8 * j + b by omega]
      rfl
    · rw [if_neg hik]
      by_cases hlow : 8 * i + b < 8 * (k - j)
      · rw [decide_eq_true hlow]
        rfl
      · rw [decide_eq_false (p := 8 * j ≤ _ ∧ _) (by omega), Bool.false_and, Bool.and_false]
  · rw [if_neg hjk, BitVec.getLsbD_ushiftRight, getLsbD_and_octetMask]
    by_cases hik : i = k
    · rw [if_pos hik, decide_eq_true (by omega),
        show 8 * (j - k) + (8 * i + b) = 8 * j + b by omega]
      rfl
    · rw [if_neg hik, decide_eq_false (by omega), Bool.false_and]

/-- The first `m` of `n` octets, each at its mirrored place, put together by `|`. -/
def orMoved (n : Nat) (x : BitVec w) : Nat → BitVec w
  | 0 => 0#w
  | m + 1 => orMoved n x m ||| moved x m (n - 1 - m)

theorem octet_orMoved {n m : Nat} (x : BitVec w) (hw : 8 * n ≤ w) (hm : m ≤ n) {k : Nat}
    (hk : k < n) :
    octet (orMoved n x m) k = if n - 1 - k < m then octet x (n - 1 - k) else 0#8 := by
  induction m with
  | zero =>
    rw [if_neg (Nat.not_lt_zero _)]
    exact BitVec.extractLsb'_zero
  | succ m ih =>
    have hor : octet (orMoved n x (m + 1)) k =
        octet (orMoved n x m) k ||| octet (moved x m (n - 1 - m)) k := BitVec.extractLsb'_or
    rw [hor, ih (by omega), octet_moved x m _ (by omega)]
    by_cases hlast : k = n - 1 - m
    · rw [if_pos hlast, if_neg (by omega), if_pos (by omega), BitVec.zero_or,
        show n - 1 - k = m by omega]
    · rw [if_neg hlast, BitVec.or_zero]
      by_cases hbefore : n - 1 - k < m
      · rw [if_pos hbefore, if_pos (by omega)]
      · rw [if_neg hbefore, if_neg (by omega)]

theorem octets_orMoved {n : Nat} (x : BitVec w) (hw : 8 * n ≤ w) :
    octets n (orMoved n x n) = (octets n x).reverse := by
  apply octets_eq_reverse
  intro k hk
  rw [octet_orMoved x hw (Nat.le_refl n) hk, if_pos (by omega)]

/-- The order in which a machine keeps the octets of a word in its memory. -/
inductive Endian where
  | little
  | big
  deriving DecidableEq

def storage : Endian → (n : Nat) → BitVec w → List (BitVec 8)
  | .little, n, x => octets n x
  | .big, n, x => (octets n x).reverse

/-- On either machine a word with mirrored octets is stored in reverse. -/
theorem storage_orMoved (order : Endian) {n : Nat} (x : BitVec w) (hw : 8 * n ≤ w) :
    storage order n (orMoved n x n) = (storage order n x).reverse := by
  cases order with
  | little => exact octets_orMoved x hw
  | big => exact congrArg List.reverse (octets_orMoved x hw)

end RtpServer.Library.Mirror
