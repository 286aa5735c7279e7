import Mathlib.Algebra.BigOperators.Intervals
import Mathlib.Algebra.Order.Ring.Abs
import Mathlib.Tactic.Linarith

/-!
# Packed signed lanes

The four MMX operations a packed 16-bit inner product uses, with the meaning Intel
documents for them, and the bounds under which they compute on exact integers.
-/
namespace RtpServer.Library

structure Pi16 where
  w0 : BitVec 16
  w1 : BitVec 16
  w2 : BitVec 16
  w3 : BitVec 16

structure Pi32 where
  lo : BitVec 32
  hi : BitVec 32

namespace Lanes

def mul16 (a b : BitVec 16) : BitVec 32 := a.signExtend 32 * b.signExtend 32

/-- `_mm_madd_pi16`: multiply pairwise and add neighbours. -/
def mmMaddPi16 (a b : Pi16) : Pi32 :=
  ⟨mul16 a.w0 b.w0 + mul16 a.w1 b.w1, mul16 a.w2 b.w2 + mul16 a.w3 b.w3⟩

def mmAddPi32 (a b : Pi32) : Pi32 := ⟨a.lo + b.lo, a.hi + b.hi⟩

/-- `_mm_srai_pi32`: each lane is shifted on its own; nothing crosses between lanes. -/
def mmSraiPi32 (a : Pi32) (n : Nat) : Pi32 := ⟨a.lo.sshiftRight n, a.hi.sshiftRight n⟩

def mmCvtsi64Si32 (a : Pi32) : BitVec 32 := a.lo

theorem toInt_bounds (x : BitVec 16) : -32768 ≤ x.toInt ∧ x.toInt ≤ 32767 := by
  have hl := BitVec.le_toInt x
  have hu := BitVec.toInt_lt (x := x)
  norm_num at hl hu
  omega

theorem abs_mul_le (x : BitVec 16) (c : Int) : |x.toInt * c| ≤ 32768 * |c| := by
  have h := toInt_bounds x
  rw [abs_mul]
  exact mul_le_mul_of_nonneg_right (abs_le.2 ⟨by omega, by omega⟩) (abs_nonneg c)

theorem toInt_add {x y : BitVec 32} (hl : -2147483648 ≤ x.toInt + y.toInt)
    (hu : x.toInt + y.toInt < 2147483648) : (x + y).toInt = x.toInt + y.toInt := by
  rw [BitVec.toInt_add, Int.bmod_eq_of_le] <;> omega

@[simp] theorem toInt_mul16 (a b : BitVec 16) : (mul16 a b).toInt = a.toInt * b.toInt := by
  have ha := toInt_bounds a
  have hb : |a.toInt * b.toInt| ≤ 32768 * 32768 := by
    have h := toInt_bounds b
    exact (abs_mul_le a b.toInt).trans
      (mul_le_mul_of_nonneg_left (abs_le.2 ⟨by omega, by omega⟩) (by norm_num))
  have hb' := abs_le.1 hb
  rw [mul16, BitVec.toInt_mul, BitVec.toInt_signExtend_of_le (by norm_num),
    BitVec.toInt_signExtend_of_le (by norm_num), Int.bmod_eq_of_le] <;> omega

/-- All 32 bits of a lane shifted out: what is left is the sign. -/
theorem toInt_sshiftRight_all (x : BitVec 32) :
    (x.sshiftRight 32).toInt = if x.toInt < 0 then -1 else 0 := by
  have hl := BitVec.le_toInt x
  have hu := BitVec.toInt_lt (x := x)
  rw [BitVec.toInt_sshiftRight, Int.shiftRight_eq_div_pow]
  norm_num at hl hu ⊢
  split <;> omega

section Pairs

variable (a b c d : BitVec 16) (p q r s : BitVec 16)

theorem toInt_two (hw : |p.toInt| + |q.toInt| ≤ 65535) :
    (mul16 a p + mul16 b q).toInt = a.toInt * p.toInt + b.toInt * q.toInt := by
  have h1 := abs_le.1 (abs_mul_le a p.toInt)
  have h2 := abs_le.1 (abs_mul_le b q.toInt)
  rw [toInt_add] <;> simp only [toInt_mul16] <;> linarith

theorem toInt_four (hw : |p.toInt| + |q.toInt| + |r.toInt| + |s.toInt| ≤ 65535) :
    (mul16 a p + mul16 b q + (mul16 c r + mul16 d s)).toInt =
      a.toInt * p.toInt + b.toInt * q.toInt + (c.toInt * r.toInt + d.toInt * s.toInt) := by
  have h1 := abs_le.1 (abs_mul_le a p.toInt)
  have h2 := abs_le.1 (abs_mul_le b q.toInt)
  have h3 := abs_le.1 (abs_mul_le c r.toInt)
  have h4 := abs_le.1 (abs_mul_le d s.toInt)
  have hp := abs_nonneg p.toInt
  have hq := abs_nonneg q.toInt
  have hr := abs_nonneg r.toInt
  have hs := abs_nonneg s.toInt
  have h12 := toInt_two a b p q (by linarith)
  have h34 := toInt_two c d r s (by linarith)
  rw [toInt_add] <;> rw [h12, h34] <;> linarith

theorem neg_one_lt_four (hw : |p.toInt| + |q.toInt| + |r.toInt| + |s.toInt| ≤ 65535) :
    -2147483647 ≤
      a.toInt * p.toInt + b.toInt * q.toInt + (c.toInt * r.toInt + d.toInt * s.toInt) := by
  have h1 := (abs_le.1 (abs_mul_le a p.toInt)).1
  have h2 := (abs_le.1 (abs_mul_le b q.toInt)).1
  have h3 := (abs_le.1 (abs_mul_le c r.toInt)).1
  have h4 := (abs_le.1 (abs_mul_le d s.toInt)).1
  linarith

end Pairs

theorem lane_bounds (x : BitVec 32) : -2147483648 ≤ x.toInt ∧ x.toInt ≤ 2147483647 := by
  have hl := BitVec.le_toInt x
  have hu := BitVec.toInt_lt (x := x)
  norm_num at hl hu
  omega

@[simp] theorem toInt_widen (x : BitVec 32) : (x.signExtend 64).toInt = x.toInt :=
  BitVec.toInt_signExtend_of_le (by norm_num)

theorem toInt_narrow {v w : Nat} (x : BitVec w) (hvw : v ≤ w) (hl : -2 ^ (v - 1) ≤ x.toInt)
    (hu : x.toInt < 2 ^ (v - 1)) (hv : 0 < v) : (x.setWidth v).toInt = x.toInt := by
  have hp : (2 : Int) ^ v = 2 * 2 ^ (v - 1) := by
    rw [← pow_succ', Nat.sub_add_cancel hv]
  rw [← BitVec.signExtend_eq_setWidth_of_le x hvw, BitVec.toInt_signExtend, Nat.min_eq_left hvw,
    Int.bmod_eq_of_le] <;> push_cast <;> omega

theorem toInt_add64 {x y : BitVec 64} {b c : Int} (hx : |x.toInt| ≤ b) (hy : |y.toInt| ≤ c)
    (h : b + c ≤ 4611686018427387904) : (x + y).toInt = x.toInt + y.toInt := by
  have hx' := abs_le.1 hx
  have hy' := abs_le.1 hy
  rw [BitVec.toInt_add, Int.bmod_eq_of_le] <;> omega

theorem toInt_four_lanes (x y z w : BitVec 32) :
    (x.signExtend 64 + y.signExtend 64 + (z.signExtend 64 + w.signExtend 64)).toInt =
      x.toInt + y.toInt + (z.toInt + w.toInt) := by
  have hx := lane_bounds x
  have hy := lane_bounds y
  have hz := lane_bounds z
  have hw := lane_bounds w
  have hb : ∀ u : BitVec 32, |(u.signExtend 64).toInt| ≤ 2147483648 := by
    intro u
    have hu := lane_bounds u
    rw [toInt_widen]
    exact abs_le.2 ⟨by omega, by omega⟩
  have hxy : (x.signExtend 64 + y.signExtend 64).toInt = x.toInt + y.toInt := by
    rw [toInt_add64 (hb x) (hb y) (by norm_num), toInt_widen, toInt_widen]
  have hzw : (z.signExtend 64 + w.signExtend 64).toInt = z.toInt + w.toInt := by
    rw [toInt_add64 (hb z) (hb w) (by norm_num), toInt_widen, toInt_widen]
  rw [toInt_add64 (b := 4294967296) (c := 4294967296) _ _ (by norm_num), hxy, hzw]
  · rw [hxy]
    exact abs_le.2 ⟨by omega, by omega⟩
  · rw [hzw]
    exact abs_le.2 ⟨by omega, by omega⟩

theorem abs_widen_le (x : BitVec 32) : |(x.signExtend 64).toInt| ≤ 8589934592 := by
  have h := lane_bounds x
  rw [toInt_widen]
  exact abs_le.2 ⟨by omega, by omega⟩

theorem abs_four_lanes_le (x y z w : BitVec 32) :
    |(x.signExtend 64 + y.signExtend 64 + (z.signExtend 64 + w.signExtend 64)).toInt|
      ≤ 8589934592 := by
  have hx := lane_bounds x
  have hy := lane_bounds y
  have hz := lane_bounds z
  have hw := lane_bounds w
  rw [toInt_four_lanes]
  exact abs_le.2 ⟨by omega, by omega⟩

/-- An accumulator of `n` terms, each within 2^33, holds their integer sum. -/
theorem toInt_foldl_add (g : Nat → BitVec 64) (n : Nat) (hn : n ≤ 268435456)
    (hg : ∀ j < n, |(g j).toInt| ≤ 8589934592) :
    ((List.range n).foldl (fun y j => y + g j) 0).toInt = ∑ j ∈ Finset.range n, (g j).toInt ∧
    |∑ j ∈ Finset.range n, (g j).toInt| ≤ 8589934592 * n := by
  induction n with
  | zero => simp
  | succ n ih =>
    obtain ⟨he, hb⟩ := ih (by omega) fun j hj => hg j (by omega)
    have hn := hg n (by omega)
    constructor
    · rw [List.range_succ, List.foldl_append, List.foldl_cons, List.foldl_nil,
        Finset.sum_range_succ, ← he]
      exact toInt_add64 (he ▸ hb) hn (by omega)
    · rw [Finset.sum_range_succ]
      have h := abs_add_le (∑ j ∈ Finset.range n, (g j).toInt) (g n).toInt
      push_cast
      linarith

end Lanes

end RtpServer.Library
