import Mathlib.Data.List.GetD
import Mathlib.Data.List.Nodup
import Mathlib.Data.List.Perm.Subperm
import Mathlib.Data.Nat.Bitwise

/-!
# Reordering bits by a table

A table that gives each of `n` bits a place, one to one. Scattering puts bit `i` at its
place, gathering takes it back from there; the two are inverse because a one-to-one table
of `n` places below `n` has all of them.
-/
namespace RtpServer.Library

/-- No number twice in `ps` or in the bit set `seen`: one pass, so that a long table can be
evaluated. -/
def distinctFrom : (seen : Nat) → (ps : List Nat) → Bool
  | _, [] => true
  | seen, p :: ps => !seen.testBit p && distinctFrom (seen ||| 1 <<< p) ps

theorem nodup_of_distinctFrom {seen : Nat} {ps : List Nat} (h : distinctFrom seen ps = true) :
    ps.Nodup ∧ ∀ p ∈ ps, seen.testBit p = false := by
  induction ps generalizing seen with
  | nil => exact ⟨List.nodup_nil, fun _ hp => absurd hp List.not_mem_nil⟩
  | cons p ps ih =>
    rw [distinctFrom, Bool.and_eq_true, Bool.not_eq_true'] at h
    obtain ⟨hp, hrest⟩ := h
    obtain ⟨hnodup, hseen⟩ := ih hrest
    have hsplit : ∀ q ∈ ps, seen.testBit q = false ∧ p ≠ q := by
      intro q hq
      have hor := hseen q hq
      rw [Nat.testBit_or, Bool.or_eq_false_iff, Nat.one_shiftLeft, Nat.testBit_two_pow] at hor
      exact ⟨hor.1, of_decide_eq_false hor.2⟩
    refine ⟨List.nodup_cons.2 ⟨fun hmem => (hsplit p hmem).2 rfl, hnodup⟩, ?_⟩
    intro q hq
    rcases List.mem_cons.1 hq with rfl | hq
    · exact hp
    · exact (hsplit q hq).1

structure BitOrder (n : Nat) where
  table : List Nat
  size_eq : table.length = n
  lt : ∀ p ∈ table, p < n
  nodup : table.Nodup

namespace BitOrder

variable {n : Nat} (o : BitOrder n)

def place (i : Nat) : Nat := o.table.getD i 0

theorem place_eq {i : Nat} (hi : i < o.table.length) : o.place i = o.table[i] :=
  List.getD_eq_getElem _ _ _

theorem place_lt {i : Nat} (hi : i < n) : o.place i < n := by
  have hi' : i < o.table.length := by rwa [o.size_eq]
  rw [o.place_eq hi']
  exact o.lt _ (List.getElem_mem _)

theorem place_inj {i j : Nat} (hi : i < n) (hj : j < n) (h : o.place i = o.place j) : i = j := by
  have hi' : i < o.table.length := by rwa [o.size_eq]
  have hj' : j < o.table.length := by rwa [o.size_eq]
  rw [o.place_eq hi', o.place_eq hj'] at h
  exact (o.nodup.getElem_inj_iff).1 h

theorem perm_range : o.table.Perm (List.range n) := by
  have hsub : o.table ⊆ List.range n := fun p hp => List.mem_range.2 (o.lt p hp)
  have hlen : (List.range n).length ≤ o.table.length := by
    rw [List.length_range]
    exact Nat.le_of_eq o.size_eq.symm
  exact (o.nodup.subperm hsub).perm_of_length_le hlen

theorem exists_place {p : Nat} (hp : p < n) : ∃ i < n, o.place i = p := by
  obtain ⟨i, hi, he⟩ := List.mem_iff_getElem.1 (o.perm_range.mem_iff.2 (List.mem_range.2 hp))
  exact ⟨i, o.size_eq ▸ hi, (o.place_eq hi).trans he⟩

/-- Bits `b` put at their places. -/
def Scatters (b c : Nat → Bool) : Prop := ∀ p, c p = true ↔ ∃ i < n, o.place i = p ∧ b i = true

def Gathers (c d : Nat → Bool) : Prop := ∀ i < n, d i = c (o.place i)

variable {o} {b c d e : Nat → Bool}

theorem Scatters.at_place (h : o.Scatters b c) {i : Nat} (hi : i < n) : c (o.place i) = b i := by
  rw [Bool.eq_iff_iff, h]
  constructor
  · intro hex
    obtain ⟨j, hj, he, hb⟩ := hex
    rwa [← o.place_inj hj hi he]
  · exact fun hb => ⟨i, hi, rfl, hb⟩

theorem Scatters.eq_false (h : o.Scatters b c) {p : Nat} (hp : n ≤ p) : c p = false := by
  rw [Bool.eq_false_iff, ne_eq, h]
  intro hex
  obtain ⟨i, hi, he, -⟩ := hex
  have hlt := o.place_lt hi
  omega

/-- Gathering undoes scattering. -/
theorem Gathers.scatters (hg : o.Gathers c d) (hs : o.Scatters b c) : ∀ i < n, d i = b i :=
  fun i hi => (hg i hi).trans (hs.at_place hi)

/-- Scattering undoes gathering. -/
theorem Scatters.gathers (hs : o.Scatters d e) (hg : o.Gathers c d) : ∀ p < n, e p = c p := by
  intro p hp
  obtain ⟨i, hi, rfl⟩ := o.exists_place hp
  rw [hs.at_place hi, hg i hi]

end BitOrder

end RtpServer.Library
