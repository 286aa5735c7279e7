import Mathlib.Data.List.Basic
import Mathlib.Data.List.GetD

/-!
# Memory regions of a fixed size

`blit` writes a block of cells at an offset without changing the length of the
region, whatever the offset. `Buffer α n` is a region that carries its size.
-/
namespace RtpServer.Library

theorem getD_take_of_lt {α : Type*} (l : List α) {n k : Nat} (h : k < n) (d : α) :
    (l.take n).getD k d = l.getD k d := by
  rw [List.getD_eq_getElem?_getD, List.getElem?_take_of_lt h, List.getD_eq_getElem?_getD]

theorem getD_drop {α : Type*} (l : List α) (n k : Nat) (d : α) :
    (l.drop n).getD k d = l.getD (n + k) d := by
  rw [List.getD_eq_getElem?_getD, List.getElem?_drop, List.getD_eq_getElem?_getD]

namespace Buffer

variable {α : Type*}

/-- `old` after `new` is written from `offset` on; cells outside `old` are not written. -/
def blit (old : List α) (offset : Nat) (new : List α) : List α :=
  old.take offset ++ new.take (old.length - offset) ++ old.drop (offset + new.length)

@[simp] theorem length_blit (old : List α) (offset : Nat) (new : List α) :
    (blit old offset new).length = old.length := by
  simp only [blit, List.length_append, List.length_take, List.length_drop]
  omega

@[simp] theorem blit_nil (old : List α) (offset : Nat) : blit old offset [] = old := by
  simp [blit]

theorem blit_of_fits (old : List α) {offset : Nat} {new : List α}
    (hfit : offset + new.length ≤ old.length) :
    blit old offset new = old.take offset ++ new ++ old.drop (offset + new.length) := by
  rw [blit, List.take_of_length_le (by omega : new.length ≤ old.length - offset)]

theorem blit_zero_of_length_eq (old : List α) {new : List α} (h : new.length = old.length) :
    blit old 0 new = new := by
  simp [blit, h, List.take_of_length_le (Nat.le_of_eq h)]

theorem blit_zero_of_fits (old : List α) {new : List α} (hfit : new.length ≤ old.length) :
    blit old 0 new = new ++ old.drop new.length := by
  rw [blit_of_fits old (by omega)]
  simp

theorem blit_zero_append {h h' : List α} (rest : List α) (hlen : h.length = h'.length) :
    blit (h ++ rest) 0 h' = h' ++ rest := by
  rw [blit_zero_of_fits _ (by rw [List.length_append]; omega), ← hlen, List.drop_left]

theorem blit_singleton (old : List α) {i : Nat} (hi : i < old.length) (a : α) :
    blit old i [a] = old.set i a := by
  rw [blit_of_fits old (show i + [a].length ≤ old.length from hi),
    List.set_eq_take_append_cons_drop, if_pos hi, List.append_assoc]
  rfl

end Buffer

structure Buffer (α : Type*) (n : Nat) where
  cells : List α
  size_eq : cells.length = n

namespace Buffer

variable {α : Type*} {n : Nat}

@[ext] theorem ext {a b : Buffer α n} (h : a.cells = b.cells) : a = b := by
  cases a
  cases b
  simpa using h

instance [DecidableEq α] : DecidableEq (Buffer α n) := fun a b =>
  decidable_of_iff (a.cells = b.cells) ⟨ext, fun h => h ▸ rfl⟩

def replicate (n : Nat) (a : α) : Buffer α n := ⟨List.replicate n a, List.length_replicate⟩

/-- Write a block; the size is kept by `length_blit`. -/
def write (b : Buffer α n) (offset : Nat) (new : List α) : Buffer α n :=
  ⟨blit b.cells offset new, (length_blit b.cells offset new).trans b.size_eq⟩

@[simp] theorem write_cells (b : Buffer α n) (offset : Nat) (new : List α) :
    (b.write offset new).cells = blit b.cells offset new := rfl

end Buffer

end RtpServer.Library
