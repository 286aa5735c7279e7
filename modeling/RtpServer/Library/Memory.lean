import Mathlib.Data.List.Flatten
import Mathlib.Logic.Function.Basic
import RtpServer.Library.Buffer

/-!
# Memory that faults

Regions of cells, some of them live. An access outside a live region faults, and so does
freeing a region that is not live; a fault is `none`. A loop of stores is one block write when
what it stores does not depend on what it has overwritten.
-/
namespace RtpServer.Library

namespace Buffer

variable {α : Type*}

theorem blit_append (old : List α) {offset : Nat} {new more : List α}
    (hfit : offset + new.length + more.length ≤ old.length) :
    blit (blit old offset new) (offset + new.length) more = blit old offset (new ++ more) := by
  have hlen : (old.take offset ++ new).length = offset + new.length := by
    rw [List.length_append, List.length_take, Nat.min_eq_left (by omega)]
  rw [blit_of_fits (blit old offset new) (by rw [length_blit]; omega),
    blit_of_fits old (by omega : offset + new.length ≤ old.length),
    blit_of_fits old (by rw [List.length_append]; omega), List.take_left' hlen, List.drop_append,
    List.drop_of_length_le (by omega : _ ≤ offset + new.length + more.length), hlen,
    Nat.add_sub_cancel_left, List.drop_drop, List.length_append]
  simp only [List.nil_append, List.append_assoc, Nat.add_assoc]

theorem blit_blit (old : List α) {offset : Nat} {new more : List α}
    (hlen : new.length ≤ more.length) (hfit : offset + more.length ≤ old.length) :
    blit (blit old offset new) offset more = blit old offset more := by
  have hfront : (old.take offset).length = offset := List.length_take_of_le (by omega)
  have hboth : (old.take offset ++ new).length = offset + new.length := by
    rw [List.length_append, hfront]
  have hnew := blit_of_fits old (show offset + new.length ≤ old.length by omega)
  have hback : (blit old offset new).drop (offset + more.length) =
      old.drop (offset + more.length) := by
    rw [hnew, show offset + more.length = offset + new.length + (more.length - new.length) by omega,
      ← List.drop_drop, List.drop_left' hboth, List.drop_drop]
  have hkept : (blit old offset new).take offset = old.take offset := by
    rw [hnew, List.append_assoc, List.take_left' hfront]
  rw [blit_of_fits (blit old offset new) (by rw [length_blit]; exact hfit), hback, hkept,
    blit_of_fits old hfit]

theorem getElem?_blit_before (old : List α) {offset k : Nat} {new : List α} (hk : k < offset)
    (hfit : offset + new.length ≤ old.length) : (blit old offset new)[k]? = old[k]? := by
  rw [blit_of_fits old hfit, List.append_assoc, List.getElem?_append_left
    (by rw [List.length_take]; omega), List.getElem?_take_of_lt hk]

theorem getElem?_blit_after (old : List α) {offset k : Nat} {new : List α}
    (hk : offset + new.length ≤ k) (hfit : offset + new.length ≤ old.length) :
    (blit old offset new)[k]? = old[k]? := by
  have hfront : (old.take offset ++ new).length = offset + new.length := by
    rw [List.length_append, List.length_take_of_le (by omega)]
  rw [blit_of_fits old hfit, List.getElem?_append_right (by omega), hfront, List.getElem?_drop,
    Nat.add_sub_cancel' hk]

end Buffer

/-- The contents of the live regions. -/
abbrev Memory (ρ α : Type*) := ρ → Option (List α)

structure Pointer (ρ : Type*) where
  region : ρ
  offset : Nat

def Pointer.add {ρ : Type*} (p : Pointer ρ) (k : Nat) : Pointer ρ := ⟨p.region, p.offset + k⟩

namespace Memory

variable {ρ α : Type*}

/-- `p[k]` -/
def load (m : Memory ρ α) (p : Pointer ρ) (k : Nat) : Option α :=
  (m p.region).bind fun cells => cells[p.offset + k]?

/-- The first `n` cells from `p` on. -/
def block (m : Memory ρ α) (p : Pointer ρ) (n : Nat) : Option (List α) :=
  (m p.region).bind fun cells =>
    if p.offset + n ≤ cells.length then some ((cells.drop p.offset).take n) else none

/-- `for (i = 0; i < n; i++) body` -/
def loop {σ : Type*} (body : Nat → σ → Option σ) : Nat → σ → Option σ
  | 0, s => some s
  | n + 1, s => (loop body n s).bind (body n)

/-- There are `n` live cells from `p` on. -/
def Fits (m : Memory ρ α) (p : Pointer ρ) (n : Nat) : Prop :=
  ∃ cells, m p.region = some cells ∧ p.offset + n ≤ cells.length

/-- The live cells from `p` on start with `line`. -/
def Starts (m : Memory ρ α) (p : Pointer ρ) (line : List α) : Prop :=
  m.block p line.length = some line

/-- The `n` cells from `p` on and the `k` cells from `q` on have none in common. -/
def Apart (p : Pointer ρ) (n : Nat) (q : Pointer ρ) (k : Nat) : Prop :=
  p.region = q.region → p.offset + n ≤ q.offset ∨ q.offset + k ≤ p.offset

theorem Apart.symm {p q : Pointer ρ} {n k : Nat} (h : Apart p n q k) : Apart q k p n :=
  fun he => (h he.symm).symm

theorem apart_of_ne {p q : Pointer ρ} (h : p.region ≠ q.region) (n k : Nat) : Apart p n q k :=
  fun he => absurd he h

theorem Apart.mono {p q : Pointer ρ} {n n' k k' : Nat} (h : Apart p n q k) (hn : n' ≤ n)
    (hk : k' ≤ k) : Apart p n' q k' := by
  intro he
  have hsides := h he
  omega

variable {m : Memory ρ α} {p q : Pointer ρ} {new : List α} {n k : Nat}

theorem Fits.mono (h : m.Fits p n) (hk : k ≤ n) : m.Fits p k := by
  obtain ⟨cells, hcells, hroom⟩ := h
  exact ⟨cells, hcells, by omega⟩

theorem Fits.add (h : m.Fits p (k + n)) : m.Fits (p.add k) n := by
  obtain ⟨cells, hcells, hroom⟩ := h
  exact ⟨cells, hcells, by rw [Pointer.add]; dsimp only; omega⟩

theorem block_of_some {cells : List α} (h : m p.region = some cells)
    (hroom : p.offset + n ≤ cells.length) : m.block p n = some ((cells.drop p.offset).take n) := by
  rw [block, h, Option.bind_some, if_pos hroom]

theorem Fits.block (h : m.Fits p n) : ∃ line, m.block p n = some line ∧ line.length = n := by
  obtain ⟨cells, hcells, hroom⟩ := h
  refine ⟨_, block_of_some hcells hroom, ?_⟩
  rw [List.length_take, List.length_drop]
  omega

theorem Starts.cells {line : List α} (h : m.Starts p line) :
    ∃ cells, m p.region = some cells ∧ p.offset + line.length ≤ cells.length ∧
      (cells.drop p.offset).take line.length = line := by
  unfold Starts Memory.block at h
  obtain ⟨cells, hcells, hline⟩ := Option.bind_eq_some_iff.1 h
  by_cases hroom : p.offset + line.length ≤ cells.length
  · rw [if_pos hroom] at hline
    exact ⟨cells, hcells, hroom, Option.some.inj hline⟩
  · rw [if_neg hroom] at hline
    cases hline

theorem Starts.fits {line : List α} (h : m.Starts p line) : m.Fits p line.length := by
  obtain ⟨cells, hcells, hroom, -⟩ := h.cells
  exact ⟨cells, hcells, hroom⟩

theorem starts_of_some {cells : List α} (h : m p.region = some cells) (hp : p.offset = 0) :
    m.Starts p cells := by
  rw [Starts, block_of_some h (by omega), hp, List.drop_zero, List.take_length]

theorem Starts.take {line : List α} (h : m.Starts p line) (hk : k ≤ line.length) :
    m.Starts p (line.take k) := by
  obtain ⟨cells, hcells, hroom, hline⟩ := h.cells
  have hlen : (line.take k).length = k := List.length_take_of_le hk
  rw [Starts, hlen, block_of_some hcells (by omega), ← hline, List.take_take, Nat.min_eq_left hk]

theorem Starts.load {line : List α} (h : m.Starts p line) (hk : k < line.length) (d : α) :
    m.load p k = some (line.getD k d) := by
  obtain ⟨cells, hcells, -, hline⟩ := h.cells
  rw [Memory.load, hcells, Option.bind_some, ← List.getElem?_drop, ← List.getElem?_take_of_lt hk,
    hline, List.getD_eq_getElem?_getD, List.getElem?_eq_getElem hk, Option.getD_some]

theorem Starts.block_take {line : List α} (h : m.Starts p line) (hk : k ≤ line.length) :
    m.block p k = some (line.take k) := by
  have htake := h.take hk
  rwa [Starts, List.length_take_of_le hk] at htake

theorem Starts.part {line : List α} (h : m.Starts p line) (hk : k + n ≤ line.length) :
    m.block (p.add k) n = some ((line.drop k).take n) := by
  obtain ⟨cells, hcells, hroom, hline⟩ := h.cells
  have hplace : m (p.add k).region = some cells := hcells
  rw [block_of_some hplace (by rw [Pointer.add]; dsimp only; omega), ← hline, List.drop_take,
    List.take_take, Nat.min_eq_left (by omega), List.drop_drop]
  rfl

section

variable [DecidableEq ρ]

/-- `p[k] = a` -/
def store (m : Memory ρ α) (p : Pointer ρ) (k : Nat) (a : α) : Option (Memory ρ α) :=
  (m p.region).bind fun cells =>
    if p.offset + k < cells.length then
      some (Function.update m p.region (some (cells.set (p.offset + k) a)))
    else none

/-- The memory with `new` from `p` on; whether there is room is not asked here. -/
def put (m : Memory ρ α) (p : Pointer ρ) (new : List α) : Memory ρ α :=
  Function.update m p.region ((m p.region).map fun cells => Buffer.blit cells p.offset new)

/-- `memcpy`, which is undefined for objects that overlap. -/
def memcpy (m : Memory ρ α) (dst src : Pointer ρ) (n : Nat) : Option (Memory ρ α) :=
  if dst.region = src.region ∧ dst.offset < src.offset + n ∧ src.offset < dst.offset + n then none
  else (m.block src n).bind fun new => (m.block dst n).map fun _ => m.put dst new

theorem put_of_ne {r : ρ} (h : r ≠ p.region) : m.put p new r = m r := Function.update_of_ne h _ _

theorem put_self : m.put p new p.region =
    (m p.region).map fun cells => Buffer.blit cells p.offset new := Function.update_self _ _ _

@[simp] theorem put_nil : m.put p [] = m := by
  unfold put
  simp only [Buffer.blit_nil, Option.map_id']
  exact Function.update_eq_self _ _

theorem fits_put : (m.put p new).Fits q n ↔ m.Fits q n := by
  unfold Fits
  by_cases h : q.region = p.region
  · rw [h, put_self]
    cases m p.region with
    | none => simp
    | some cells => simp [Buffer.length_blit]
  · rw [put_of_ne h]

theorem Fits.put (h : m.Fits q n) : (m.put p new).Fits q n := fits_put.2 h

theorem put_put {more : List α} (hlen : new.length ≤ more.length) (h : m.Fits p more.length) :
    (m.put p new).put p more = m.put p more := by
  obtain ⟨cells, hcells, hroom⟩ := h
  rw [Memory.put, put_self, Memory.put, Function.update_idem, Memory.put, hcells, Option.map_some,
    Option.map_some, Option.map_some, Buffer.blit_blit cells hlen hroom]

theorem put_append {more : List α} (h : m.Fits p (new.length + more.length)) :
    (m.put p new).put (p.add new.length) more = m.put p (new ++ more) := by
  obtain ⟨cells, hcells, hroom⟩ := h
  have hself : m.put p new (p.add new.length).region =
      some (Buffer.blit cells p.offset new) := by
    rw [Pointer.add, put_self, hcells, Option.map_some]
  rw [Memory.put, hself, Memory.put, Memory.put, Pointer.add, Function.update_idem, hcells,
    Option.map_some, Option.map_some, Buffer.blit_append cells (by omega)]

theorem store_put (h : m.Fits p (new.length + 1)) (a : α) :
    (m.put p new).store p new.length a = some (m.put p (new ++ [a])) := by
  obtain ⟨cells, hcells, hroom⟩ := h
  have hblit : (Buffer.blit cells p.offset new).set (p.offset + new.length) a =
      Buffer.blit cells p.offset (new ++ [a]) := by
    rw [← Buffer.blit_singleton _ (by rw [Buffer.length_blit]; omega)]
    exact Buffer.blit_append cells (by rw [List.length_singleton]; omega)
  rw [store, put_self, hcells, Option.map_some, Option.bind_some,
    if_pos (by rw [Buffer.length_blit]; omega), hblit, Memory.put, Function.update_idem,
    Memory.put, hcells, Option.map_some]

theorem load_put_after (h : m.Fits p new.length) (hk : new.length ≤ k) :
    (m.put p new).load p k = m.load p k := by
  obtain ⟨cells, hcells, hroom⟩ := h
  rw [load, put_self, hcells, Option.map_some, Option.bind_some, load, hcells, Option.bind_some,
    Buffer.getElem?_blit_after cells (by omega) hroom]

theorem starts_put (h : m.Fits p new.length) : (m.put p new).Starts p new := by
  obtain ⟨cells, hcells, hroom⟩ := h
  have hself : m.put p new p.region = some (Buffer.blit cells p.offset new) := by
    rw [put_self, hcells, Option.map_some]
  rw [Starts, block_of_some hself (by rw [Buffer.length_blit]; exact hroom),
    Buffer.blit_of_fits cells hroom, List.append_assoc,
    List.drop_left' (List.length_take_of_le (by omega)), List.take_left]

/-- A block write leaves alone what is apart from it. -/
theorem Starts.put {line : List α} (h : m.Starts q line) (hp : m.Fits p new.length)
    (hapart : Apart p new.length q line.length) : (m.put p new).Starts q line := by
  obtain ⟨cells, hcells, hroom, hline⟩ := h.cells
  by_cases hr : q.region = p.region
  · obtain ⟨cells', hcells', hroom'⟩ := hp
    obtain rfl : cells' = cells := Option.some.inj (by rw [← hcells', ← hr, hcells])
    have hself : m.put p new q.region = some (Buffer.blit cells' p.offset new) := by
      rw [hr, put_self, hcells', Option.map_some]
    rw [Starts, block_of_some hself (by rw [Buffer.length_blit]; exact hroom)]
    refine congrArg some (Eq.trans ?_ hline)
    apply List.ext_getElem?
    intro k
    by_cases hk : k < line.length
    · rw [List.getElem?_take_of_lt hk, List.getElem?_take_of_lt hk, List.getElem?_drop,
        List.getElem?_drop]
      rcases hapart hr.symm with hbefore | hafter
      · exact Buffer.getElem?_blit_after _ (by omega) hroom'
      · exact Buffer.getElem?_blit_before _ (by omega) hroom'
    · rw [List.getElem?_eq_none (by rw [List.length_take]; omega),
        List.getElem?_eq_none (by rw [List.length_take]; omega)]
  · rw [Starts, Memory.block, put_of_ne hr]
    exact h

theorem memcpy_eq {line : List α} (hsrc : m.block q n = some line) (hdst : m.Fits p n)
    (hapart : Apart p n q n) : m.memcpy p q n = some (m.put p line) := by
  obtain ⟨old, hold, -⟩ := hdst.block
  rw [memcpy, if_neg, hsrc, Option.bind_some, hold, Option.map_some]
  intro hover
  obtain ⟨hr, h1, h2⟩ := hover
  have hsides := hapart hr
  omega

theorem length_flatMap_range {g : Nat → List α} {w : Nat} (hlen : ∀ i, (g i).length = w) (n : Nat) :
    ((List.range n).flatMap g).length = w * n := by
  induction n with
  | zero => rfl
  | succ n ih =>
    rw [List.range_succ, List.flatMap_append, List.length_append, ih, List.flatMap_singleton, hlen]
    exact (Nat.mul_succ w n).symm

/-- A loop that appends `w` cells in each turn writes them all, behind what was there. -/
theorem loop_append {body : Nat → Memory ρ α → Option (Memory ρ α)} {g : Nat → List α} {w : Nat}
    (hlen : ∀ i, (g i).length = w)
    (hbody : ∀ i < n, ∀ done : List α, done.length = new.length + w * i →
      body i (m.put p done) = some (m.put p (done ++ g i))) :
    loop body n (m.put p new) = some (m.put p (new ++ (List.range n).flatMap g)) := by
  induction n with
  | zero => rw [loop, List.range_zero, List.flatMap_nil, List.append_nil]
  | succ n ih =>
    have hdone : (new ++ (List.range n).flatMap g).length = new.length + w * n := by
      rw [List.length_append, length_flatMap_range hlen]
    rw [loop, ih fun i hi => hbody i (Nat.lt_succ_of_lt hi), Option.bind_some,
      hbody n (Nat.lt_succ_self n) _ hdone, List.range_succ, List.flatMap_append,
      List.flatMap_singleton, List.append_assoc]

theorem loop_fill {body : Nat → Memory ρ α → Option (Memory ρ α)} {g : Nat → List α} {w : Nat}
    (hlen : ∀ i, (g i).length = w)
    (hbody : ∀ i < n, ∀ done : List α, done.length = w * i →
      body i (m.put p done) = some (m.put p (done ++ g i))) :
    loop body n m = some (m.put p ((List.range n).flatMap g)) := by
  have hloop : loop body n (m.put p []) = some (m.put p ([] ++ (List.range n).flatMap g)) :=
    loop_append hlen fun i hi done hdone => hbody i hi done (hdone.trans (Nat.zero_add _))
  rwa [put_nil, List.nil_append] at hloop

end

end Memory

end RtpServer.Library
