import Mathlib.Data.List.Basic
import Mathlib.Data.List.Flatten
import RtpServer.Library.Machine

/-!
# Block filters

A causal filter that is fed block by block. It keeps its last `history` input samples;
every `hop` new samples give one group of outputs, which depends on the kept samples
and one hop of new ones at most. How the input was cut into blocks does not matter.
-/
namespace RtpServer.Library

structure BlockFilter (α β : Type*) where
  history : Nat
  hop : Nat
  width : Nat
  window : List α → List β
  hop_pos : 0 < hop
  length_window : ∀ line, (window line).length = width
  window_take : ∀ line, window (line.take (history + hop)) = window line

namespace BlockFilter

variable {α β : Type*} (f : BlockFilter α β)

/-- The groups of outputs at the first `n` positions of a line of samples. -/
def outputs (line : List α) (n : Nat) : List β :=
  (List.range n).flatMap fun m => f.window (line.drop (f.hop * m))

def kept (line : List α) : List α := line.drop (line.length - f.history)

def process (delay block : List α) : List α × List β :=
  (f.kept (delay ++ block), f.outputs (delay ++ block) (block.length / f.hop))

theorem mem_outputs {line : List α} {n : Nat} {v : β} :
    v ∈ f.outputs line n ↔ ∃ m < n, v ∈ f.window (line.drop (f.hop * m)) := by
  simp only [outputs, List.mem_flatMap, List.mem_range]

theorem window_append {line : List α} (h : f.history + f.hop ≤ line.length) (more : List α) :
    f.window (line ++ more) = f.window line := by
  rw [← f.window_take, ← f.window_take line, List.take_append_of_le_length h]

theorem length_kept {line : List α} (h : f.history ≤ line.length) :
    (f.kept line).length = f.history := by
  rw [kept, List.length_drop]
  omega

/-- Once `history` samples have come, what was there before is forgotten. -/
theorem kept_append (pre : List α) {line : List α} (h : f.history ≤ line.length) :
    f.kept (pre ++ line) = f.kept line := by
  rw [kept, kept, List.length_append, Nat.add_sub_assoc h, List.drop_append]
  simp

theorem kept_kept_append {line : List α} (h : f.history ≤ line.length) (block : List α) :
    f.kept (f.kept line ++ block) = f.kept (line ++ block) := by
  have hl := f.length_kept h
  have hs : line ++ block = line.take (line.length - f.history) ++ (f.kept line ++ block) := by
    rw [← List.append_assoc, kept, List.take_append_drop]
  have hle : f.history ≤ (f.kept line ++ block).length := by
    rw [List.length_append]
    omega
  rw [hs]
  exact (f.kept_append _ hle).symm

theorem kept_of_length_eq {delay : List α} (h : delay.length = f.history) :
    f.kept delay = delay := by
  rw [kept, h, Nat.sub_self, List.drop_zero]

/-- The outputs over a longer line: those of its first part, then those that start from
what the first part leaves behind. -/
theorem outputs_append {delay x : List α} {n : Nat} (hd : delay.length = f.history)
    (hx : x.length = f.hop * n) (y : List α) (k : Nat) :
    f.outputs (delay ++ x ++ y) (n + k) =
      f.outputs (delay ++ x) n ++ f.outputs (f.kept (delay ++ x) ++ y) k := by
  have hl : (delay ++ x).length = f.history + f.hop * n := by rw [List.length_append, hd, hx]
  rw [outputs, List.range_add, List.flatMap_append]
  congr 1
  · apply List.flatMap_congr
    intro m hm
    have hm' : f.hop * (m + 1) ≤ f.hop * n := Nat.mul_le_mul_left _ (List.mem_range.1 hm)
    rw [Nat.mul_succ] at hm'
    rw [List.drop_append_of_le_length (by omega)]
    apply f.window_append
    rw [List.length_drop]
    omega
  · rw [List.flatMap_map, outputs, kept, hl, Nat.add_sub_cancel_left]
    apply List.flatMap_congr
    intro m _
    rw [← List.drop_append_of_le_length (by omega), List.drop_drop, Nat.mul_add]

/-- One step of `m` processes one block; `Rep` relates its states to the kept samples. -/
structure Refines {σ ι ο : Type*} (m : Machine σ ι ο) (Rep : σ → List α → Prop)
    (block : ι → List α) (answer : ο → List β) : Prop where
  whole : ∀ i, f.hop ∣ (block i).length
  step : ∀ s delay i, Rep s delay → delay.length = f.history →
    Rep (m.step s i).1 (f.process delay (block i)).1 ∧
      answer (m.step s i).2 = (f.process delay (block i)).2

section

variable {f} {σ ι ο : Type*} {m : Machine σ ι ο} {Rep : σ → List α → Prop}
  {block : ι → List α} {answer : ο → List β}

/-- A run on any blocks is one pass over all their samples. -/
theorem Refines.run (h : f.Refines m Rep block answer) {s : σ} {delay : List α}
    (hr : Rep s delay) (hd : delay.length = f.history) (is : List ι) :
    Rep (m.after s is) (f.kept (delay ++ is.flatMap block)) ∧
      (m.outputs s is).flatMap answer =
        f.outputs (delay ++ is.flatMap block) ((is.flatMap block).length / f.hop) := by
  induction is generalizing s delay with
  | nil =>
    rw [List.flatMap_nil, List.append_nil, f.kept_of_length_eq hd]
    exact ⟨hr, by simp [Machine.outputs, outputs]⟩
  | cons i is ih =>
    obtain ⟨n, hn⟩ := h.whole i
    obtain ⟨hrep, hans⟩ := h.step s delay i hr hd
    have hle : f.history ≤ (delay ++ block i).length := by rw [List.length_append]; omega
    obtain ⟨hafter, hout⟩ := ih hrep (f.length_kept hle)
    simp only [process] at hafter hout hans
    rw [f.kept_kept_append hle, List.append_assoc] at hafter
    have hdiv : (block i ++ is.flatMap block).length / f.hop =
        n + (is.flatMap block).length / f.hop := by
      rw [List.length_append, hn, Nat.mul_add_div f.hop_pos]
    rw [List.flatMap_cons, Machine.outputs, List.flatMap_cons, hout, hans, hdiv,
      ← List.append_assoc, f.outputs_append hd hn, hn, Nat.mul_div_cancel_left n f.hop_pos]
    exact ⟨by rwa [List.append_assoc], rfl⟩

end

def map {γ : Type*} (g : β → γ) : BlockFilter α γ where
  history := f.history
  hop := f.hop
  width := f.width
  window line := (f.window line).map g
  hop_pos := f.hop_pos
  length_window line := (List.length_map _).trans (f.length_window line)
  window_take line := by rw [f.window_take]

theorem outputs_map {γ : Type*} (g : β → γ) (line : List α) (n : Nat) :
    (f.map g).outputs line n = (f.outputs line n).map g := by
  simp only [outputs, map, List.map_flatMap]

theorem kept_map {γ : Type*} (g : β → γ) (line : List α) : (f.map g).kept line = f.kept line := rfl

variable {f} in
theorem Refines.map {σ ι ο γ : Type*} {m : Machine σ ι ο} {Rep : σ → List α → Prop}
    {block : ι → List α} {answer : ο → List β} (h : f.Refines m Rep block answer) (g : β → γ)
    {answer' : ο → List γ}
    (hg : ∀ s delay i, Rep s delay → answer' (m.step s i).2 = (answer (m.step s i).2).map g) :
    (f.map g).Refines m Rep block answer' where
  whole := h.whole
  step s delay i hr hd := by
    obtain ⟨hrep, hans⟩ := h.step s delay i hr hd
    refine ⟨hrep, ?_⟩
    rw [hg s delay i hr, hans]
    exact (f.outputs_map g _ _).symm

theorem flatMap_range_inj {g h : Nat → List β} {width : Nat} (hg : ∀ m, (g m).length = width)
    (hh : ∀ m, (h m).length = width) (n : Nat) :
    (List.range n).flatMap g = (List.range n).flatMap h ↔ ∀ m < n, g m = h m := by
  induction n with
  | zero => simp
  | succ n ih =>
    rw [List.range_succ, List.flatMap_append, List.flatMap_append, List.flatMap_singleton,
      List.flatMap_singleton]
    constructor
    · intro he m hm
      obtain ⟨h1, h2⟩ := List.append_inj' he ((hg n).trans (hh n).symm)
      rcases Nat.lt_succ_iff_lt_or_eq.1 hm with hlt | rfl
      · exact ih.1 h1 m hlt
      · exact h2
    · intro he
      rw [ih.2 fun m hm => he m (by omega), he n (by omega)]

/-- Two starts give the same outputs if and only if they do so while the window still
holds samples of the start. -/
theorem outputs_eq_iff {delay delay' : List α} (hd : delay.length = f.history)
    (hd' : delay'.length = f.history) (x : List α) (n : Nat) :
    f.outputs (delay ++ x) n = f.outputs (delay' ++ x) n ↔
      ∀ m < n, f.hop * m < f.history →
        f.window ((delay ++ x).drop (f.hop * m)) = f.window ((delay' ++ x).drop (f.hop * m)) := by
  rw [outputs, outputs, flatMap_range_inj (fun _ => f.length_window _) fun _ => f.length_window _]
  refine forall₂_congr fun m _ => ⟨fun h _ => h, fun h => ?_⟩
  by_cases hm : f.hop * m < f.history
  · exact h hm
  · rw [List.drop_append, List.drop_append, List.drop_of_length_le (by omega),
      List.drop_of_length_le (by omega : delay'.length ≤ _), hd, hd']

theorem length_outputs (line : List α) (n : Nat) :
    (f.outputs line n).length = n * f.width := by
  rw [outputs, List.length_flatMap]
  simp only [f.length_window, List.map_const', List.length_range, List.sum_replicate_nat]

section

variable {f} {σ ι ο : Type*} {m : Machine σ ι ο} {Rep : σ → List α → Prop}
  {block : ι → List α} {answer : ο → List β}

theorem Refines.lengths (h : f.Refines m Rep block answer) {s : σ} {delay : List α}
    (hr : Rep s delay) (hd : delay.length = f.history) (is : List ι) :
    ((m.outputs s is).map answer).map List.length =
      is.map fun i => (block i).length / f.hop * f.width := by
  induction is generalizing s delay with
  | nil => rfl
  | cons i is ih =>
    obtain ⟨hrep, hans⟩ := h.step s delay i hr hd
    have hle : f.history ≤ (delay ++ block i).length := by rw [List.length_append]; omega
    have htail := ih hrep (f.length_kept hle)
    rw [Machine.outputs, List.map_cons, List.map_cons, List.map_cons, htail, hans, process,
      f.length_outputs]

/-- Two starts give the same answers to a run if and only if no window over their kept
samples tells them apart. -/
theorem Refines.answers_eq_iff (h : f.Refines m Rep block answer) {s s' : σ}
    {delay delay' : List α} (hr : Rep s delay) (hr' : Rep s' delay')
    (hd : delay.length = f.history) (hd' : delay'.length = f.history) (is : List ι) :
    (m.outputs s is).map answer = (m.outputs s' is).map answer ↔
      ∀ k < (is.flatMap block).length / f.hop, f.hop * k < f.history →
        f.window ((delay ++ is.flatMap block).drop (f.hop * k)) =
          f.window ((delay' ++ is.flatMap block).drop (f.hop * k)) := by
  rw [← f.outputs_eq_iff hd hd', ← (h.run hr hd is).2, ← (h.run hr' hd' is).2,
    List.eq_iff_flatten_eq, h.lengths hr hd, h.lengths hr' hd', List.flatMap_def,
    List.flatMap_def]
  exact and_iff_left rfl

end

end BlockFilter

end RtpServer.Library
