import Mathlib.Data.List.Induction

/-!
# Deterministic input/output machines

A machine answers every input with an output and a next state. This file has the
run of a machine, the invariant rule, and an unwinding rule that compares a run
on all inputs with the run on the visible ones.
-/
namespace RtpServer.Library

structure Machine (σ ι ο : Type*) where
  step : σ → ι → σ × ο

namespace Machine

variable {σ ι ο : Type*} (m : Machine σ ι ο)

def after (s : σ) : List ι → σ
  | [] => s
  | i :: is => after (m.step s i).1 is

def outputs (s : σ) : List ι → List ο
  | [] => []
  | i :: is => (m.step s i).2 :: outputs (m.step s i).1 is

@[simp] theorem after_nil (s : σ) : m.after s [] = s := rfl

@[simp] theorem after_cons (s : σ) (i : ι) (is : List ι) :
    m.after s (i :: is) = m.after (m.step s i).1 is := rfl

theorem after_append (s : σ) (is js : List ι) :
    m.after s (is ++ js) = m.after (m.after s is) js := by
  induction is generalizing s with
  | nil => rfl
  | cons i is ih => exact ih (m.step s i).1

theorem after_concat (s : σ) (is : List ι) (i : ι) :
    m.after s (is ++ [i]) = (m.step (m.after s is) i).1 := by
  rw [after_append]
  rfl

theorem outputs_concat (s : σ) (is : List ι) (i : ι) :
    m.outputs s (is ++ [i]) = m.outputs s is ++ [(m.step (m.after s is) i).2] := by
  induction is generalizing s with
  | nil => rfl
  | cons j is ih => exact congrArg (List.cons _) (ih (m.step s j).1)

theorem outputs_append (s : σ) (is js : List ι) :
    m.outputs s (is ++ js) = m.outputs s is ++ m.outputs (m.after s is) js := by
  induction is generalizing s with
  | nil => rfl
  | cons i is ih => exact congrArg (List.cons _) (ih (m.step s i).1)

/-- What has been answered does not change with later inputs. -/
theorem outputs_prefix_mono (s : σ) {is js : List ι} (h : is <+: js) :
    m.outputs s is <+: m.outputs s js := by
  obtain ⟨rest, rfl⟩ := h
  rw [outputs_append]
  exact List.prefix_append _ _

@[simp] theorem length_outputs (s : σ) (is : List ι) : (m.outputs s is).length = is.length := by
  induction is generalizing s with
  | nil => rfl
  | cons i is ih => exact congrArg (· + 1) (ih (m.step s i).1)

/-- The invariant rule, for an invariant that may mention the inputs met so far. -/
theorem after_history {s : σ} {P : List ι → σ → Prop} (h0 : P [] s)
    (hstep : ∀ is i, P is (m.after s is) → P (is ++ [i]) (m.step (m.after s is) i).1)
    (is : List ι) : P is (m.after s is) := by
  induction is using List.reverseRecOn with
  | nil => exact h0
  | append_singleton is i ih =>
    rw [after_concat]
    exact hstep is i ih

/-- Every step of the run satisfies `Q`, which sees the inputs before it, the state it is
taken from and its input. -/
def Throughout (s : σ) (is : List ι) (Q : List ι → σ → ι → Prop) : Prop :=
  ∀ pre i post, is = pre ++ i :: post → Q pre (m.after s pre) i

def Occurs (s : σ) (is : List ι) (Q : σ → ι → Prop) : Prop :=
  ∃ pre i post, is = pre ++ i :: post ∧ Q (m.after s pre) i

theorem not_occurs_nil (s : σ) (Q : σ → ι → Prop) : ¬ m.Occurs s [] Q := by
  intro hall
  obtain ⟨pre, i, post, h, -⟩ := hall
  exact List.append_ne_nil_of_right_ne_nil pre (List.cons_ne_nil i post) h.symm

theorem occurs_concat (s : σ) (is : List ι) (i : ι) (Q : σ → ι → Prop) :
    m.Occurs s (is ++ [i]) Q ↔ m.Occurs s is Q ∨ Q (m.after s is) i := by
  constructor
  · intro hall
    obtain ⟨pre, j, post, h, hQ⟩ := hall
    cases post using List.reverseRecOn with
    | nil =>
      obtain ⟨rfl, hj⟩ := List.append_inj' h rfl
      obtain rfl := (List.singleton_inj).1 hj
      exact Or.inr hQ
    | append_singleton post k =>
      rw [← List.cons_append, ← List.append_assoc] at h
      exact Or.inl ⟨pre, j, post, (List.append_inj' h rfl).1, hQ⟩
  · intro hall
    rcases hall with ⟨pre, j, post, rfl, hQ⟩ | hQ
    · exact ⟨pre, j, post ++ [i], by simp, hQ⟩
    · exact ⟨is, i, [], rfl, hQ⟩

theorem Throughout.mono {s : σ} {is : List ι} {Q Q' : List ι → σ → ι → Prop}
    (h : m.Throughout s is Q) (hQ : ∀ pre i, Q pre (m.after s pre) i → Q' pre (m.after s pre) i) :
    m.Throughout s is Q' := fun pre i post he => hQ pre i (h pre i post he)

/-- What every step of a kind keeps holds wherever a run of such steps takes a step. -/
theorem Throughout.invariant {s : σ} {is : List ι} {Q : List ι → σ → ι → Prop} {P : σ → Prop}
    (h : m.Throughout s is Q) (h0 : P s)
    (hstep : ∀ pre t i, Q pre t i → P t → P (m.step t i).1) :
    m.Throughout s is fun pre t i => Q pre t i ∧ P t := by
  have hreached : ∀ pre post, is = pre ++ post → P (m.after s pre) := by
    intro pre
    induction pre using List.reverseRecOn with
    | nil => exact fun _ _ => h0
    | append_singleton pre j ih =>
      intro post he
      rw [List.append_assoc, List.singleton_append] at he
      rw [after_concat]
      exact hstep pre _ j (h pre j post he) (ih (j :: post) he)
  intro pre i post he
  exact ⟨h pre i post he, hreached pre (i :: post) he⟩

/-- Simulation along a run whose steps are all of a kind. -/
theorem Throughout.simulates {τ : Type*} {n : Machine τ ι ο} {R : σ → τ → Prop} {Q : σ → ι → Prop}
    (hstep : ∀ s t i, Q s i → R s t →
      (m.step s i).2 = (n.step t i).2 ∧ R (m.step s i).1 (n.step t i).1)
    {s : σ} {t : τ} {is : List ι} (h : m.Throughout s is fun _ => Q) (h0 : R s t) :
    m.outputs s is = n.outputs t is ∧ R (m.after s is) (n.after t is) := by
  induction is generalizing s t with
  | nil => exact ⟨rfl, h0⟩
  | cons i is ih =>
    obtain ⟨hout, hnext⟩ := hstep s t i (h [] i is rfl) h0
    obtain ⟨hrest, hafter⟩ := ih (fun pre j post he => h (i :: pre) j post (congrArg _ he)) hnext
    exact ⟨congrArg₂ List.cons hout hrest, hafter⟩

def comap {κ : Type*} (f : κ → ι) : Machine σ κ ο where
  step s k := m.step s (f k)

theorem after_comap {κ : Type*} (f : κ → ι) (s : σ) (ks : List κ) :
    (m.comap f).after s ks = m.after s (ks.map f) := by
  induction ks generalizing s with
  | nil => rfl
  | cons k ks ih => exact ih (m.step s (f k)).1

/-- Unwinding: `R hidden` relates the state of the full run to the state of the run on the
visible inputs alone, `hidden` being the invisible inputs met so far. A visible input steps
both sides, an invisible one only the first. -/
theorem unwinding (vis : ι → Bool) (R : List ι → σ → σ → Prop)
    (hvis : ∀ hidden s t i, vis i = true → R hidden s t →
      R hidden (m.step s i).1 (m.step t i).1)
    (hhid : ∀ hidden s t i, vis i = false → R hidden s t → R (hidden ++ [i]) (m.step s i).1 t)
    {s t : σ} (h0 : R [] s t) (is : List ι) :
    R (is.filter fun i => !vis i) (m.after s is) (m.after t (is.filter vis)) := by
  induction is using List.reverseRecOn with
  | nil => exact h0
  | append_singleton is i ih =>
    rw [List.filter_append, List.filter_append, after_concat]
    cases hv : vis i with
    | true =>
      simp only [List.filter_cons, hv, Bool.not_true, Bool.false_eq_true, if_false, if_true,
        List.filter_nil, List.append_nil, after_concat]
      exact hvis _ _ _ _ hv ih
    | false =>
      simp only [List.filter_cons, hv, Bool.not_false, Bool.false_eq_true, if_false, if_true,
        List.filter_nil, List.append_nil]
      exact hhid _ _ _ _ hv ih

/-- Simulation: machines whose states stay related answer alike. -/
theorem outputs_of_simulation {τ : Type*} {n : Machine τ ι ο} {R : σ → τ → Prop}
    (hstep : ∀ s t i, R s t → (m.step s i).2 = (n.step t i).2 ∧ R (m.step s i).1 (n.step t i).1)
    {s : σ} {t : τ} (h0 : R s t) (is : List ι) :
    m.outputs s is = n.outputs t is ∧ R (m.after s is) (n.after t is) := by
  have hall : m.Throughout s is fun _ _ _ => True := fun _ _ _ _ => trivial
  exact hall.simulates m (fun s t i _ => hstep s t i) h0

end Machine

/-! ## Machines that may fault -/

/-- A machine whose steps may fail to be defined. -/
structure FaultingMachine (σ ι ο : Type*) where
  step : σ → ι → Option (σ × ο)

namespace FaultingMachine

variable {σ ι ο : Type*} (m : FaultingMachine σ ι ο)

/-- The state after all inputs and the outputs, when no step faults. -/
def run (s : σ) : List ι → Option (σ × List ο)
  | [] => some (s, [])
  | i :: is => (m.step s i).bind fun r => (run r.1 is).map fun q => (q.1, r.2 :: q.2)

theorem run_concat (s : σ) (is : List ι) (i : ι) :
    m.run s (is ++ [i]) =
      (m.run s is).bind fun q => (m.step q.1 i).map fun r => (r.1, q.2 ++ [r.2]) := by
  induction is generalizing s with
  | nil =>
    simp only [List.nil_append, run, Option.bind_some]
    cases m.step s i with
    | none => rfl
    | some r => rfl
  | cons j is ih =>
    simp only [List.cons_append, run]
    cases m.step s j with
    | none => rfl
    | some r =>
      rw [Option.bind_some, Option.bind_some, ih]
      cases m.run r.1 is with
      | none => rfl
      | some q =>
        rw [Option.bind_some, Option.map_some, Option.bind_some]
        cases m.step q.1 i with
        | none => rfl
        | some r' => rfl

/-- Simulation: a machine that follows one without faults has none, and answers like it. The
relation may mention the inputs met so far. -/
theorem run_of_simulation {τ : Type*} {n : Machine τ ι ο} {R : List ι → σ → τ → Prop} {s : σ}
    {t : τ} (h0 : R [] s t)
    (hstep : ∀ is s' i, R is s' (n.after t is) →
      ∃ s'', m.step s' i = some (s'', (n.step (n.after t is) i).2) ∧
        R (is ++ [i]) s'' (n.step (n.after t is) i).1)
    (is : List ι) : ∃ s', m.run s is = some (s', n.outputs t is) ∧ R is s' (n.after t is) := by
  induction is using List.reverseRecOn with
  | nil => exact ⟨s, rfl, h0⟩
  | append_singleton is i ih =>
    obtain ⟨s', hrun, hr⟩ := ih
    obtain ⟨s'', hs, hr'⟩ := hstep is s' i hr
    refine ⟨s'', ?_, ?_⟩
    · rw [run_concat, hrun, Option.bind_some, hs, Option.map_some, n.outputs_concat]
    · rw [n.after_concat]
      exact hr'

theorem length_of_run {s s' : σ} {is : List ι} {os : List ο} (h : m.run s is = some (s', os)) :
    os.length = is.length := by
  induction is generalizing s os with
  | nil =>
    cases h
    rfl
  | cons i is ih =>
    obtain ⟨r, -, hrest⟩ := Option.bind_eq_some_iff.1 h
    obtain ⟨q, hq, heq⟩ := Option.map_eq_some_iff.1 hrest
    cases heq
    exact congrArg (· + 1) (ih hq)

/-- What every step of a kind keeps holds after a run of such steps. It may mention the outputs
made so far. -/
theorem run_invariant {P : List ο → σ → Prop} {ok : ι → Prop} {s : σ} (h0 : P [] s)
    (hstep : ∀ os t i t' o, ok i → P os t → m.step t i = some (t', o) → P (os ++ [o]) t')
    {is : List ι} (hok : ∀ i ∈ is, ok i) {s' : σ} {os : List ο} (h : m.run s is = some (s', os)) :
    P os s' := by
  induction is using List.reverseRecOn generalizing s' os with
  | nil =>
    cases h
    exact h0
  | append_singleton is i ih =>
    rw [run_concat] at h
    obtain ⟨⟨t, os'⟩, hrun, hlast⟩ := Option.bind_eq_some_iff.1 h
    obtain ⟨⟨t', o⟩, hstep', heq⟩ := Option.map_eq_some_iff.1 hlast
    cases heq
    have hbefore := ih (fun j hj => hok j (List.mem_append_left _ hj)) hrun
    exact hstep os' t i t' o (hok i (List.mem_append_right _ (List.mem_singleton_self i))) hbefore
      hstep'

end FaultingMachine

end RtpServer.Library
