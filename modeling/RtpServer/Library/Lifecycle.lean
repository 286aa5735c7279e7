import Mathlib.Data.Set.Insert

/-!
# Life cycles of handles

What may be done with handles that are created after their size was asked for, used, and
released: a monitor over events, the traces it admits, and how both compose.
-/
namespace RtpServer.Library

inductive Event (η : Type*) where
  /-- The memory needed was asked for; `ok` when the answer can be relied on. -/
  | sized (ok : Bool)
  | allocate
  | created (handle : Option η)
  | used (handle : η)
  | released (handle : η)

structure Monitor (η : Type*) where
  sizeKnown : Bool
  live : Set η

namespace Monitor

variable {η : Type*} (m : Monitor η)

def initial : Monitor η := ⟨false, ∅⟩

/-- Memory is only set up for a known size, and only live handles are used. -/
def Admits : Event η → Prop
  | .allocate => m.sizeKnown
  | .created _ => m.sizeKnown
  | .used handle => handle ∈ m.live
  | .sized _ => True
  | .released _ => True

def next : Event η → Monitor η
  | .sized ok => { m with sizeKnown := ok }
  | .created (some handle) => { m with live := insert handle m.live }
  | .released handle => { m with live := m.live \ {handle} }
  | _ => m

def after (events : List (Event η)) : Monitor η := events.foldl next m

def Obeys : Monitor η → List (Event η) → Prop
  | _, [] => True
  | m, e :: events => m.Admits e ∧ Obeys (m.next e) events

/-- Uses of one live handle are admitted and change nothing. -/
theorem obeys_used {handle : η} (hlive : handle ∈ m.live) {events : List (Event η)}
    (hused : ∀ e ∈ events, e = .used handle) : m.Obeys events ∧ m.after events = m := by
  induction events with
  | nil => exact ⟨trivial, rfl⟩
  | cons e events ih =>
    obtain rfl := hused e (by simp)
    obtain ⟨hobeys, hafter⟩ := ih fun e' he => hused e' (List.mem_cons_of_mem _ he)
    exact ⟨⟨hlive, hobeys⟩, hafter⟩

end Monitor

end RtpServer.Library
