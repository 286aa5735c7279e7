import RtpServer.Library.Guards
import RtpServer.Source.Scratch

/-!
# Scratch buffers and their guards

A request that is small enough gets words between the guards of its own buffer. In a run of
such requests and of writes to the words requested, every guard stays as it was installed and
a buffer that is not written keeps its contents. A request that is too large is reported and
handed out all the same.
-/
namespace RtpServer.Verify.ScratchGuards

open RtpServer.Library RtpServer.Source RtpServer.Source.TypeDef RtpServer.Source.Scratch

theorem supervised_room : ∀ i, (scratchData i).supervisionInUse = true →
    header.length + trailer.length ≤ (scratchData i).size16 := by decide

/-- The words of a buffer that are not guards. -/
def usableSize16 (i : Fin numScratchBuffs) : Nat :=
  if (scratchData i).supervisionInUse then (scratchData i).size16 - checkPatternsSize16
  else (scratchData i).size16

/-- Words `ptr` to `ptr + n` lie in the buffer, between its guards if it has them. -/
structure Inside (ptr : ScratchPtr) (n : Nat) : Prop where
  front : (scratchData ptr.buffer).supervisionInUse = true → header.length ≤ ptr.offset
  back : (scratchData ptr.buffer).supervisionInUse = true →
    ptr.offset + n ≤ (scratchData ptr.buffer).size16 - trailer.length
  room : ptr.offset + n ≤ (scratchData ptr.buffer).size16

/-- Whatever pointer is returned, the words requested are in the buffer of the id. -/
def ReturnsInside (scratchId size16 : Uint16) : Prop :=
  ∀ ptr, (lScratchGetBuffer scratchId size16).buffer = some ptr →
    ptr.buffer.val = scratchId.toNat ∧ Inside ptr size16.toNat

/-- The id names no buffer, or one with that many words between its guards. -/
def Fits (scratchId size16 : Uint16) : Prop :=
  ∀ i : Fin numScratchBuffs, i.val = scratchId.toNat → size16.toNat ≤ usableSize16 i

theorem lScratchGetBuffer_none {scratchId : Uint16} (size16 : Uint16)
    (h : ¬ scratchId.toNat < numScratchBuffs) :
    (lScratchGetBuffer scratchId size16).buffer = none := by
  rw [lScratchGetBuffer, dif_neg h]

theorem lScratchGetBuffer_some {scratchId : Uint16} (size16 : Uint16)
    (h : scratchId.toNat < numScratchBuffs) :
    (lScratchGetBuffer scratchId size16).buffer =
      some ⟨⟨scratchId.toNat, h⟩,
        if (scratchData ⟨scratchId.toNat, h⟩).supervisionInUse then header.length else 0⟩ := by
  rw [lScratchGetBuffer, dif_pos h]
  dsimp only
  split <;> rfl

theorem inside_iff (i : Fin numScratchBuffs) (n : Nat) :
    Inside ⟨i, if (scratchData i).supervisionInUse then header.length else 0⟩ n ↔
      n ≤ usableSize16 i := by
  have hroom := supervised_room i
  have hcheck : checkPatternsSize16 = header.length + trailer.length := rfl
  unfold usableSize16
  cases hs : (scratchData i).supervisionInUse with
  | true =>
    have hsize := hroom hs
    rw [if_pos rfl, if_pos rfl, hcheck]
    constructor
    · intro h
      have hback := h.back hs
      dsimp only at hback
      omega
    · intro h
      exact ⟨fun _ => Nat.le_refl _, fun _ => by dsimp only; omega, by dsimp only; omega⟩
  | false =>
    rw [if_neg Bool.false_ne_true, if_neg Bool.false_ne_true]
    constructor
    · intro h
      have hback := h.room
      dsimp only at hback
      omega
    · intro h
      exact ⟨fun h' => absurd (hs.symm.trans h') Bool.false_ne_true,
        fun h' => absurd (hs.symm.trans h') Bool.false_ne_true, by dsimp only; omega⟩

theorem returnsInside_iff (scratchId size16 : Uint16) :
    ReturnsInside scratchId size16 ↔ Fits scratchId size16 := by
  by_cases hid : scratchId.toNat < numScratchBuffs
  · have hbuffer := lScratchGetBuffer_some size16 hid
    constructor
    · intro h i hi
      obtain rfl : i = ⟨scratchId.toNat, hid⟩ := Fin.ext hi
      exact (inside_iff _ _).1 (h _ hbuffer).2
    · intro h ptr hptr
      obtain rfl := Option.some.inj (hbuffer.symm.trans hptr)
      exact ⟨rfl, (inside_iff _ _).2 (h _ rfl)⟩
  · constructor
    · intro _ i hi
      exact absurd (hi ▸ i.isLt) hid
    · intro _ ptr hptr
      rw [lScratchGetBuffer_none size16 hid] at hptr
      exact absurd hptr.symm (Option.some_ne_none ptr)

/-- Every guard is as it was installed. -/
def GuardsIntact (m : ScratchMemory) : Prop :=
  ∀ i, (scratchData i).supervisionInUse = true → Guarded header trailer (m i).cells

theorem guardsIntact_init (m : ScratchMemory) : GuardsIntact (lScratchInitSupervision m) := by
  intro i hs
  have hinstall := @guarded_install _ header trailer (m i).cells
    (by rw [(m i).size_eq]; exact supervised_room i hs)
  rw [(m i).size_eq] at hinstall
  rw [lScratchInitSupervision, if_pos hs]
  exact hinstall

theorem lScratchSupervision_eq_nil {m : ScratchMemory} (h : GuardsIntact m) :
    lScratchSupervision m = [] := by
  apply List.filterMap_eq_nil_iff.2
  intro i _
  dsimp only
  split
  · next hs =>
    obtain ⟨hfront, hback⟩ := h i hs
    rw [(m i).size_eq] at hback
    rw [if_neg (not_not.2 hfront), if_neg (not_not.2 hback)]
  · rfl

inductive Action where
  | getBuffer (scratchId size16 : Uint16)
  | write (ptr : ScratchPtr) (offset : Nat) (value : Uint16)

/-- A store to a word behind `ptr`; outside the array it is undefined. -/
def store (m : ScratchMemory) (ptr : ScratchPtr) (offset : Nat) (value : Uint16) :
    Option ScratchMemory :=
  if ptr.offset + offset < (scratchData ptr.buffer).size16 then
    some (Function.update m ptr.buffer ((m ptr.buffer).write (ptr.offset + offset) [value]))
  else none

def step (m : ScratchMemory) : Action → Option ScratchMemory
  | .getBuffer _ _ => some m
  | .write ptr offset value => store m ptr offset value

def run : ScratchMemory → List Action → Option ScratchMemory
  | m, [] => some m
  | m, a :: as => (step m a).bind fun m' => run m' as

/-- The pointers handed out, each with the number of words requested. -/
def handOut (handed : List (ScratchPtr × Nat)) (scratchId size16 : Uint16) :
    List (ScratchPtr × Nat) :=
  match (lScratchGetBuffer scratchId size16).buffer with
  | some ptr => (ptr, size16.toNat) :: handed
  | none => handed

/-- Every write of the run is to a word requested before. -/
def Confined : List (ScratchPtr × Nat) → List Action → Prop
  | _, [] => True
  | handed, .getBuffer scratchId size16 :: as => Confined (handOut handed scratchId size16) as
  | handed, .write ptr offset _ :: as =>
    (∃ n, (ptr, n) ∈ handed ∧ offset < n) ∧ Confined handed as

theorem handOut_inside {handed : List (ScratchPtr × Nat)}
    (h : ∀ ptr n, (ptr, n) ∈ handed → Inside ptr n) {scratchId size16 : Uint16}
    (hfits : Fits scratchId size16) :
    ∀ ptr n, (ptr, n) ∈ handOut handed scratchId size16 → Inside ptr n := by
  intro ptr n hmem
  unfold handOut at hmem
  split at hmem
  · next p hp =>
    rcases List.mem_cons.1 hmem with hmem | hmem
    · obtain ⟨rfl, rfl⟩ := Prod.mk.inj hmem
      exact ((returnsInside_iff _ _).2 hfits ptr hp).2
    · exact h ptr n hmem
  · exact h ptr n hmem

/-- A store to a requested word stays between the guards and in its own buffer. -/
theorem store_keeps {m : ScratchMemory} (hm : GuardsIntact m) {ptr : ScratchPtr} {n offset : Nat}
    (hinside : Inside ptr n) (hoffset : offset < n) (value : Uint16) :
    ∃ m', store m ptr offset value = some m' ∧ GuardsIntact m' ∧
      ∀ i, ptr.buffer ≠ i → m' i = m i := by
  have hin : ptr.offset + offset < (scratchData ptr.buffer).size16 :=
    Nat.lt_of_lt_of_le (Nat.add_lt_add_left hoffset _) hinside.room
  refine ⟨_, if_pos hin, fun i hs => ?_, fun i hi => Function.update_of_ne (Ne.symm hi) _ _⟩
  by_cases hi : i = ptr.buffer
  · subst hi
    have hback := hinside.back hs
    have hcells : ptr.offset + offset < (m ptr.buffer).cells.length := by
      rwa [(m ptr.buffer).size_eq]
    rw [Function.update_self, Buffer.write_cells, Buffer.blit_singleton _ hcells]
    apply (hm ptr.buffer hs).set (Nat.le_trans (hinside.front hs) (Nat.le_add_right _ _))
    rw [(m ptr.buffer).size_eq]
    omega
  · rw [Function.update_of_ne hi]
    exact hm i hs

/-- By induction on the actions; what is carried along is that all pointers handed out so far
are inside their buffers. -/
theorem run_keeps {as : List Action} {m : ScratchMemory} {handed : List (ScratchPtr × Nat)}
    (hm : GuardsIntact m) (hhanded : ∀ ptr n, (ptr, n) ∈ handed → Inside ptr n)
    (hfits : ∀ scratchId size16, .getBuffer scratchId size16 ∈ as → Fits scratchId size16)
    (hconfined : Confined handed as) :
    ∃ m', run m as = some m' ∧ GuardsIntact m' ∧
      ∀ i, (∀ ptr offset value, .write ptr offset value ∈ as → ptr.buffer ≠ i) → m' i = m i := by
  induction as generalizing m handed with
  | nil => exact ⟨m, rfl, hm, fun _ _ => rfl⟩
  | cons a as ih =>
    have hrest : ∀ scratchId size16, .getBuffer scratchId size16 ∈ as → Fits scratchId size16 :=
      fun scratchId size16 h => hfits scratchId size16 (List.mem_cons_of_mem a h)
    cases a with
    | getBuffer scratchId size16 =>
      obtain ⟨m', hrun, hguards, hsame⟩ := ih hm
        (handOut_inside hhanded (hfits scratchId size16 List.mem_cons_self)) hrest hconfined
      exact ⟨m', hrun, hguards, fun i hi =>
        hsame i fun ptr offset value h => hi ptr offset value (List.mem_cons_of_mem _ h)⟩
    | write ptr offset value =>
      obtain ⟨⟨n, hmem, hoffset⟩, hconfined⟩ := hconfined
      obtain ⟨m₁, hstore, hm₁, hothers⟩ := store_keeps hm (hhanded ptr n hmem) hoffset value
      obtain ⟨m', hrun, hguards, hsame⟩ := ih hm₁ hhanded hrest hconfined
      refine ⟨m', ?_, hguards, fun i hi => ?_⟩
      · rw [run, step, hstore, Option.bind_some, hrun]
      · rw [hsame i fun ptr offset value h => hi ptr offset value (List.mem_cons_of_mem _ h),
          hothers i (hi ptr offset value List.mem_cons_self)]

/-- A pointer is inside its buffer exactly for a request that fits; and in every run of such
requests and of writes to requested words no access is outside a buffer, the supervision finds
nothing, and the buffers that are not written keep their contents. -/
theorem scratch_guarded (m : ScratchMemory) :
    (∀ scratchId size16, ReturnsInside scratchId size16 ↔ Fits scratchId size16) ∧
      ∀ as, (∀ scratchId size16, .getBuffer scratchId size16 ∈ as → Fits scratchId size16) →
        Confined [] as →
        ∃ m', run (lScratchInitSupervision m) as = some m' ∧ lScratchSupervision m' = [] ∧
          ∀ i, (∀ ptr offset value, .write ptr offset value ∈ as → ptr.buffer ≠ i) →
            m' i = lScratchInitSupervision m i := by
  refine ⟨returnsInside_iff, fun as hfits hconfined => ?_⟩
  obtain ⟨m', hrun, hguards, hsame⟩ := run_keeps (guardsIntact_init m)
    (fun ptr n h => absurd h List.not_mem_nil) hfits hconfined
  exact ⟨m', hrun, lScratchSupervision_eq_nil hguards, hsame⟩

def zeroMemory : ScratchMemory := fun _ => Buffer.replicate _ 0

instance (scratchId size16 : Uint16) : Decidable (Fits scratchId size16) :=
  inferInstanceAs (Decidable (∀ _ : Fin numScratchBuffs, _ → _))

/-- The first and the last word of a module internal scratch that is used up. -/
theorem scratch_guarded_full :
    ∃ m', run (lScratchInitSupervision zeroMemory)
        [.getBuffer 1 600, .write ⟨1, 4⟩ 0 0xFFFF, .write ⟨1, 4⟩ 599 0xFFFF] = some m' ∧
      lScratchSupervision m' = [] := by
  obtain ⟨-, hruns⟩ := scratch_guarded zeroMemory
  have hfits : ∀ scratchId size16, .getBuffer scratchId size16 ∈
      [Action.getBuffer 1 600, .write ⟨1, 4⟩ 0 0xFFFF, .write ⟨1, 4⟩ 599 0xFFFF] →
      Fits scratchId size16 := by
    intro scratchId size16 h
    simp only [List.mem_cons, Action.getBuffer.injEq, reduceCtorEq, List.not_mem_nil,
      or_false] at h
    obtain ⟨rfl, rfl⟩ := h
    decide
  obtain ⟨m', hrun, hnone, -⟩ := hruns _ hfits
    ⟨⟨600, List.mem_cons_self, by decide⟩, ⟨600, List.mem_cons_self, by decide⟩, trivial⟩
  exact ⟨m', hrun, hnone⟩

/-- One word more than the module internal scratch has is handed out too, and a write to the
last word requested spoils the trailer. -/
theorem scratch_trailer_spoiled :
    ¬ ReturnsInside 1 601 ∧
      (lScratchGetBuffer 1 601).buffer = some ⟨1, 4⟩ ∧
      Confined [] [.getBuffer 1 601, .write ⟨1, 4⟩ 600 0xFFFF] ∧
      (run (lScratchInitSupervision zeroMemory)
        [.getBuffer 1 601, .write ⟨1, 4⟩ 600 0xFFFF]).map lScratchSupervision =
          some [(eLScratchTrailerCorrupted, 0x02600001)] := by
  refine ⟨?_, by decide, ⟨⟨601, List.mem_cons_self, by decide⟩, trivial⟩, by decide +kernel⟩
  rw [returnsInside_iff]
  decide

end RtpServer.Verify.ScratchGuards
