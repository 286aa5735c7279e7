import RtpServer.Verify.ConverterCalls

/-!
# Converters that share their memory

All converters filter in one scratch buffer, and a call may be given one packet as its input
and its output. Whatever the scratch holds and whichever packets are one and the same, a run of
calls on any number of converters makes no access outside live memory, frees nothing twice and
does to the packets what converters with a memory of their own do.
-/
namespace RtpServer.Verify.SharedConverters

open RtpServer.Library RtpServer.Library.Memory RtpServer.Source RtpServer.Source.TypeDef
open RtpServer.Source.Upd RtpServer.Source.Scratch RtpServer.Source.SampleRate
open RtpServer.Source.SampleRateMemory RtpServer.Verify.Resampler
open RtpServer.Verify.ConverterWords RtpServer.Verify.ConverterCalls

variable {κ ι : Type}

/-- Converters that share nothing but the packets. -/
structure Separate (κ μ : Type) where
  packet : κ → UpdPacket updMaxPayloadSize16
  up : μ → MSrcUpData
  down : μ → MSrcDownData

section

variable {μ : Type} [DecidableEq κ] [DecidableEq μ]

/-- A packet handed back at its address. -/
def passBack (packet : κ → UpdPacket updMaxPayloadSize16) (k : Option κ)
    (p : Option (UpdPacket updMaxPayloadSize16)) : κ → UpdPacket updMaxPayloadSize16 :=
  match k, p with
  | some k, some p => Function.update packet k p
  | _, _ => packet

/-- Each converter by the functions on values; the output packet is handed back last. -/
def separate : Machine (Separate κ μ) (Call κ μ) Ecode where
  step t
    | .fill packet content =>
      ({ t with packet := Function.update t.packet packet content }, eaNoErrors)
    | .upInit c leftBehind =>
      let r := SampleRate.mSrcUpInit (t.up c) leftBehind
      ({ t with up := Function.update t.up c r.2 }, r.1)
    | .up c updIn updOut =>
      let r := SampleRate.mSrcUp (t.up c) (updIn.map t.packet) (updOut.map t.packet)
      ({ t with
        packet := passBack (passBack t.packet updIn r.updIn) updOut r.updOut
        up := Function.update t.up c r.master }, r.ecode)
    | .upRelease c =>
      let r := mSrcUpRelease (t.up c)
      ({ t with up := Function.update t.up c r.2 }, r.1)
    | .downInit c leftBehind =>
      let r := SampleRate.mSrcDownInit (t.down c) leftBehind
      ({ t with down := Function.update t.down c r.2 }, r.1)
    | .down c updIn updOut =>
      let r := SampleRate.mSrcDown (t.down c) (updIn.map t.packet) (updOut.map t.packet)
      ({ t with
        packet := passBack (passBack t.packet updIn r.updIn) updOut r.updOut
        down := Function.update t.down c r.master }, r.ecode)
    | .downRelease c =>
      let r := mSrcDownRelease (t.down c)
      ({ t with down := Function.update t.down c r.2 }, r.1)

end

section

variable {μ : Type}

/-- The structures of all converters, of both directions. -/
def internals (s : Converters κ ι μ) : μ ⊕ μ → Option (Internal ι) :=
  Sum.elim (fun c => (s.up c).internal) fun c => (s.down c).internal

def delays (t : Separate κ μ) : μ ⊕ μ → Option (List Sint16) :=
  Sum.elim (fun c => (t.up c).internal.map fun i => i.delaybuffer.cells)
    fun c => (t.down c).internal.map fun i => i.delaybuffer.cells

structure Shows (kept : Fin numScratchBuffs → Option (List Sint16)) (s : Converters κ ι μ)
    (t : Separate κ μ) : Prop where
  shares : Shares kept s.world (internals s) t.packet (delays t)
  upCode : ∀ c, (s.up c).extraEcode = (t.up c).extraEcode
  downCode : ∀ c, (s.down c).extraEcode = (t.down c).extraEcode

def Separate.initial (packet : κ → UpdPacket updMaxPayloadSize16) : Separate κ μ where
  packet := packet
  up _ := ⟨0, none⟩
  down _ := ⟨0, none⟩

theorem shows_initial (scratch : ScratchMemory) (packet : κ → UpdPacket updMaxPayloadSize16) :
    Shows (fun i => some (scratch i).cells) (Converters.initial scratch packet : Converters κ ι μ)
      (Separate.initial packet) where
  shares := {
    packets := ⟨fun _ => rfl, fun _ => rfl, fun _ => rfl⟩
    scratch := ⟨_, rfl, by
      rw [(scratch srcScratch).size_eq]
      exact (show 0 + 1032 ≤ (scratchData srcScratch).size16 by decide)⟩
    scratches := fun _ _ => rfl
    initialised := by rintro (c | c) <;> rfl
    holds := by rintro (c | c) a d ha <;> cases ha
    live := by rintro (c | c) a ha <;> cases ha
    unshared := by rintro (c | c) y a b ha <;> cases ha }
  upCode _ := rfl
  downCode _ := rfl

/-- No structure was allocated or freed, and no converter has another one. -/
structure Keeps (s s' : Converters κ ι μ) : Prop where
  allocated : s'.world.allocated = s.world.allocated
  structures : internals s' = internals s

/-- The converter `x` has a structure `a` allocated for it. -/
structure Gains (s s' : Converters κ ι μ) (x : μ ⊕ μ) (a : Internal ι) : Prop where
  fresh : a.delaybuffer ∉ s.world.allocated
  allocated : s'.world.allocated = a.delaybuffer :: s.world.allocated
  others : ∀ y, y ≠ x → internals s' y = internals s y
  gained : internals s' x = some a

/-- The structure `a` of the converter `x` is freed. -/
structure Loses [DecidableEq ι] (s s' : Converters κ ι μ) (x : μ ⊕ μ) (a : Internal ι) : Prop where
  allocated : s'.world.allocated = s.world.allocated.erase a.delaybuffer
  others : ∀ y, y ≠ x → internals s' y = internals s y
  held : internals s x = some a
  lost : internals s' x = none

variable {kept : Fin numScratchBuffs → Option (List Sint16)} {s s' : Converters κ ι μ}
  {t : Separate κ μ} {x : μ ⊕ μ}

/-- A structure is allocated that no converter has: nothing can free it any more. -/
def Leaks (s : Converters κ ι μ) : Prop :=
  ∃ b ∈ s.world.allocated, ∀ x a, internals s x = some a → a.delaybuffer ≠ b

theorem Keeps.leaks_iff (h : Keeps s s') : Leaks s' ↔ Leaks s := by
  rw [Leaks, Leaks, h.allocated, h.structures]

theorem Gains.leaks_of_held {a b : Internal ι} (hs : Shows kept s t) (h : Gains s s' x a)
    (hb : internals s x = some b) : Leaks s' := by
  have hlive := hs.shares.live x b hb
  refine ⟨b.delaybuffer, h.allocated ▸ List.mem_cons_of_mem _ hlive, fun y e he heq => ?_⟩
  by_cases hy : y = x
  · rw [hy, h.gained] at he
    obtain rfl := Option.some.inj he
    exact h.fresh (heq ▸ hlive)
  · rw [h.others y hy] at he
    exact hy (hs.shares.unshared y x e b he hb heq)

theorem Gains.leaks_iff {a : Internal ι} (h : Gains s s' x a)
    (hidle : internals s x = none) : Leaks s' ↔ Leaks s := by
  constructor
  · intro hleak
    obtain ⟨b, hb, hfree⟩ := hleak
    rw [h.allocated] at hb
    rcases List.mem_cons.1 hb with rfl | hb
    · exact absurd rfl (hfree x a h.gained)
    · refine ⟨b, hb, fun y e he => hfree y e ?_⟩
      have hy : y ≠ x := fun hy => by rw [hy, hidle] at he; cases he
      rw [h.others y hy, he]
  · intro hleak
    obtain ⟨b, hb, hfree⟩ := hleak
    refine ⟨b, h.allocated ▸ List.mem_cons_of_mem _ hb, fun y e he => ?_⟩
    by_cases hy : y = x
    · rw [hy, h.gained] at he
      obtain rfl := Option.some.inj he
      exact fun heq => h.fresh (heq ▸ hb)
    · rw [h.others y hy] at he
      exact hfree y e he

/-- What is lost is the structure of a converter that was initialised already. -/
theorem Gains.leaks_or {a : Internal ι} (hs : Shows kept s t) (h : Gains s s' x a) :
    Leaks s' ↔ Leaks s ∨ delays t x ≠ none := by
  have hsome := hs.shares.initialised x
  cases hx : internals s x with
  | none =>
    rw [hx] at hsome
    have hnone : delays t x = none := by simpa using hsome.symm
    rw [h.leaks_iff hx, hnone]
    simp
  | some b =>
    rw [hx] at hsome
    have hne : delays t x ≠ none := fun hnone => by simp [hnone] at hsome
    exact iff_of_true (h.leaks_of_held hs hx) (Or.inr hne)

theorem Gains.nodup {a : Internal ι} (h : Gains s s' x a) (hnodup : s.world.allocated.Nodup) :
    s'.world.allocated.Nodup := by
  rw [h.allocated]
  exact List.nodup_cons.2 ⟨h.fresh, hnodup⟩

theorem Loses.leaks_iff [DecidableEq ι] {a : Internal ι} (h : Loses s s' x a)
    (hnodup : s.world.allocated.Nodup) : Leaks s' ↔ Leaks s := by
  constructor
  · intro hleak
    obtain ⟨b, hb, hfree⟩ := hleak
    rw [h.allocated, hnodup.mem_erase_iff] at hb
    refine ⟨b, hb.2, fun y e he => ?_⟩
    by_cases hy : y = x
    · rw [hy, h.held] at he
      obtain rfl := Option.some.inj he
      exact hb.1.symm
    · exact hfree y e ((h.others y hy).trans he)
  · intro hleak
    obtain ⟨b, hb, hfree⟩ := hleak
    refine ⟨b, ?_, fun y e he => ?_⟩
    · rw [h.allocated, hnodup.mem_erase_iff]
      exact ⟨(hfree x a h.held).symm, hb⟩
    · have hy : y ≠ x := fun hy => by rw [hy, h.lost] at he; cases he
      exact hfree y e ((h.others y hy).symm.trans he)

theorem released_books [DecidableEq ι] (h : Keeps s s' ∨ ∃ a, Loses s s' x a)
    (hnodup : s.world.allocated.Nodup) :
    s'.world.allocated.Nodup ∧ (Leaks s' ↔ Leaks s) := by
  rcases h with hkeeps | ⟨a, hloses⟩
  · exact ⟨hkeeps.allocated ▸ hnodup, hkeeps.leaks_iff⟩
  · exact ⟨hloses.allocated ▸ hnodup.erase _, hloses.leaks_iff hnodup⟩

variable [DecidableEq μ] {w' : World κ ι} {packet' : κ → UpdPacket updMaxPayloadSize16} {c : μ}

theorem internals_up (s : Converters κ ι μ) (c : μ) (w' : World κ ι) (m' : Master ι) :
    internals { s with world := w', up := Function.update s.up c m' } =
      Function.update (internals s) (.inl c) m'.internal := by
  funext y
  rcases y with y | y
  · by_cases hy : y = c
    · rw [hy]
      simp [internals]
    · simp [internals, hy]
  · simp [internals]

theorem internals_down (s : Converters κ ι μ) (c : μ) (w' : World κ ι) (m' : Master ι) :
    internals { s with world := w', down := Function.update s.down c m' } =
      Function.update (internals s) (.inr c) m'.internal := by
  funext y
  rcases y with y | y
  · simp [internals]
  · by_cases hy : y = c
    · rw [hy]
      simp [internals]
    · simp [internals, hy]

theorem keeps_up (hw : w'.allocated = s.world.allocated) (c : μ) (code : Uint32) :
    Keeps s { s with
      world := w'
      up := Function.update s.up c { s.up c with extraEcode := code } } :=
  ⟨hw, (internals_up s c w' _).trans (Function.update_eq_self _ _)⟩

theorem keeps_down (hw : w'.allocated = s.world.allocated) (c : μ) (code : Uint32) :
    Keeps s { s with
      world := w'
      down := Function.update s.down c { s.down c with extraEcode := code } } :=
  ⟨hw, (internals_down s c w' _).trans (Function.update_eq_self _ _)⟩

theorem Shows.up (h : Shows kept s t) {m' : Master ι} {v' : MSrcUpData}
    (hshares : Shares kept w' (Function.update (internals s) (.inl c) m'.internal) packet'
      (Function.update (delays t) (.inl c) (v'.internal.map fun i => i.delaybuffer.cells)))
    (hcode : m'.extraEcode = v'.extraEcode) :
    Shows kept { s with world := w', up := Function.update s.up c m' }
      { t with packet := packet', up := Function.update t.up c v' } := by
  have hdelays : delays { t with packet := packet', up := Function.update t.up c v' } =
      Function.update (delays t) (.inl c) (v'.internal.map fun i => i.delaybuffer.cells) := by
    funext y
    rcases y with y | y
    · by_cases hy : y = c
      · rw [hy]
        simp [delays]
      · simp [delays, hy]
    · simp [delays]
  refine ⟨internals_up s c w' m' ▸ hdelays ▸ hshares, fun y => ?_, h.downCode⟩
  by_cases hy : y = c
  · simp [hy, hcode]
  · simp [hy, h.upCode y]

theorem Shows.down (h : Shows kept s t) {m' : Master ι} {v' : MSrcDownData}
    (hshares : Shares kept w' (Function.update (internals s) (.inr c) m'.internal) packet'
      (Function.update (delays t) (.inr c) (v'.internal.map fun i => i.delaybuffer.cells)))
    (hcode : m'.extraEcode = v'.extraEcode) :
    Shows kept { s with world := w', down := Function.update s.down c m' }
      { t with packet := packet', down := Function.update t.down c v' } := by
  have hdelays : delays { t with packet := packet', down := Function.update t.down c v' } =
      Function.update (delays t) (.inr c) (v'.internal.map fun i => i.delaybuffer.cells) := by
    funext y
    rcases y with y | y
    · simp [delays]
    · by_cases hy : y = c
      · rw [hy]
        simp [delays]
      · simp [delays, hy]
  refine ⟨internals_down s c w' m' ▸ hdelays ▸ hshares, h.upCode, fun y => ?_⟩
  by_cases hy : y = c
  · simp [hy, hcode]
  · simp [hy, h.downCode y]

/-- A call that returns at once, with another error code in the master at most. -/
theorem Shows.up_same (h : Shows kept s t) (c : μ) (code : Uint32) :
    Shows kept { s with up := Function.update s.up c { s.up c with extraEcode := code } }
      { t with up := Function.update t.up c { t.up c with extraEcode := code } } := by
  have hinternals : Function.update (internals s) (.inl c) (s.up c).internal = internals s :=
    Function.update_eq_self _ _
  have hdelays : Function.update (delays t) (.inl c)
      ((t.up c).internal.map fun i => i.delaybuffer.cells) = delays t :=
    Function.update_eq_self _ _
  have hshares := h.shares
  rw [← hinternals, ← hdelays] at hshares
  exact h.up hshares rfl

theorem Shows.down_same (h : Shows kept s t) (c : μ) (code : Uint32) :
    Shows kept { s with down := Function.update s.down c { s.down c with extraEcode := code } }
      { t with down := Function.update t.down c { t.down c with extraEcode := code } } := by
  have hinternals : Function.update (internals s) (.inr c) (s.down c).internal = internals s :=
    Function.update_eq_self _ _
  have hdelays : Function.update (delays t) (.inr c)
      ((t.down c).internal.map fun i => i.delaybuffer.cells) = delays t :=
    Function.update_eq_self _ _
  have hshares := h.shares
  rw [← hinternals, ← hdelays] at hshares
  exact h.down hshares rfl

variable [DecidableEq κ]

theorem passBack_same (packet : κ → UpdPacket updMaxPayloadSize16) (k : Option κ) :
    passBack packet k (k.map packet) = packet := by
  cases k with
  | none => rfl
  | some k => exact Function.update_eq_self k packet

variable [DecidableEq ι]

theorem mSrcUp_null {w : World κ ι} {master : Master ι} {i o : Option κ}
    (h : master.internal = none ∨ i = none ∨ o = none) :
    SampleRateMemory.mSrcUp w master i o = some (eMSrcNullPointer, master, w) := by
  unfold SampleRateMemory.mSrcUp
  split
  · simp_all
  · rfl

theorem value_mSrcUp_null {master : MSrcUpData} {i o : Option (UpdPacket updMaxPayloadSize16)}
    (h : master.internal = none ∨ i = none ∨ o = none) :
    SampleRate.mSrcUp master i o = ⟨eMSrcNullPointer, master, i, o⟩ := by
  unfold SampleRate.mSrcUp
  split
  · simp_all
  · rfl

theorem step_up (h : Shows kept s t) (c : μ) (i o : Option κ) :
    let r := SampleRate.mSrcUp (t.up c) (i.map t.packet) (o.map t.packet)
    ∃ s', (SampleRateMemory.mSrcUp s.world (s.up c) i o).map (s.ofUp c) = some (s', r.ecode) ∧
      Keeps s s' ∧ Shows kept s' { t with
        packet := passBack (passBack t.packet i r.updIn) o r.updOut
        up := Function.update t.up c r.master } := by
  intro r
  by_cases hnull : (s.up c).internal = none ∨ i = none ∨ o = none
  · have hr : r = ⟨eMSrcNullPointer, t.up c, i.map t.packet, o.map t.packet⟩ := by
      refine value_mSrcUp_null (hnull.imp (fun hi => ?_) fun h => ?_)
      · have hnone : (internals s (.inl c)).isSome = false := by
          rw [internals, Sum.elim_inl, hi]
          rfl
        rw [h.shares.initialised] at hnone
        simpa [delays] using hnone
      · exact h.imp (fun h => by rw [h]; rfl) fun h => by rw [h]; rfl
    have hsame := h.up_same c (s.up c).extraEcode
    refine ⟨_, by rw [mSrcUp_null hnull, hr]; rfl, keeps_up rfl c (s.up c).extraEcode, ?_⟩
    rw [hr, passBack_same, passBack_same]
    rw [show { t.up c with extraEcode := (s.up c).extraEcode } = t.up c by rw [h.upCode c]]
      at hsame
    exact hsame
  · push Not at hnull
    obtain ⟨hi, hin, hout⟩ := hnull
    obtain ⟨i, rfl⟩ := Option.ne_none_iff_exists'.1 hin
    obtain ⟨o, rfl⟩ := Option.ne_none_iff_exists'.1 hout
    obtain ⟨hnone, -⟩ | ⟨a, d, ha, hd, hinternal⟩ := h.shares.both (.inl c)
    · exact absurd hnone hi
    obtain ⟨internal, ht, rfl⟩ := Option.map_eq_some_iff.1 hd
    cases hok : is8KhzUpdPacketOk (t.packet i).toUpdHeader with
    | true =>
      obtain ⟨w', hcall, hpackets, hscratch, hdelay, hspares⟩ :=
        mSrcUp_accepted (o := o) h.shares.packets h.shares.scratch ha hinternal hok
      have hr : r = _ := mSrcUp_of_ok (t.packet i) (t.packet o) ht hok
      refine ⟨_, by rw [hcall, hr]; rfl, keeps_up hspares.allocated c 0, ?_⟩
      rw [hr]
      refine h.up ?_ rfl
      rw [show ({ s.up c with extraEcode := 0 } : Master ι).internal = internals s (.inl c) from rfl,
        Function.update_eq_self]
      exact h.shares.process ha hpackets hscratch hdelay hspares
    | false =>
      have hr : r = _ := mSrcUp_of_not_ok (t.packet i) (t.packet o) ht hok
      refine ⟨_, by rw [mSrcUp_rejected h.shares.packets ha hok, hr]; rfl, keeps_up rfl c _, ?_⟩
      rw [hr]
      have hback : passBack (passBack t.packet (some i) (some (t.packet i))) (some o)
          (some (t.packet o)) = t.packet :=
        (congrArg (fun p => passBack p (some o) (some (t.packet o)))
          (passBack_same t.packet (some i))).trans (passBack_same t.packet (some o))
      dsimp only
      rw [hback]
      exact h.up_same c (lUpdGenerateExtraEcode32 (t.packet i)).1

theorem mSrcDown_null {w : World κ ι} {master : Master ι} {i o : Option κ}
    (h : master.internal = none ∨ i = none ∨ o = none) :
    SampleRateMemory.mSrcDown w master i o = some (eMSrcNullPointer, master, w) := by
  unfold SampleRateMemory.mSrcDown
  split
  · simp_all
  · rfl

theorem value_mSrcDown_null {master : MSrcDownData} {i o : Option (UpdPacket updMaxPayloadSize16)}
    (h : master.internal = none ∨ i = none ∨ o = none) :
    SampleRate.mSrcDown master i o = ⟨eMSrcNullPointer, master, i, o⟩ := by
  unfold SampleRate.mSrcDown
  split
  · simp_all
  · rfl

theorem step_down (h : Shows kept s t) (c : μ) (i o : Option κ) :
    let r := SampleRate.mSrcDown (t.down c) (i.map t.packet) (o.map t.packet)
    ∃ s', (SampleRateMemory.mSrcDown s.world (s.down c) i o).map (s.ofDown c) =
        some (s', r.ecode) ∧
      Keeps s s' ∧ Shows kept s' { t with
        packet := passBack (passBack t.packet i r.updIn) o r.updOut
        down := Function.update t.down c r.master } := by
  intro r
  by_cases hnull : (s.down c).internal = none ∨ i = none ∨ o = none
  · have hr : r = ⟨eMSrcNullPointer, t.down c, i.map t.packet, o.map t.packet⟩ := by
      refine value_mSrcDown_null (hnull.imp (fun hi => ?_) fun h => ?_)
      · have hnone : (internals s (.inr c)).isSome = false := by
          rw [internals, Sum.elim_inr, hi]
          rfl
        rw [h.shares.initialised] at hnone
        simpa [delays] using hnone
      · exact h.imp (fun h => by rw [h]; rfl) fun h => by rw [h]; rfl
    have hsame := h.down_same c (s.down c).extraEcode
    refine ⟨_, by rw [mSrcDown_null hnull, hr]; rfl, keeps_down rfl c (s.down c).extraEcode, ?_⟩
    rw [hr, passBack_same, passBack_same]
    rw [show { t.down c with extraEcode := (s.down c).extraEcode } = t.down c by
      rw [h.downCode c]] at hsame
    exact hsame
  · push Not at hnull
    obtain ⟨hi, hin, hout⟩ := hnull
    obtain ⟨i, rfl⟩ := Option.ne_none_iff_exists'.1 hin
    obtain ⟨o, rfl⟩ := Option.ne_none_iff_exists'.1 hout
    obtain ⟨hnone, -⟩ | ⟨a, d, ha, hd, hinternal⟩ := h.shares.both (.inr c)
    · exact absurd hnone hi
    obtain ⟨internal, ht, rfl⟩ := Option.map_eq_some_iff.1 hd
    have hback : passBack t.packet (some i) (some (t.packet i)) = t.packet :=
      passBack_same t.packet (some i)
    cases hok : is16KhzUpdPacketOk (t.packet i).toUpdHeader with
    | true =>
      obtain ⟨w', hcall, hpackets, hscratch, hdelay, hspares⟩ :=
        mSrcDown_accepted (o := o) h.shares.packets h.shares.scratch ha hinternal hok
      have hr : r = _ := mSrcDown_of_ok (t.packet i) (t.packet o) ht hok
      refine ⟨_, by rw [hcall, hr]; rfl, keeps_down hspares.allocated c 0, ?_⟩
      rw [hr]
      dsimp only
      rw [hback]
      refine h.down ?_ rfl
      rw [show ({ s.down c with extraEcode := 0 } : Master ι).internal = internals s (.inr c) from
        rfl, Function.update_eq_self]
      exact h.shares.process ha hpackets hscratch hdelay hspares
    | false =>
      have hr : r = _ := mSrcDown_of_not_ok (t.packet i) (t.packet o) ht hok
      refine ⟨_, by rw [mSrcDown_rejected h.shares.packets ha hok, hr]; rfl, keeps_down rfl c _, ?_⟩
      rw [hr]
      have hboth : passBack t.packet (some o) (some (t.packet o)) = t.packet :=
        passBack_same t.packet (some o)
      dsimp only
      rw [hback, hboth]
      exact h.down_same c (lUpdGenerateExtraEcode32 (t.packet i)).1

theorem upScratch :
    (lScratchGetBuffer lScratchIdSrcC6x (BitVec.ofNat 16 dlineScratchSize16)).buffer =
      some ⟨srcScratch, 0⟩ := by decide

theorem downScratch : (lScratchGetBuffer lScratchIdSrcC6x
    (BitVec.ofNat 16 (dlineScratchSize16 + outvecScratchSize16))).buffer =
      some ⟨srcScratch, 0⟩ := by decide

theorem gains_up {fresh : List ι → ι} (hfresh : ∀ l, fresh l ∉ l) (s : Converters κ ι μ) (c : μ)
    (m' : Master ι) {d : List Sint16} {a : Internal ι}
    (ha : a.delaybuffer = fresh s.world.allocated) (hm : m'.internal = some a) :
    Gains s { s with
      world := (s.world.malloc fresh d).2
      up := Function.update s.up c m' } (.inl c) a where
  fresh := ha ▸ hfresh _
  allocated := ha ▸ rfl
  others y hy := by rw [internals_up, Function.update_of_ne hy]
  gained := by rw [internals_up, Function.update_self, hm]

theorem gains_down {fresh : List ι → ι} (hfresh : ∀ l, fresh l ∉ l) (s : Converters κ ι μ) (c : μ)
    (m' : Master ι) {d : List Sint16} {a : Internal ι}
    (ha : a.delaybuffer = fresh s.world.allocated) (hm : m'.internal = some a) :
    Gains s { s with
      world := (s.world.malloc fresh d).2
      down := Function.update s.down c m' } (.inr c) a where
  fresh := ha ▸ hfresh _
  allocated := ha ▸ rfl
  others y hy := by rw [internals_down, Function.update_of_ne hy]
  gained := by rw [internals_down, Function.update_self, hm]

theorem step_upInit {fresh : List ι → ι} (hfresh : ∀ l, fresh l ∉ l) (h : Shows kept s t) (c : μ)
    (d : Buffer Sint16 delayBufUpSize16) :
    let r := SampleRate.mSrcUpInit (t.up c) d
    let s' := (s.ofUp c (SampleRateMemory.mSrcUpInit fresh s.world (s.up c) d)).1
    (SampleRateMemory.mSrcUpInit fresh s.world (s.up c) d).1 = r.1 ∧ (∃ a, Gains s s' (.inl c) a) ∧
      Shows kept s' { t with up := Function.update t.up c r.2 } := by
  intro r s'
  have hinit : SampleRateMemory.mSrcUpInit fresh s.world (s.up c) d = (eaNoErrors,
      { s.up c with internal := some ⟨fresh s.world.allocated, some ⟨srcScratch, 0⟩⟩ },
      (s.world.malloc fresh d.cells).2) := by
    simp only [SampleRateMemory.mSrcUpInit, mSrcInit, upScratch]
    rfl
  have hs' : s' = { s with
      world := (s.world.malloc fresh d.cells).2
      up := Function.update s.up c { s.up c with
        internal := some ⟨fresh s.world.allocated, some ⟨srcScratch, 0⟩⟩ } } := by
    rw [show s' = (s.ofUp c _).1 from rfl, hinit]
    rfl
  refine ⟨by rw [hinit]; rfl, ⟨_, hs' ▸ gains_up hfresh s c _ rfl rfl⟩, ?_⟩
  rw [hs']
  exact h.up (h.shares.init hfresh (.inl c) d.cells) (h.upCode c)

theorem step_downInit {fresh : List ι → ι} (hfresh : ∀ l, fresh l ∉ l) (h : Shows kept s t) (c : μ)
    (d : Buffer Sint16 delayBufDownSize16) :
    let r := SampleRate.mSrcDownInit (t.down c) d
    let s' := (s.ofDown c (SampleRateMemory.mSrcDownInit fresh s.world (s.down c) d)).1
    (SampleRateMemory.mSrcDownInit fresh s.world (s.down c) d).1 = r.1 ∧
      (∃ a, Gains s s' (.inr c) a) ∧
      Shows kept s' { t with down := Function.update t.down c r.2 } := by
  intro r s'
  have hinit : SampleRateMemory.mSrcDownInit fresh s.world (s.down c) d = (eaNoErrors,
      { s.down c with internal := some ⟨fresh s.world.allocated, some ⟨srcScratch, 0⟩⟩ },
      (s.world.malloc fresh d.cells).2) := by
    simp only [SampleRateMemory.mSrcDownInit, mSrcInit, downScratch]
    rfl
  have hs' : s' = { s with
      world := (s.world.malloc fresh d.cells).2
      down := Function.update s.down c { s.down c with
        internal := some ⟨fresh s.world.allocated, some ⟨srcScratch, 0⟩⟩ } } := by
    rw [show s' = (s.ofDown c _).1 from rfl, hinit]
    rfl
  refine ⟨by rw [hinit]; rfl, ⟨_, hs' ▸ gains_down hfresh s c _ rfl rfl⟩, ?_⟩
  rw [hs']
  exact h.down (h.shares.init hfresh (.inr c) d.cells) (h.downCode c)

theorem step_upRelease (h : Shows kept s t) (c : μ) :
    ∃ s', (mSrcRelease s.world (s.up c)).map (s.ofUp c) = some (s', (mSrcUpRelease (t.up c)).1) ∧
      (Keeps s s' ∨ ∃ a, Loses s s' (.inl c) a) ∧
      Shows kept s' { t with up := Function.update t.up c (mSrcUpRelease (t.up c)).2 } := by
  obtain ⟨hi, hd⟩ | ⟨a, d, ha, hd, -⟩ := h.shares.both (.inl c)
  · have hi' : (s.up c).internal = none := hi
    have ht : (t.up c).internal = none := Option.map_eq_none_iff.1 hd
    have hsame := h.up_same c (s.up c).extraEcode
    rw [show { t.up c with extraEcode := (s.up c).extraEcode } = t.up c by rw [h.upCode c]]
      at hsame
    refine ⟨_, by rw [mSrcRelease, hi', mSrcUpRelease, ht]; rfl,
      Or.inl (keeps_up rfl c (s.up c).extraEcode), ?_⟩
    rw [mSrcUpRelease, ht]
    exact hsame
  · have hi' : (s.up c).internal = some a := ha
    obtain ⟨internal, ht, -⟩ := Option.map_eq_some_iff.1 hd
    obtain ⟨w', hfree, hallocated, hshares⟩ := h.shares.release ha
    have hcall : mSrcRelease s.world (s.up c) =
        some (eaNoErrors, { s.up c with internal := none }, w') := by
      simp only [mSrcRelease, hi', hfree, Option.bind_eq_bind, Option.bind_some]
    refine ⟨_, by rw [hcall, mSrcUpRelease, ht]; rfl, Or.inr ⟨a, hallocated, fun y hy => ?_, ha, ?_⟩,
      ?_⟩
    · exact (congrFun (internals_up s c w' _) y).trans (Function.update_of_ne hy _ _)
    · exact (congrFun (internals_up s c w' _) (.inl c)).trans (Function.update_self _ _ _)
    · rw [mSrcUpRelease, ht]
      exact h.up hshares (h.upCode c)

theorem step_downRelease (h : Shows kept s t) (c : μ) :
    ∃ s', (mSrcRelease s.world (s.down c)).map (s.ofDown c) =
        some (s', (mSrcDownRelease (t.down c)).1) ∧
      (Keeps s s' ∨ ∃ a, Loses s s' (.inr c) a) ∧
      Shows kept s' { t with down := Function.update t.down c (mSrcDownRelease (t.down c)).2 } := by
  obtain ⟨hi, hd⟩ | ⟨a, d, ha, hd, -⟩ := h.shares.both (.inr c)
  · have hi' : (s.down c).internal = none := hi
    have ht : (t.down c).internal = none := Option.map_eq_none_iff.1 hd
    have hsame := h.down_same c (s.down c).extraEcode
    rw [show { t.down c with extraEcode := (s.down c).extraEcode } = t.down c by rw [h.downCode c]]
      at hsame
    refine ⟨_, by rw [mSrcRelease, hi', mSrcDownRelease, ht]; rfl,
      Or.inl (keeps_down rfl c (s.down c).extraEcode), ?_⟩
    rw [mSrcDownRelease, ht]
    exact hsame
  · have hi' : (s.down c).internal = some a := ha
    obtain ⟨internal, ht, -⟩ := Option.map_eq_some_iff.1 hd
    obtain ⟨w', hfree, hallocated, hshares⟩ := h.shares.release ha
    have hcall : mSrcRelease s.world (s.down c) =
        some (eaNoErrors, { s.down c with internal := none }, w') := by
      simp only [mSrcRelease, hi', hfree, Option.bind_eq_bind, Option.bind_some]
    refine ⟨_, by rw [hcall, mSrcDownRelease, ht]; rfl,
      Or.inr ⟨a, hallocated, fun y hy => ?_, ha, ?_⟩, ?_⟩
    · exact (congrFun (internals_down s c w' _) y).trans (Function.update_of_ne hy _ _)
    · exact (congrFun (internals_down s c w' _) (.inr c)).trans (Function.update_self _ _ _)
    · rw [mSrcDownRelease, ht]
      exact h.down hshares (h.downCode c)

/-- The call initialises a converter that is initialised. -/
def Reinitialises (t : Separate κ μ) : Call κ μ → Prop
  | .upInit c _ => (t.up c).internal ≠ none
  | .downInit c _ => (t.down c).internal ≠ none
  | _ => False

/-- One call on the shared memory follows the call on separate converters. -/
theorem step_shows {fresh : List ι → ι} (hfresh : ∀ l, fresh l ∉ l) (h : Shows kept s t)
    (hnodup : s.world.allocated.Nodup) (call : Call κ μ) :
    ∃ s', (converters fresh).step s call = some (s', (separate.step t call).2) ∧
      Shows kept s' (separate.step t call).1 ∧ s'.world.allocated.Nodup ∧
      (Leaks s' ↔ Leaks s ∨ Reinitialises t call) := by
  cases call with
  | fill packet content =>
    exact ⟨_, rfl, ⟨h.shares.fill packet content, h.upCode, h.downCode⟩, hnodup,
      iff_of_eq (or_false _).symm⟩
  | upInit c d =>
    obtain ⟨hcode, ⟨a, hgains⟩, hshows⟩ := step_upInit hfresh h c d
    refine ⟨_, congrArg (fun e => some (_, e)) hcode, hshows, hgains.nodup hnodup, ?_⟩
    exact (hgains.leaks_or h).trans (or_congr_right (not_congr Option.map_eq_none_iff))
  | up c i o =>
    obtain ⟨s', hstep, hkeeps, hshows⟩ := step_up h c i o
    exact ⟨s', hstep, hshows, hkeeps.allocated ▸ hnodup,
      hkeeps.leaks_iff.trans (iff_of_eq (or_false _).symm)⟩
  | upRelease c =>
    obtain ⟨s', hstep, hbooks, hshows⟩ := step_upRelease h c
    obtain ⟨hnodup', hleaks⟩ := released_books hbooks hnodup
    exact ⟨s', hstep, hshows, hnodup', hleaks.trans (iff_of_eq (or_false _).symm)⟩
  | downInit c d =>
    obtain ⟨hcode, ⟨a, hgains⟩, hshows⟩ := step_downInit hfresh h c d
    refine ⟨_, congrArg (fun e => some (_, e)) hcode, hshows, hgains.nodup hnodup, ?_⟩
    exact (hgains.leaks_or h).trans (or_congr_right (not_congr Option.map_eq_none_iff))
  | down c i o =>
    obtain ⟨s', hstep, hkeeps, hshows⟩ := step_down h c i o
    exact ⟨s', hstep, hshows, hkeeps.allocated ▸ hnodup,
      hkeeps.leaks_iff.trans (iff_of_eq (or_false _).symm)⟩
  | downRelease c =>
    obtain ⟨s', hstep, hbooks, hshows⟩ := step_downRelease h c
    obtain ⟨hnodup', hleaks⟩ := released_books hbooks hnodup
    exact ⟨s', hstep, hshows, hnodup', hleaks.trans (iff_of_eq (or_false _).symm)⟩

/-- By induction on the calls; what is carried along is that the memory shows the separate
converters and that it leaks only if one was initialised twice. -/
theorem run_shows {fresh : List ι → ι} (hfresh : ∀ l, fresh l ∉ l) (scratch : ScratchMemory)
    (packet : κ → UpdPacket updMaxPayloadSize16) (calls : List (Call κ μ)) :
    ∃ s, (converters fresh).run (Converters.initial scratch packet) calls =
        some (s, separate.outputs (Separate.initial packet) calls) ∧
      Shows (fun i => some (scratch i).cells) s (separate.after (Separate.initial packet) calls) ∧
      s.world.allocated.Nodup ∧
      (Leaks s ↔ separate.Occurs (Separate.initial packet) calls Reinitialises) := by
  refine FaultingMachine.run_of_simulation
    (R := fun is s t => Shows (fun i => some (scratch i).cells) s t ∧ s.world.allocated.Nodup ∧
      (Leaks s ↔ separate.Occurs (Separate.initial packet) is Reinitialises)) _ ?_ ?_ calls
  · refine ⟨shows_initial scratch packet, List.nodup_nil, iff_of_false ?_ ?_⟩
    · intro hleak
      obtain ⟨b, hb, -⟩ := hleak
      cases hb
    · exact Machine.not_occurs_nil _ _ _
  · intro is s call hr
    obtain ⟨hshows, hnodup, hleaks⟩ := hr
    obtain ⟨s', hstep, hshows', hnodup', hleaks'⟩ := step_shows hfresh hshows hnodup call
    refine ⟨s', hstep, hshows', hnodup', ?_⟩
    rw [hleaks', hleaks, Machine.occurs_concat]

end

section

variable {μ : Type} [DecidableEq κ] [DecidableEq ι] [DecidableEq μ]

/-- Calls on any number of converters over one scratch buffer, with any packet as input and
output: no call faults, each answers and fills the packets like a converter on its own, and the
other scratch buffers keep their contents. -/
theorem converters_refine_separate {fresh : List ι → ι} (hfresh : ∀ l, fresh l ∉ l)
    (scratch : ScratchMemory) (packet : κ → UpdPacket updMaxPayloadSize16)
    (calls : List (Call κ μ)) :
    let t := separate.after (Separate.initial packet) calls
    ∃ s, (converters fresh).run (Converters.initial scratch packet) calls =
        some (s, separate.outputs (Separate.initial packet) calls) ∧
      (∀ k, s.world.words (.payload k) = some (t.packet k).payload.cells ∧
        s.world.header k = (t.packet k).toUpdHeader ∧ s.world.padding k = (t.packet k).padding) ∧
      (∀ c, (s.up c).extraEcode = (t.up c).extraEcode ∧
        (s.down c).extraEcode = (t.down c).extraEcode) ∧
      ∀ i, i ≠ srcScratch → s.world.words (.scratch i) = some (scratch i).cells := by
  intro t
  obtain ⟨s, hrun, hshows, -⟩ := run_shows hfresh scratch packet calls
  obtain ⟨hpayload, hheader, hpadding⟩ := hshows.shares.packets
  exact ⟨s, hrun, fun k => ⟨hpayload k, hheader k, hpadding k⟩,
    fun c => ⟨hshows.upCode c, hshows.downCode c⟩, hshows.shares.scratches⟩

/-- Memory leaks in a run exactly if a converter is initialised while it is initialised. -/
theorem leaks_iff_reinitialised {fresh : List ι → ι} (hfresh : ∀ l, fresh l ∉ l)
    (scratch : ScratchMemory) (packet : κ → UpdPacket updMaxPayloadSize16)
    (calls : List (Call κ μ)) :
    ∃ s answers, (converters fresh).run (Converters.initial scratch packet) calls =
        some (s, answers) ∧
      (Leaks s ↔ separate.Occurs (Separate.initial packet) calls Reinitialises) := by
  obtain ⟨s, hrun, -, -, hleaks⟩ := run_shows hfresh scratch packet calls
  exact ⟨s, _, hrun, hleaks⟩

end

/-- The first address above all that are in use. -/
def above (blocks : List Nat) : Nat := blocks.foldr max 0 + 1

theorem above_not_mem (blocks : List Nat) : above blocks ∉ blocks := by
  have hle : ∀ b ∈ blocks, b ≤ blocks.foldr max 0 := by
    intro b hb
    induction blocks with
    | nil => cases hb
    | cons c blocks ih =>
      rcases List.mem_cons.1 hb with rfl | hb
      · exact Nat.le_max_left _ _
      · exact (ih hb).trans (Nat.le_max_right _ _)
  exact fun hmem => absurd (hle _ hmem) (Nat.not_succ_le_self _)

/-- A packet brought to 16 kHz and back in place, by converters initialised twice. -/
def inPlaceCalls : List (Call Unit Unit) :=
  [.upInit () (Buffer.replicate _ 7), .downInit () (Buffer.replicate _ 7), .up () (some ()) (some ()),
    .down () (some ()) (some ()), .upInit () (Buffer.replicate _ 0), .upRelease ()]

theorem converters_refine_separate_inPlace :
    let t := separate.after (Separate.initial fun _ => UpdPacket.zero _) inPlaceCalls
    ∃ s, (converters above).run (Converters.initial (fun _ => Buffer.replicate _ 5) fun _ =>
        UpdPacket.zero _) inPlaceCalls =
        some (s, separate.outputs (Separate.initial fun _ => UpdPacket.zero _) inPlaceCalls) ∧
      (∀ k, s.world.words (.payload k) = some (t.packet k).payload.cells ∧
        s.world.header k = (t.packet k).toUpdHeader ∧ s.world.padding k = (t.packet k).padding) ∧
      (∀ c, (s.up c).extraEcode = (t.up c).extraEcode ∧
        (s.down c).extraEcode = (t.down c).extraEcode) ∧
      ∀ i, i ≠ srcScratch → s.world.words (.scratch i) =
        some (Buffer.replicate (scratchData i).size16 5).cells :=
  converters_refine_separate above_not_mem _ _ inPlaceCalls

theorem leaks_iff_reinitialised_inPlace :
    ∃ s answers, (converters above).run (Converters.initial (fun _ => Buffer.replicate _ 5) fun _ =>
        UpdPacket.zero _) inPlaceCalls = some (s, answers) ∧
      (Leaks s ↔ separate.Occurs (Separate.initial fun _ => UpdPacket.zero _) inPlaceCalls
        Reinitialises) :=
  leaks_iff_reinitialised above_not_mem _ _ inPlaceCalls

end RtpServer.Verify.SharedConverters
