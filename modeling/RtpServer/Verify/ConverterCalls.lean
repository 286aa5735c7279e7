import RtpServer.Verify.ConverterWords

/-!
# Converter calls on shared memory

The packets, the scratch buffer and the delay lines stay where they are and keep their sizes:
each call changes one delay line, the scratch buffer and the packets it is given.
-/
namespace RtpServer.Verify.ConverterCalls

open RtpServer.Library RtpServer.Library.Memory RtpServer.Source RtpServer.Source.TypeDef
open RtpServer.Source.Upd RtpServer.Source.Scratch RtpServer.Source.SampleRate
open RtpServer.Source.SampleRateMemory RtpServer.Verify.Resampler
open RtpServer.Verify.ConverterWords

variable {κ ι : Type}

/-- The packets in memory. -/
structure HasPackets (w : World κ ι) (packet : κ → UpdPacket updMaxPayloadSize16) : Prop where
  payload : ∀ k, w.words (.payload k) = some (packet k).payload.cells
  header : ∀ k, w.header k = (packet k).toUpdHeader
  padding : ∀ k, w.padding k = (packet k).padding

def HasScratch (w : World κ ι) : Prop :=
  w.words.Fits ⟨.scratch srcScratch, 0⟩ (dlineScratchSize16 + outvecScratchSize16)

/-- The structure of an initialised converter and what its delay line holds. -/
structure HasInternal (w : World κ ι) (internal : Internal ι) (delay : List Sint16) : Prop where
  scratch : internal.scratch = some ⟨srcScratch, 0⟩
  delaybuffer : w.words (.delaybuffer internal.delaybuffer) = some delay

/-- What a call on the converter with the delay line `b` leaves alone. -/
structure Spares (w w' : World κ ι) (b : ι) : Prop where
  delaybuffers : ∀ c, c ≠ b → w'.words (.delaybuffer c) = w.words (.delaybuffer c)
  scratches : ∀ i, i ≠ srcScratch → w'.words (.scratch i) = w.words (.scratch i)
  allocated : w'.allocated = w.allocated

theorem spares_of_others {w w' : World κ ι} {b : ι}
    (h : ∀ r, (∀ k, r ≠ .payload k) → r ≠ .scratch srcScratch → r ≠ .delaybuffer b →
      w'.words r = w.words r) (hallocated : w'.allocated = w.allocated) : Spares w w' b where
  delaybuffers c hc := h _ (by simp) (by simp) (by simpa using hc)
  scratches c hc := h _ (by simp) (by simpa using hc) (by simp)
  allocated := hallocated

section

variable [DecidableEq κ] {w : World κ ι} {master : Master ι} {internal : Internal ι}
  {packet : κ → UpdPacket updMaxPayloadSize16} {i o : κ}

theorem setPcmHeader_eq (w : World κ ι) (i o : κ) (form : BitVec 4) :
    setPcmHeader w i o form = { w with
      header := Function.update w.header o
        ⟨updCodecPcm, updTypeSpeechGood, (w.header i).mode, form⟩ } := by
  have hmode : ∀ (h : κ → UpdHeader) (c t : BitVec 4),
      (Function.update h o ⟨c, t, (h o).mode, (h o).form⟩ i).mode = (h i).mode := by
    intro h c t
    by_cases hi : i = o
    · rw [hi, Function.update_self]
    · rw [Function.update_of_ne hi]
  simp only [setPcmHeader, World.setHeader, Function.update_self, Function.update_idem, hmode]

theorem extraEcodeOf_eq (hp : HasPackets w packet) (i : κ) :
    extraEcodeOf w i = ((lUpdGenerateExtraEcode32 (packet i)).1, w) := by
  have hcode : ∀ {n k : Nat} (p : UpdPacket n) (q : UpdPacket k), p.toUpdHeader = q.toUpdHeader →
      p.padding = q.padding →
        (lUpdGenerateExtraEcode32 p).1 = (lUpdGenerateExtraEcode32 q).1 := by
    intro n k p q hheader hpadding
    simp only [lUpdGenerateExtraEcode32, hheader, hpadding]
  simp only [extraEcodeOf, lUpdGenerateExtraEcode32_snd, World.setHeader,
    Function.update_eq_self]
  rw [hcode _ (packet i) (hp.header i) (hp.padding i)]

/-- The converted packet, whether or not it is the one that was converted. -/
theorem hasPackets_converted {m : Words κ ι} {new : List Sint16} {h : UpdHeader}
    {passed : κ → UpdPacket updMaxPayloadSize16} (hp : HasPackets w packet)
    (hm : ∀ k, k ≠ o → m (.payload k) = some (passed k).payload.cells)
    (ho : m (.payload o) = some (Buffer.blit (packet o).payload.cells 0 new))
    (hheader : ∀ k, (passed k).toUpdHeader = (packet k).toUpdHeader)
    (hpadding : ∀ k, (passed k).padding = (packet k).padding) :
    HasPackets { w with words := m, header := Function.update w.header o h }
      (Function.update passed o
        { packet o with toUpdHeader := h, payload := (packet o).payload.write 0 new }) := by
  constructor
  · intro k
    by_cases hk : k = o
    · subst hk
      rw [Function.update_self]
      exact ho
    · rw [Function.update_of_ne hk]
      exact hm k hk
  · intro k
    dsimp only
    by_cases hk : k = o
    · subst hk
      rw [Function.update_self, Function.update_self]
    · rw [Function.update_of_ne hk, Function.update_of_ne hk, hp.header, hheader]
  · intro k
    by_cases hk : k = o
    · subst hk
      rw [Function.update_self]
      exact hp.padding k
    · rw [Function.update_of_ne hk, hpadding]
      exact hp.padding k

variable [DecidableEq ι]

theorem mSrcUp_accepted (hp : HasPackets w packet) (hs : HasScratch w)
    (hi : master.internal = some internal) {d : Buffer Sint16 delayBufUpSize16}
    (hd : HasInternal w internal d.cells) (hok : is8KhzUpdPacketOk (packet i).toUpdHeader = true) :
    let r := upsample ⟨d⟩ (scaledDown (packet i)).payload.cells
      (lUpdGetPcmSizeSamples (packet i).mode)
    ∃ w', SampleRateMemory.mSrcUp w master (some i) (some o) =
        some (eaNoErrors, { master with extraEcode := 0 }, w') ∧
      HasPackets w' (Function.update (Function.update packet i (scaledDown (packet i))) o
        { packet o with
          toUpdHeader := ⟨updCodecPcm, updTypeSpeechGood, (packet i).mode, updFormPcmLinear16Khz⟩
          payload := (packet o).payload.write 0 r.2 }) ∧
      HasScratch w' ∧ HasInternal w' internal r.1.delaybuffer.cells ∧
      Spares w w' internal.delaybuffer := by
  intro r
  obtain ⟨extra, internal'⟩ := master
  obtain rfl : internal' = some internal := hi
  obtain ⟨hmode, -⟩ := of_ok08 hok
  obtain ⟨hlow, hhigh⟩ := hmode.size_bounds
  have hxlen : (packet i).payload.cells.length = 480 := (packet i).payload.size_eq
  have holen : (packet o).payload.cells.length = 480 := (packet o).payload.size_eq
  have hfits : w.words.Fits (lUpdGetPayload o)
      (2 * lUpdGetPcmSizeSamples (packet i).mode) :=
    ⟨_, hp.payload o, by rw [holen, lUpdGetPayload]; dsimp only; omega⟩
  have hscratch : w.words.Fits ⟨.scratch srcScratch, 0⟩
      (71 + 2 * lUpdGetPcmSizeSamples (packet i).mode) :=
    hs.mono (show _ ≤ 1032 by omega)
  have hwords := upWords_eq (hp.payload i) hfits hscratch hd.delaybuffer d.size_eq
    (show 35 ≤ _ by omega) (hxlen ▸ hhigh.trans (by decide)) fun m =>
      some (eaNoErrors, (⟨0, some internal⟩ : Master ι),
        setPcmHeader { w with words := m } i o updFormPcmLinear16Khz)
  refine ⟨{ w with
    words := upWords w.words i o internal.delaybuffer (packet i).payload.cells d.cells
      (lUpdGetPcmSizeSamples (packet i).mode)
    header := Function.update w.header o
      ⟨updCodecPcm, updTypeSpeechGood, (packet i).mode, updFormPcmLinear16Khz⟩ }, ?_, ?_, ?_, ?_, ?_⟩
  · simp only [SampleRateMemory.mSrcUp, hp.header, hok, if_true, hd.scratch, Option.map_some]
    refine (bind_of_some rfl _).trans (hwords.trans ?_)
    rw [setPcmHeader_eq, hp.header]
  · refine hasPackets_converted hp (fun k hk => ?_)
      (upWords_out (hp.payload i) (hp.payload o) (by rw [hxlen]; omega) (by rw [holen]; omega))
      (fun k => ?_) fun k => ?_
    · rw [upWords_payload (hp.payload i) hk]
      by_cases hi : k = i
      · rw [hi, if_pos rfl, Function.update_self]
        rfl
      · rw [if_neg hi, Function.update_of_ne hi, hp.payload]
    · by_cases hi : k = i
      · rw [hi, Function.update_self]
        rfl
      · rw [Function.update_of_ne hi]
    · by_cases hi : k = i
      · rw [hi, Function.update_self]
        rfl
      · rw [Function.update_of_ne hi]
  · exact hs.put.put.put.put
  · exact ⟨hd.scratch, upWords_delaybuffer (o := o) hd.delaybuffer⟩
  · exact spares_of_others (fun r => upWords_others) rfl

theorem mSrcDown_accepted (hp : HasPackets w packet) (hs : HasScratch w)
    (hi : master.internal = some internal) {d : Buffer Sint16 delayBufDownSize16}
    (hd : HasInternal w internal d.cells) (hok : is16KhzUpdPacketOk (packet i).toUpdHeader = true) :
    let r := downsample ⟨d⟩ (packet i).payload.cells (lUpdGetPcmSizeSamples (packet i).mode)
    ∃ w', SampleRateMemory.mSrcDown w master (some i) (some o) =
        some (eaNoErrors, { master with extraEcode := 0 }, w') ∧
      HasPackets w' (Function.update packet o { packet o with
        toUpdHeader := ⟨updCodecPcm, updTypeSpeechGood, (packet i).mode, updFormPcmLinear08Khz⟩
        payload := (packet o).payload.write 0 r.2 }) ∧
      HasScratch w' ∧ HasInternal w' internal r.1.delaybuffer.cells ∧
      Spares w w' internal.delaybuffer := by
  intro r
  obtain ⟨extra, internal'⟩ := master
  obtain rfl : internal' = some internal := hi
  obtain ⟨hmode, -⟩ := of_ok16 hok
  obtain ⟨hlow, hhigh⟩ := hmode.size_bounds
  have hxlen : (packet i).payload.cells.length = 480 := (packet i).payload.size_eq
  have holen : (packet o).payload.cells.length = 480 := (packet o).payload.size_eq
  have hfits : w.words.Fits (lUpdGetPayload o) (lUpdGetPcmSizeSamples (packet i).mode) :=
    ⟨_, hp.payload o, by rw [holen, lUpdGetPayload]; dsimp only; omega⟩
  have hwords := downWords_eq (hp.payload i) hfits hs hd.delaybuffer d.size_eq
    (show 36 ≤ _ by omega) hhigh (by rw [hxlen, size8KhzTo16Khz]; omega) fun m =>
      some (eaNoErrors, (⟨0, some internal⟩ : Master ι),
        setPcmHeader { w with words := m } i o updFormPcmLinear08Khz)
  refine ⟨{ w with
    words := downWords w.words o internal.delaybuffer (packet i).payload.cells d.cells
      (lUpdGetPcmSizeSamples (packet i).mode)
    header := Function.update w.header o
      ⟨updCodecPcm, updTypeSpeechGood, (packet i).mode, updFormPcmLinear08Khz⟩ }, ?_, ?_, ?_, ?_, ?_⟩
  · simp only [SampleRateMemory.mSrcDown, hp.header, hok, if_true, hd.scratch, Option.map_some]
    refine (bind_of_some rfl _).trans (hwords.trans ?_)
    rw [setPcmHeader_eq, hp.header]
  · refine hasPackets_converted hp (fun k hk => ?_) (downWords_out (hp.payload o))
      (fun _ => rfl) fun _ => rfl
    rw [downWords_payload hk, hp.payload]
  · exact hs.put.put.put.put.put
  · exact ⟨hd.scratch, downWords_delaybuffer (o := o) hd.delaybuffer⟩
  · exact spares_of_others (fun r => downWords_others) rfl

theorem mSrcUp_rejected (hp : HasPackets w packet) (hi : master.internal = some internal)
    (hok : is8KhzUpdPacketOk (packet i).toUpdHeader = false) :
    SampleRateMemory.mSrcUp w master (some i) (some o) = some (eMSrcUpUpdIn,
      { master with extraEcode := (lUpdGenerateExtraEcode32 (packet i)).1 }, w) := by
  have hextra := extraEcodeOf_eq hp i
  simp only [SampleRateMemory.mSrcUp, hi, hp.header, hok, Bool.false_eq_true, if_false, hextra]

theorem mSrcDown_rejected (hp : HasPackets w packet) (hi : master.internal = some internal)
    (hok : is16KhzUpdPacketOk (packet i).toUpdHeader = false) :
    SampleRateMemory.mSrcDown w master (some i) (some o) = some (eMSrcDownUpdIn,
      { master with extraEcode := (lUpdGenerateExtraEcode32 (packet i)).1 }, w) := by
  have hextra := extraEcodeOf_eq hp i
  simp only [SampleRateMemory.mSrcDown, hi, hp.header, hok, Bool.false_eq_true, if_false, hextra]

end

/-- Converters `θ` with their structures in the shared memory; `kept` is what the scratch
buffers of others hold. -/
structure Shares {θ : Type} (kept : Fin numScratchBuffs → Option (List Sint16)) (w : World κ ι)
    (internal : θ → Option (Internal ι)) (packet : κ → UpdPacket updMaxPayloadSize16)
    (delay : θ → Option (List Sint16)) : Prop where
  packets : HasPackets w packet
  scratch : HasScratch w
  scratches : ∀ i, i ≠ srcScratch → w.words (.scratch i) = kept i
  initialised : ∀ x, (internal x).isSome = (delay x).isSome
  holds : ∀ x a d, internal x = some a → delay x = some d → HasInternal w a d
  live : ∀ x a, internal x = some a → a.delaybuffer ∈ w.allocated
  unshared : ∀ x y a b, internal x = some a → internal y = some b →
    a.delaybuffer = b.delaybuffer → x = y

namespace Shares

variable {θ : Type} {kept : Fin numScratchBuffs → Option (List Sint16)} {w w' : World κ ι}
  {internal : θ → Option (Internal ι)} {packet packet' : κ → UpdPacket updMaxPayloadSize16}
  {delay : θ → Option (List Sint16)} {x : θ} {a : Internal ι} {d : List Sint16}

/-- A converter is initialised on both sides or on neither. -/
theorem both (h : Shares kept w internal packet delay) (x : θ) :
    (internal x = none ∧ delay x = none) ∨
      ∃ a d, internal x = some a ∧ delay x = some d ∧ HasInternal w a d := by
  have hsome := h.initialised x
  cases ha : internal x with
  | none =>
    rw [ha] at hsome
    exact Or.inl ⟨rfl, Option.isSome_eq_false_iff.1 hsome.symm |> Option.isNone_iff_eq_none.1⟩
  | some a =>
    rw [ha] at hsome
    obtain ⟨d, hd⟩ := Option.isSome_iff_exists.1 hsome.symm
    exact Or.inr ⟨a, d, rfl, hd, h.holds x a d ha hd⟩

section

variable [DecidableEq κ] [DecidableEq ι]

theorem fill_words (w : World κ ι) (k : κ) (content : UpdPacket updMaxPayloadSize16) :
    (w.fill k content).words = w.words.put (lUpdGetPayload k) content.payload.cells := rfl

theorem fill (h : Shares kept w internal packet delay) (k : κ)
    (content : UpdPacket updMaxPayloadSize16) :
    Shares kept (w.fill k content) internal (Function.update packet k content) delay where
  packets := by
    have hlen : content.payload.cells.length = (packet k).payload.cells.length :=
      content.payload.size_eq.trans (packet k).payload.size_eq.symm
    constructor
    · intro j
      by_cases hj : j = k
      · subst hj
        rw [Function.update_self, fill_words, put_payload (h.packets.payload j),
          Buffer.blit_zero_of_length_eq _ hlen]
      · rw [Function.update_of_ne hj, fill_words, put_of_ne (by simp [lUpdGetPayload, hj])]
        exact h.packets.payload j
    · intro j
      dsimp only [World.fill]
      by_cases hj : j = k
      · subst hj
        rw [Function.update_self, Function.update_self]
      · rw [Function.update_of_ne hj, Function.update_of_ne hj, h.packets.header]
    · intro j
      dsimp only [World.fill]
      by_cases hj : j = k
      · subst hj
        rw [Function.update_self, Function.update_self]
      · rw [Function.update_of_ne hj, Function.update_of_ne hj, h.packets.padding]
  scratch := h.scratch.put
  scratches i hi := by
    rw [fill_words, put_of_ne (by simp [lUpdGetPayload])]
    exact h.scratches i hi
  initialised := h.initialised
  holds x a d ha hd := by
    obtain ⟨hscratch, hdelay⟩ := h.holds x a d ha hd
    refine ⟨hscratch, ?_⟩
    rw [fill_words, put_of_ne (by simp [lUpdGetPayload])]
    exact hdelay
  live := h.live
  unshared := h.unshared

/-- A delay line stored or removed leaves everything else as it was. -/
theorem update_delaybuffer (h : Shares kept w internal packet delay) (w' : World κ ι) {b : ι}
    {v : Option (List Sint16)}
    (hw : w'.words = Function.update w.words (.delaybuffer b) v) (hheader : w'.header = w.header)
    (hpadding : w'.padding = w.padding) :
    HasPackets w' packet ∧ HasScratch w' ∧ (∀ i, i ≠ srcScratch → w'.words (.scratch i) = kept i) ∧
      ∀ c, c ≠ b → w'.words (.delaybuffer c) = w.words (.delaybuffer c) := by
  have hne : ∀ r, r ≠ Region.delaybuffer b → w'.words r = w.words r := fun r hr => by
    rw [hw, Function.update_of_ne hr]
  refine ⟨⟨fun k => (hne _ (by simp)).trans (h.packets.payload k), fun k => ?_, fun k => ?_⟩, ?_,
    fun i hi => (hne _ (by simp)).trans (h.scratches i hi), fun c hc => hne _ (by simpa using hc)⟩
  · rw [hheader, h.packets.header]
  · rw [hpadding, h.packets.padding]
  · obtain ⟨cells, hcells, hroom⟩ := h.scratch
    exact ⟨cells, (hne _ (by simp)).trans hcells, hroom⟩

end

variable [DecidableEq θ]

/-- A call on the converter `x` that gave it the delay line `d`. -/
theorem process (h : Shares kept w internal packet delay) (ha : internal x = some a)
    (hp : HasPackets w' packet') (hs : HasScratch w') (hd : HasInternal w' a d)
    (hspares : Spares w w' a.delaybuffer) :
    Shares kept w' internal packet' (Function.update delay x (some d)) where
  packets := hp
  scratch := hs
  scratches i hi := (hspares.scratches i hi).trans (h.scratches i hi)
  initialised y := by
    by_cases hy : y = x
    · rw [hy, ha, Function.update_self]
      rfl
    · rw [Function.update_of_ne hy, h.initialised]
  holds y b e hb he := by
    by_cases hy : y = x
    · subst hy
      obtain rfl := Option.some.inj (ha.symm.trans hb)
      rw [Function.update_self] at he
      exact Option.some.inj he ▸ hd
    · rw [Function.update_of_ne hy] at he
      obtain ⟨hscratch, hdelay⟩ := h.holds y b e hb he
      refine ⟨hscratch, (hspares.delaybuffers _ fun heq => hy ?_).trans hdelay⟩
      exact h.unshared y x b a hb ha heq
  live y b hb := hspares.allocated ▸ h.live y b hb
  unshared := h.unshared

theorem initialised_update (h : Shares kept w internal packet delay) {b : Option (Internal ι)}
    {e : Option (List Sint16)} (hsome : b.isSome = e.isSome) (x y : θ) :
    (Function.update internal x b y).isSome = (Function.update delay x e y).isSome := by
  by_cases hy : y = x
  · rw [hy, Function.update_self, Function.update_self, hsome]
  · rw [Function.update_of_ne hy, Function.update_of_ne hy, h.initialised]

variable [DecidableEq κ] [DecidableEq ι]

theorem init (h : Shares kept w internal packet delay) {fresh : List ι → ι}
    (hfresh : ∀ l, fresh l ∉ l) (x : θ) (d : List Sint16) :
    Shares kept (w.malloc fresh d).2
      (Function.update internal x (some ⟨fresh w.allocated, some ⟨srcScratch, 0⟩⟩)) packet
      (Function.update delay x (some d)) := by
  obtain ⟨hp, hs, hscratches, hothers⟩ :=
    h.update_delaybuffer (w.malloc fresh d).2 rfl rfl rfl
  have hold : ∀ y a, internal y = some a → a.delaybuffer ≠ fresh w.allocated := fun y a ha he =>
    hfresh w.allocated (he ▸ h.live y a ha)
  refine ⟨hp, hs, hscratches, h.initialised_update rfl x, fun y b e hb he => ?_, fun y b hb => ?_,
    fun y z b c hb hc he => ?_⟩
  · by_cases hy : y = x
    · rw [hy, Function.update_self] at hb he
      obtain rfl := Option.some.inj hb
      obtain rfl := Option.some.inj he
      exact ⟨rfl, Function.update_self _ _ _⟩
    · rw [Function.update_of_ne hy] at hb he
      obtain ⟨hscratch, hdelay⟩ := h.holds y b e hb he
      exact ⟨hscratch, (hothers _ (hold y b hb)).trans hdelay⟩
  · by_cases hy : y = x
    · rw [hy, Function.update_self] at hb
      obtain rfl := Option.some.inj hb
      exact List.mem_cons_self
    · rw [Function.update_of_ne hy] at hb
      exact List.mem_cons_of_mem _ (h.live y b hb)
  · by_cases hy : y = x <;> by_cases hz : z = x
    · rw [hy, hz]
    · rw [hy, Function.update_self] at hb
      rw [Function.update_of_ne hz] at hc
      obtain rfl := Option.some.inj hb
      exact absurd he.symm (hold z c hc)
    · rw [hz, Function.update_self] at hc
      rw [Function.update_of_ne hy] at hb
      obtain rfl := Option.some.inj hc
      exact absurd he (hold y b hb)
    · rw [Function.update_of_ne hy] at hb
      rw [Function.update_of_ne hz] at hc
      exact h.unshared y z b c hb hc he

theorem release (h : Shares kept w internal packet delay) (ha : internal x = some a) :
    ∃ w', w.free a.delaybuffer = some w' ∧ w'.allocated = w.allocated.erase a.delaybuffer ∧
      Shares kept w' (Function.update internal x none) packet (Function.update delay x none) := by
  refine ⟨_, if_pos (h.live x a ha), rfl, ?_⟩
  obtain ⟨hp, hs, hscratches, hothers⟩ := h.update_delaybuffer (b := a.delaybuffer) (v := none)
    { w with
      words := Function.update w.words (.delaybuffer a.delaybuffer) none
      allocated := w.allocated.erase a.delaybuffer } rfl rfl rfl
  have hother : ∀ y b, y ≠ x → internal y = some b → b.delaybuffer ≠ a.delaybuffer :=
    fun y b hy hb he => hy (h.unshared y x b a hb ha he)
  refine ⟨hp, hs, hscratches, h.initialised_update rfl x, fun y b e hb he => ?_, fun y b hb => ?_,
    fun y z b c hb hc he => ?_⟩
  · by_cases hy : y = x
    · rw [hy, Function.update_self] at hb
      cases hb
    · rw [Function.update_of_ne hy] at hb he
      obtain ⟨hscratch, hdelay⟩ := h.holds y b e hb he
      exact ⟨hscratch, (hothers _ (hother y b hy hb)).trans hdelay⟩
  · by_cases hy : y = x
    · rw [hy, Function.update_self] at hb
      cases hb
    · rw [Function.update_of_ne hy] at hb
      exact (List.mem_erase_of_ne (hother y b hy hb)).2 (h.live y b hb)
  · by_cases hy : y = x
    · rw [hy, Function.update_self] at hb
      cases hb
    · by_cases hz : z = x
      · rw [hz, Function.update_self] at hc
        cases hc
      · rw [Function.update_of_ne hy] at hb
        rw [Function.update_of_ne hz] at hc
        exact h.unshared y z b c hb hc he

end Shares

end RtpServer.Verify.ConverterCalls
