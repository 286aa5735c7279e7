import RtpServer.Source.SampleRateMemory
import RtpServer.Verify.Resampler

/-!
# The converter's loops in memory

Each loop of the two directions is one block write, the filter among them as long as it does
not write into the line it reads. So a call does one sequence of writes to the words, whatever
the scratch buffer held and whether or not its two packets are one.
-/
namespace RtpServer.Verify.ConverterWords

open RtpServer.Library RtpServer.Library.Memory RtpServer.Source RtpServer.Source.TypeDef
open RtpServer.Source.Upd RtpServer.Source.Scratch RtpServer.Source.SampleRate
open RtpServer.Source.SampleRateMemory RtpServer.Verify.Resampler RtpServer.Verify.FilterLanes

variable {κ ι : Type}

theorem map_getD_range (line : List Sint16) :
    (List.range line.length).map (fun i => line.getD i 0) = line := by
  apply List.ext_getElem?
  intro i
  by_cases hi : i < line.length
  · rw [List.getElem?_map, List.getElem?_range hi, Option.map_some, List.getD_eq_getElem?_getD,
      List.getElem?_eq_getElem hi, Option.getD_some]
  · rw [List.getElem?_eq_none (by simpa using hi), List.getElem?_eq_none (by omega)]

theorem flatMap_getD_range (line : List Sint16) (f : Sint16 → List Sint16) :
    (List.range line.length).flatMap (fun i => f (line.getD i 0)) = line.flatMap f := by
  conv_rhs => rw [← map_getD_range line]
  rw [List.flatMap_map]

theorem bind_of_some {β γ : Type} {x : Option β} {a : β} (h : x = some a) (f : β → Option γ) :
    (x >>= f) = f a := by
  rw [h]
  rfl

section

variable {m : Words κ ι} {p q : Address κ ι} {line : List Sint16}

theorem load64_eq (h : m.Starts p line) {k : Nat} (hk : k + 3 < line.length) :
    SampleRateMemory.load64 m p k = some (FirFilter.load64 line k) := by
  simp only [SampleRateMemory.load64, h.load (show k < line.length by omega) 0,
    h.load (show k + 1 < line.length by omega) 0, h.load (show k + 2 < line.length by omega) 0,
    h.load hk 0, Option.bind_eq_bind, Option.bind_some]
  rfl

theorem firBlk4Inner_eq (h : m.Starts p line) (coeffs : List Sint16) {nCoeffs d j : Nat}
    (hj : d + nCoeffs / 2 + 1 + 4 * j + 3 < line.length) (Y : BitVec 64 × BitVec 64) :
    SampleRateMemory.firBlk4Inner m p coeffs nCoeffs d Y j =
      some (FirFilter.firBlk4Inner line coeffs nCoeffs d Y j) := by
  simp only [SampleRateMemory.firBlk4Inner, load64_eq h (show d + 4 * j + 3 < _ by omega),
    load64_eq h (show d + 1 + 4 * j + 3 < _ by omega),
    load64_eq h (show d + nCoeffs / 2 + 4 * j + 3 < _ by omega), load64_eq h hj,
    Option.bind_eq_bind, Option.bind_some]
  rfl

theorem foldlM_some {β γ : Type} {f : β → γ → Option β} {g : β → γ → β} {l : List γ}
    (h : ∀ y, ∀ j ∈ l, f y j = some (g y j)) (y : β) : l.foldlM f y = some (l.foldl g y) := by
  induction l generalizing y with
  | nil => rfl
  | cons j l ih =>
    rw [List.foldlM_cons, h y j List.mem_cons_self, List.foldl_cons]
    exact ih (fun y k hk => h y k (List.mem_cons_of_mem j hk)) (g y j)

variable [DecidableEq κ] [DecidableEq ι]

/-- A loop that replaces the cells one by one. -/
theorem mapInPlace_eq (f : Sint16 → Sint16) (h : m.Starts p line) :
    Memory.loop (fun i (m : Words κ ι) => do
      let s ← m.load p i
      m.store p i (f s)) line.length m = some (m.put p (line.map f)) := by
  have hcells : (List.range line.length).flatMap (fun i => [f (line.getD i 0)]) = line.map f := by
    rw [flatMap_getD_range line fun s => [f s], List.map_eq_flatMap]
  rw [← hcells]
  refine loop_fill (w := 1) (fun _ => rfl) fun i hi done hdone => ?_
  rw [Nat.one_mul] at hdone
  have hload : (m.put p done).load p i = some (line.getD i 0) := by
    rw [load_put_after (h.fits.mono (by omega)) hdone.le, h.load hi]
  have hstore := store_put (h.fits.mono (show done.length + 1 ≤ line.length by omega))
    (f (line.getD i 0))
  rw [hdone] at hstore
  simp only [hload, Option.bind_eq_bind, Option.bind_some]
  exact hstore

theorem downscale_eq (h : m.Starts p line) :
    SampleRateMemory.downscale m p line.length =
      some (m.put p (SampleRate.downscale line)) := mapInPlace_eq _ h

theorem upscale_eq (h : m.Starts p line) :
    SampleRateMemory.upscale m p p line.length = some (m.put p (SampleRate.upscale line)) :=
  mapInPlace_eq _ h

/-- Two cells stored one after the other. -/
theorem store_two {done : List Sint16} (h : m.Fits p (done.length + 2)) (a b : Sint16) :
    ((m.put p done).store p done.length a >>= fun m => m.store p (done.length + 1) b) =
      some (m.put p (done ++ [a, b])) := by
  have hfirst := store_put (h.mono (Nat.le_succ _)) a
  have hlen : (done ++ [a]).length = done.length + 1 := by simp
  have hsecond := store_put (show m.Fits p ((done ++ [a]).length + 1) by rwa [hlen]) b
  rw [hlen, List.append_assoc] at hsecond
  rw [hfirst, Option.bind_eq_bind, Option.bind_some]
  exact hsecond

/-- The filter, for a line that what it writes does not touch. -/
theorem firBlk4_eq {nNew : Nat} (h : m.Starts q line) (coeffs : List Sint16)
    (hline : nNew + 71 ≤ line.length) (hfits : m.Fits p nNew)
    (hapart : Apart p nNew q line.length) :
    SampleRateMemory.firBlk4 m p q nNew filterLengthTaps coeffs 0 =
      some (m.put p (FirFilter.firBlk4 line nNew filterLengthTaps coeffs 0)) := by
  refine loop_fill (w := 2) (fun _ => rfl) fun i hi done hdone => ?_
  have hstarts : (m.put p done).Starts q line :=
    h.put (hfits.mono (by omega)) (hapart.mono (by omega) (Nat.le_refl _))
  have hsum : (List.range (filterLengthTaps / 8)).foldlM
      (SampleRateMemory.firBlk4Inner (m.put p done) q coeffs filterLengthTaps (2 * i)) (0, 0) =
      some ((List.range (filterLengthTaps / 8)).foldl
        (FirFilter.firBlk4Inner line coeffs filterLengthTaps (2 * i)) (0, 0)) := by
    refine foldlM_some (fun Y j hj => firBlk4Inner_eq hstarts coeffs ?_ Y) (0, 0)
    have hj' : j < 9 := List.mem_range.1 hj
    change 2 * i + 36 + 1 + 4 * j + 3 < line.length
    omega
  have hstore := store_two (hfits.mono (show done.length + 2 ≤ nNew by omega))
  rw [hdone] at hstore
  rw [hsum, Option.bind_eq_bind, Option.bind_some]
  exact hstore _ _

theorem length_firBlk4 (line coeffs : List Sint16) {nNew : Nat} (h : 2 ∣ nNew) :
    (FirFilter.firBlk4 line nNew filterLengthTaps coeffs 0).length = nNew := by
  rw [FirFilter.firBlk4, length_flatMap_range (w := 2) fun _ => rfl, Nat.mul_div_cancel' h]

/-- The filter, and its output scaled up in place. -/
theorem filtered_eq {nNew : Nat} (h : m.Starts q line) (coeffs : List Sint16)
    (hline : nNew + 71 ≤ line.length) (heven : 2 ∣ nNew) (hfits : m.Fits p nNew)
    (hapart : Apart p nNew q line.length) {γ : Type} (f : Words κ ι → Option γ) :
    (do
      let m ← SampleRateMemory.firBlk4 m p q nNew filterLengthTaps coeffs 0
      let m ← SampleRateMemory.upscale m p p nNew
      f m) =
      f (m.put p (SampleRate.upscale (FirFilter.firBlk4 line nNew filterLengthTaps coeffs 0))) := by
  have hlen := length_firBlk4 line coeffs heven
  have hup := upscale_eq (starts_put (show m.Fits p (FirFilter.firBlk4 line nNew filterLengthTaps
    coeffs 0).length from hlen.symm ▸ hfits))
  rw [hlen, put_put (length_upscale _).ge (by rwa [length_upscale, hlen])] at hup
  exact (bind_of_some (firBlk4_eq h coeffs hline hfits hapart) _).trans (bind_of_some hup f)

/-- The delay line of `m_src_up`: zeros before, between and behind the samples. -/
theorem upLine_eq {delay dline payload : Address κ ι} {d x : List Sint16} {size : Nat}
    (hd : m.Starts delay d) (hdlen : d.length = delayBufUpSize16) (hx : m.Starts payload x)
    (hsize : size ≤ x.length) (hfits : m.Fits dline (71 + 2 * size))
    (hdelay : dline.region ≠ delay.region) (hpayload : dline.region ≠ payload.region) :
    (do
      let m ← Memory.loop (fun i m => do
        let m ← m.store dline (2 * i) 0
        let s ← m.load delay i
        m.store dline (2 * i + 1) s) delayBufUpSize16 m
      let m ← m.store dline (2 * delayBufUpSize16) 0
      Memory.loop (fun i m => do
        let s ← m.load payload i
        let m ← m.store dline (2 * delayBufUpSize16 + 1 + 2 * i) s
        m.store dline (2 * delayBufUpSize16 + 1 + 2 * i + 1) 0) size m) =
      some (m.put dline ((d.flatMap fun s => [0, s]) ++
        0 :: (x.take size).flatMap fun s => [s, 0])) := by
  have hfirst : Memory.loop (fun i (m : Words κ ι) => do
      let m ← m.store dline (2 * i) 0
      let s ← m.load delay i
      m.store dline (2 * i + 1) s) delayBufUpSize16 m =
      some (m.put dline ((List.range delayBufUpSize16).flatMap fun i => [0, d.getD i 0])) := by
    refine loop_fill (w := 2) (fun _ => rfl) fun i hi done hdone => ?_
    have hi' : i < 35 := hi
    have hzero := store_put (hfits.mono (show done.length + 1 ≤ _ by omega)) 0
    have hlen : (done ++ [0]).length = done.length + 1 := List.length_append
    have hload : (m.put dline (done ++ [0])).load delay i = some (d.getD i 0) :=
      (hd.put (hfits.mono (by omega)) (apart_of_ne hdelay _ _)).load (by rw [hdlen]; exact hi) 0
    have hsample := store_put (hfits.mono (show (done ++ [0]).length + 1 ≤ _ by omega)) (d.getD i 0)
    rw [hlen, List.append_assoc] at hsample
    rw [hdone] at hzero hsample
    rw [hzero, Option.bind_eq_bind, Option.bind_some, hload, Option.bind_eq_bind, Option.bind_some]
    exact hsample
  have hline : (List.range delayBufUpSize16).flatMap (fun i => [0, d.getD i 0]) =
      d.flatMap fun s => [0, s] := by
    rw [← hdlen]
    exact flatMap_getD_range d fun s => [0, s]
  have hlen : (d.flatMap fun s => [0, s]).length = 2 * delayBufUpSize16 := by
    rw [← hline]
    exact length_flatMap_range (w := 2) (fun _ => rfl) _
  have hmiddle := store_put (hfits.mono (show (d.flatMap fun s => [0, s]).length + 1 ≤ _ by
    rw [hlen]
    exact (show 71 ≤ 71 + 2 * size by omega))) 0
  rw [hlen] at hmiddle
  have hsecond : Memory.loop (fun i (m : Words κ ι) => do
      let s ← m.load payload i
      let m ← m.store dline (2 * delayBufUpSize16 + 1 + 2 * i) s
      m.store dline (2 * delayBufUpSize16 + 1 + 2 * i + 1) 0) size
        (m.put dline ((d.flatMap fun s => [0, s]) ++ [0])) =
      some (m.put dline ((d.flatMap fun s => [0, s]) ++ [0] ++
        (List.range size).flatMap fun i => [x.getD i 0, 0])) := by
    refine loop_append (w := 2) (fun _ => rfl) fun i hi done hdone => ?_
    rw [List.length_append, hlen] at hdone
    have hdone' : done.length = 71 + 2 * i := hdone
    have hload : (m.put dline done).load payload i = some (x.getD i 0) :=
      (hx.put (hfits.mono (by omega)) (apart_of_ne hpayload _ _)).load (by omega) 0
    have hstore := store_two (hfits.mono (show done.length + 2 ≤ _ by omega)) (x.getD i 0) 0
    rw [hdone] at hstore
    rw [hload, Option.bind_eq_bind, Option.bind_some]
    exact hstore
  have hsamples : (List.range size).flatMap (fun i => [x.getD i 0, 0]) =
      (x.take size).flatMap fun s => [s, 0] := by
    have hcut : (x.take size).length = size := List.length_take_of_le hsize
    have hall := flatMap_getD_range (x.take size) fun s => [s, 0]
    rw [hcut] at hall
    rw [← hall]
    exact List.flatMap_congr fun i hi => by rw [getD_take_of_lt x (List.mem_range.1 hi)]
  rw [hsamples, List.append_assoc, List.singleton_append] at hsecond
  rw [hfirst, hline]
  change ((m.put dline (d.flatMap fun s => [0, s])).store dline (2 * delayBufUpSize16) 0 >>= _) = _
  rw [hmiddle]
  exact hsecond

end

abbrev srcScratch : Fin numScratchBuffs := 14

section

variable [DecidableEq κ] [DecidableEq ι] {i o : κ}

/-- The delay line as `m_src_up` builds it from the last samples and the new ones. -/
def upLine (d y : List Sint16) (size : Nat) : List Sint16 :=
  (d.flatMap fun s => [0, s]) ++ 0 :: (y.take size).flatMap fun s => [s, 0]

/-- The payload with its samples scaled down in place. -/
def scaledCells (x : List Sint16) (size : Nat) : List Sint16 :=
  Buffer.blit x 0 (SampleRate.downscale (x.take size))

def savedCells (y : List Sint16) (size history : Nat) : List Sint16 :=
  (y.drop (size - history)).take history

/-- The words after `m_src_up`. -/
def upWords (m : Words κ ι) (i o : κ) (b : ι) (x d : List Sint16) (size : Nat) : Words κ ι :=
  let y := scaledCells x size
  (((m.put (lUpdGetPayload i) (SampleRate.downscale (x.take size))).put
    (addressOf ⟨srcScratch, 0⟩) (upLine d y size)).put
      ⟨.delaybuffer b, 0⟩ (savedCells y size delayBufUpSize16)).put
        (lUpdGetPayload o) (SampleRate.upscale
          (FirFilter.firBlk4 (upLine d y size) (size8KhzTo16Khz size) filterLengthTaps coeffInt 0))

theorem upWords_eq {m : Words κ ι} {b : ι} {x d : List Sint16} {size : Nat}
    (hx : m (.payload i) = some x) (ho : m.Fits (lUpdGetPayload o) (2 * size))
    (hs : m.Fits ⟨.scratch srcScratch, 0⟩ (71 + 2 * size)) (hd : m (.delaybuffer b) = some d)
    (hdlen : d.length = delayBufUpSize16) (hlow : delayBufUpSize16 ≤ size)
    (hsize : size ≤ x.length) {γ : Type} (f : Words κ ι → Option γ) :
    let dline : Address κ ι := addressOf ⟨srcScratch, 0⟩
    (do
      let m ← SampleRateMemory.downscale m (lUpdGetPayload i) size
      let m ← Memory.loop (fun i m => do
        let m ← m.store dline (2 * i) 0
        let s ← m.load ⟨.delaybuffer b, 0⟩ i
        m.store dline (2 * i + 1) s) delayBufUpSize16 m
      let m ← m.store dline (2 * delayBufUpSize16) 0
      let m ← Memory.loop (fun j m => do
        let s ← m.load (lUpdGetPayload i) j
        let m ← m.store dline (2 * delayBufUpSize16 + 1 + 2 * j) s
        m.store dline (2 * delayBufUpSize16 + 1 + 2 * j + 1) 0) size m
      let m ← m.memcpy ⟨.delaybuffer b, 0⟩ ((lUpdGetPayload i).add (size - delayBufUpSize16))
        delayBufUpSize16
      let m ← SampleRateMemory.firBlk4 m (lUpdGetPayload o) dline (size8KhzTo16Khz size)
        filterLengthTaps coeffInt 0
      let m ← SampleRateMemory.upscale m (lUpdGetPayload o) (lUpdGetPayload o)
        (size8KhzTo16Khz size)
      f m) =
      f (upWords m i o b x d size) := by
  intro dline
  obtain ⟨y, hy⟩ : ∃ y, y = scaledCells x size := ⟨_, rfl⟩
  obtain ⟨line, hline⟩ : ∃ line, line = upLine d y size := ⟨_, rfl⟩
  rw [upWords, ← hy, ← hline]
  have hcut : (x.take size).length = size := List.length_take_of_le hsize
  have hylen : y.length = x.length := hy ▸ Buffer.length_blit _ _ _
  have hdown := downscale_eq (show m.Starts (lUpdGetPayload i) (x.take size) from
    (starts_of_some hx rfl).take hsize)
  rw [hcut] at hdown
  refine (bind_of_some hdown _).trans ?_
  obtain ⟨m₁, hm₁⟩ : ∃ m₁, m₁ = m.put (lUpdGetPayload i) (SampleRate.downscale (x.take size)) :=
    ⟨_, rfl⟩
  rw [← hm₁]
  have hy₁ : m₁.Starts (lUpdGetPayload i) y := by
    refine starts_of_some ?_ rfl
    rw [hm₁, hy, put_self, show m (lUpdGetPayload i).region = some x from hx]
    rfl
  have hd₁ : m₁.Starts ⟨.delaybuffer b, 0⟩ d := by
    refine starts_of_some ?_ rfl
    rw [hm₁, put_of_ne (by simp [lUpdGetPayload])]
    exact hd
  have hs₁ : m₁.Fits dline (71 + 2 * size) := hm₁ ▸ hs.put
  have ho₁ : m₁.Fits (lUpdGetPayload o) (2 * size) := hm₁ ▸ ho.put
  have hloops := upLine_eq hd₁ hdlen hy₁ (hsize.trans hylen.ge) hs₁
    (by simp [dline, addressOf]) (by simp [dline, addressOf, lUpdGetPayload])
  obtain ⟨m₂, h₂, hloops⟩ := Option.bind_eq_some_iff.1 hloops
  obtain ⟨m₃, h₃, h₄⟩ := Option.bind_eq_some_iff.1 hloops
  rw [← upLine, ← hline] at h₄
  refine (bind_of_some h₂ _).trans ?_
  refine (bind_of_some h₃ _).trans ?_
  refine (bind_of_some h₄ _).trans ?_
  have hlen : line.length = 71 + 2 * size := by
    have hdelay : (d.flatMap fun s => [0, s]).length = 2 * d.length := by
      rw [← flatMap_getD_range, length_flatMap_range (w := 2) fun _ => rfl]
    have hnew : ((y.take size).flatMap fun s => [s, 0]).length = 2 * size := by
      rw [← flatMap_getD_range, length_flatMap_range (w := 2) fun _ => rfl,
        List.length_take_of_le (hsize.trans hylen.ge)]
    rw [hline, upLine, List.length_append, List.length_cons, hdelay, hnew, hdlen]
    exact (show 2 * 35 + (2 * size + 1) = 71 + 2 * size by omega)
  have hline₄ : (m₁.put dline line).Starts dline line := starts_put (hlen ▸ hs₁)
  have hy₄ : (m₁.put dline line).Starts (lUpdGetPayload i) y :=
    hy₁.put (hlen ▸ hs₁) (apart_of_ne (by simp [dline, addressOf, lUpdGetPayload]) _ _)
  have hd₄ : (m₁.put dline line).Fits ⟨.delaybuffer b, 0⟩ delayBufUpSize16 := hdlen ▸ hd₁.fits.put
  have ho₄ : (m₁.put dline line).Fits (lUpdGetPayload o) (2 * size) := ho₁.put
  generalize m₁.put dline line = m₄ at hline₄ hy₄ hd₄ ho₄
  have hsaved : (savedCells y size delayBufUpSize16).length = delayBufUpSize16 := by
    rw [savedCells, List.length_take_of_le]
    rw [List.length_drop, hylen]
    omega
  have hcopy := memcpy_eq (hy₄.part (k := size - delayBufUpSize16) (n := delayBufUpSize16)
    (by rw [hylen]; omega)) hd₄ (apart_of_ne (by simp [lUpdGetPayload, Pointer.add]) _ _)
  refine (bind_of_some hcopy _).trans ?_
  have hline₅ := hline₄.put (hsaved.symm ▸ hd₄) (apart_of_ne (by simp [dline, addressOf]) _ _)
  have ho₅ : (m₄.put ⟨.delaybuffer b, 0⟩ (savedCells y size delayBufUpSize16)).Fits
    (lUpdGetPayload o) (size8KhzTo16Khz size) := ho₄.put
  rw [← savedCells]
  generalize m₄.put _ _ = m₅ at hline₅ ho₅
  have hroom : size8KhzTo16Khz size + 71 ≤ line.length := by
    rw [hlen, size8KhzTo16Khz]
    omega
  exact filtered_eq hline₅ coeffInt hroom (Dvd.intro size rfl) ho₅
    (apart_of_ne (by simp [dline, addressOf, lUpdGetPayload]) _ _) f

theorem put_payload {m : Words κ ι} {z : List Sint16} (h : m (.payload o) = some z)
    (new : List Sint16) :
    m.put (lUpdGetPayload o) new (.payload o) = some (Buffer.blit z 0 new) := by
  change m.put (lUpdGetPayload o) new (lUpdGetPayload o).region = _
  rw [put_self, show m (lUpdGetPayload o).region = some z from h]
  rfl

section

variable {m : Words κ ι} {b : ι} {x d : List Sint16} {size : Nat}

/-- The payloads before the output is written. -/
theorem scaled_payload (hx : m (.payload i) = some x) (k : κ) (line saved : List Sint16) :
    (((m.put (lUpdGetPayload i) (SampleRate.downscale (x.take size))).put
      (addressOf ⟨srcScratch, 0⟩) line).put ⟨.delaybuffer b, 0⟩ saved) (.payload k) =
      if k = i then some (scaledCells x size) else m (.payload k) := by
  rw [put_of_ne (by simp), put_of_ne (by simp [addressOf])]
  by_cases hi : k = i
  · subst hi
    rw [if_pos rfl, put_payload hx]
    rfl
  · rw [if_neg hi, put_of_ne (by simp [lUpdGetPayload, hi])]

theorem upWords_payload (hx : m (.payload i) = some x) {k : κ} (hk : k ≠ o) :
    upWords m i o b x d size (.payload k) =
      if k = i then some (scaledCells x size) else m (.payload k) := by
  rw [← scaled_payload hx, upWords, put_of_ne (by simp [lUpdGetPayload, hk])]

theorem upWords_out (hx : m (.payload i) = some x) {z : List Sint16}
    (hz : m (.payload o) = some z) (hsize : size ≤ x.length) (hroom : 2 * size ≤ z.length) :
    upWords m i o b x d size (.payload o) = some (Buffer.blit z 0 (SampleRate.upscale
      (FirFilter.firBlk4 (upLine d (scaledCells x size) size) (size8KhzTo16Khz size)
        filterLengthTaps coeffInt 0))) := by
  have hbefore := @scaled_payload _ _ _ _ i m b x size hx o (upLine d (scaledCells x size) size)
    (savedCells (scaledCells x size) size delayBufUpSize16)
  by_cases hi : o = i
  · -- in place: the filter output is longer than what was scaled down
    subst hi
    obtain rfl : x = z := Option.some.inj (hx.symm.trans hz)
    rw [if_pos rfl] at hbefore
    have hlen : (SampleRate.upscale (FirFilter.firBlk4 (upLine d (scaledCells x size) size)
        (size8KhzTo16Khz size) filterLengthTaps coeffInt 0)).length = 2 * size := by
      rw [length_upscale]
      exact length_firBlk4 _ _ (Dvd.intro size rfl)
    have hcut : (SampleRate.downscale (x.take size)).length = size := by
      rw [length_downscale, List.length_take_of_le hsize]
    rw [upWords, put_payload hbefore]
    exact congrArg some (Buffer.blit_blit x (by rw [hlen, hcut]; omega) (by rw [hlen]; omega))
  · rw [if_neg hi, hz] at hbefore
    exact put_payload hbefore _

theorem upWords_delaybuffer (hd : m (.delaybuffer b) = some d) :
    upWords m i o b x d size (.delaybuffer b) =
      some (Buffer.blit d 0 (savedCells (scaledCells x size) size delayBufUpSize16)) := by
  rw [upWords, put_of_ne (by simp [lUpdGetPayload])]
  refine put_self.trans ?_
  dsimp only
  rw [put_of_ne (by simp [addressOf]), put_of_ne (by simp [lUpdGetPayload]), hd, Option.map_some]

theorem upWords_others {r : Region κ ι} (hpayload : ∀ k, r ≠ .payload k)
    (hscratch : r ≠ .scratch srcScratch) (hdelay : r ≠ .delaybuffer b) :
    upWords m i o b x d size r = m r := by
  rw [upWords, put_of_ne (hpayload _), put_of_ne hdelay, put_of_ne hscratch, put_of_ne (hpayload _)]

end

/-- The words after `m_src_down`. -/
def downWords (m : Words κ ι) (o : κ) (b : ι) (x d : List Sint16) (size : Nat) : Words κ ι :=
  let dline : Address κ ι := addressOf ⟨srcScratch, 0⟩
  let line := d ++ x.take (size8KhzTo16Khz size)
  let outvec := FirFilter.firBlk4 (SampleRate.downscale line) (size8KhzTo16Khz size)
    filterLengthTaps coeffDec 0
  ((((m.put dline line).put
    ⟨.delaybuffer b, 0⟩ (savedCells x (size8KhzTo16Khz size) delayBufDownSize16)).put
      dline (SampleRate.downscale line)).put (dline.add dlineScratchSize16) outvec).put
        (lUpdGetPayload o) (SampleRate.upscale
          ((List.range size).map fun i => outvec.getD (2 * i) 0))

/-- Every second cell of a line copied, and the copies scaled up in place. -/
theorem decimated_up_eq {m : Words κ ι} {p q : Address κ ι} {line : List Sint16} {size : Nat}
    (h : m.Starts q line) (hline : 2 * size ≤ line.length) (hfits : m.Fits p size)
    (hne : p.region ≠ q.region) {γ : Type} (f : Words κ ι → Option γ) :
    (do
      let m ← Memory.loop (fun i m => do
        let s ← m.load q (2 * i)
        m.store p i s) size m
      let m ← SampleRateMemory.upscale m p p size
      f m) =
      f (m.put p (SampleRate.upscale ((List.range size).map fun i => line.getD (2 * i) 0))) := by
  have hloop : Memory.loop (fun i (m : Words κ ι) => do
      let s ← m.load q (2 * i)
      m.store p i s) size m =
      some (m.put p ((List.range size).flatMap fun i => [line.getD (2 * i) 0])) := by
    refine loop_fill (w := 1) (fun _ => rfl) fun i hi done hdone => ?_
    rw [Nat.one_mul] at hdone
    have hload := (h.put (hfits.mono (show done.length ≤ size by omega))
      (apart_of_ne hne _ _)).load (show 2 * i < line.length by omega) 0
    have hstore := store_put (hfits.mono (show done.length + 1 ≤ size by omega))
      (line.getD (2 * i) 0)
    rw [hdone] at hstore
    exact (bind_of_some hload _).trans hstore
  rw [← List.map_eq_flatMap] at hloop
  have hlen : ((List.range size).map fun i => line.getD (2 * i) 0).length = size := by
    rw [List.length_map, List.length_range]
  have hup := upscale_eq (starts_put (show m.Fits p ((List.range size).map fun i =>
    line.getD (2 * i) 0).length from hlen.symm ▸ hfits))
  rw [hlen, put_put (length_upscale _).ge (by rwa [length_upscale, hlen])] at hup
  exact (bind_of_some hloop _).trans (bind_of_some hup f)

theorem downWords_eq {m : Words κ ι} {b : ι} {x d : List Sint16} {size : Nat}
    (hx : m (.payload i) = some x) (ho : m.Fits (lUpdGetPayload o) size)
    (hs : m.Fits ⟨.scratch srcScratch, 0⟩ (dlineScratchSize16 + outvecScratchSize16))
    (hd : m (.delaybuffer b) = some d) (hdlen : d.length = delayBufDownSize16)
    (hlow : 36 ≤ size) (hhigh : size ≤ 240) (hsize : size8KhzTo16Khz size ≤ x.length) {γ : Type}
    (f : Words κ ι → Option γ) :
    let dline : Address κ ι := addressOf ⟨srcScratch, 0⟩
    (do
      let m ← m.memcpy dline ⟨.delaybuffer b, 0⟩ delayBufDownSize16
      let m ← m.memcpy (dline.add delayBufDownSize16) (lUpdGetPayload i) (size8KhzTo16Khz size)
      let m ← m.memcpy ⟨.delaybuffer b, 0⟩
        ((lUpdGetPayload i).add (size8KhzTo16Khz size - delayBufDownSize16)) delayBufDownSize16
      let m ← SampleRateMemory.downscale m dline (delayBufDownSize16 + size8KhzTo16Khz size)
      let m ← SampleRateMemory.firBlk4 m (dline.add dlineScratchSize16) dline
        (size8KhzTo16Khz size) filterLengthTaps coeffDec 0
      let m ← Memory.loop (fun i m => do
        let s ← m.load (dline.add dlineScratchSize16) (2 * i)
        m.store (lUpdGetPayload o) i s) size m
      let m ← SampleRateMemory.upscale m (lUpdGetPayload o) (lUpdGetPayload o) size
      f m) = f (downWords m o b x d size) := by
  intro dline
  have hn : size8KhzTo16Khz size = 2 * size := rfl
  obtain ⟨line, hline⟩ : ∃ line, line = d ++ x.take (size8KhzTo16Khz size) := ⟨_, rfl⟩
  have hcut : (x.take (size8KhzTo16Khz size)).length = size8KhzTo16Khz size :=
    List.length_take_of_le hsize
  have hlen : line.length = delayBufDownSize16 + size8KhzTo16Khz size := by
    rw [hline, List.length_append, hdlen, hcut]
  have hdline : ∀ n, n ≤ 1032 → m.Fits dline n := fun n h => hs.mono h
  have hxs : m.Starts (lUpdGetPayload i) x := starts_of_some hx rfl
  have hds : m.Starts ⟨.delaybuffer b, 0⟩ d := starts_of_some hd rfl
  have hsd : dline.region ≠ Region.delaybuffer b := by simp [dline, addressOf]
  have hsx : ∀ k, dline.region ≠ (lUpdGetPayload k : Address κ ι).region := by
    simp [dline, addressOf, lUpdGetPayload]
  have hdx : ∀ k, Region.delaybuffer b ≠ (lUpdGetPayload k : Address κ ι).region := by
    simp [lUpdGetPayload]
  -- the delay line and the new samples one behind the other
  have hdelay : m.block ⟨.delaybuffer b, 0⟩ delayBufDownSize16 = some d := by
    rw [hds.block_take hdlen.ge, ← hdlen, List.take_length]
  have hfirst := memcpy_eq hdelay (hdline delayBufDownSize16 (by decide)) (apart_of_ne hsd _ _)
  refine (bind_of_some hfirst _).trans ?_
  have hroom : m.Fits dline (d.length + (x.take (size8KhzTo16Khz size)).length) :=
    hdline _ (by rw [hdlen, hcut]; exact (show 71 + 2 * size ≤ 1032 by omega))
  have hnew := (hxs.put (hdline d.length (by rw [hdlen]; decide))
    (apart_of_ne (hsx i) _ _)).block_take hsize
  have hadd : (m.put dline d).Fits (dline.add delayBufDownSize16) (size8KhzTo16Khz size) := by
    rw [hdlen, hcut] at hroom
    exact hroom.add.put
  have hsecond := memcpy_eq hnew hadd
    (apart_of_ne (show (dline.add delayBufDownSize16).region ≠ _ from hsx i) _ _)
  have happend := put_append hroom
  rw [hdlen, ← hline] at happend
  rw [happend] at hsecond
  refine (bind_of_some hsecond _).trans ?_
  -- the last samples saved
  have hline₁ : m.Fits dline line.length :=
    hdline _ (by rw [hlen]; exact (show 71 + 2 * size ≤ 1032 by omega))
  have hx₁ := hxs.put hline₁ (apart_of_ne (hsx i) _ _)
  have hsaved := hx₁.part (k := size8KhzTo16Khz size - delayBufDownSize16) (n := delayBufDownSize16)
    (by rw [hn] at hsize ⊢; exact (show 2 * size - 71 + 71 ≤ x.length by omega))
  have hthird := memcpy_eq hsaved
    (show (m.put dline line).Fits ⟨.delaybuffer b, 0⟩ delayBufDownSize16 from
      (hdlen ▸ hds.fits).put)
    (apart_of_ne (show _ ≠ ((lUpdGetPayload i : Address κ ι).add _).region from hdx i) _ _)
  refine (bind_of_some hthird _).trans ?_
  rw [← savedCells]
  have hsavedlen : (savedCells x (size8KhzTo16Khz size) delayBufDownSize16).length =
      delayBufDownSize16 := by
    rw [savedCells, List.length_take_of_le]
    rw [List.length_drop, hn]
    rw [hn] at hsize
    exact (show 71 ≤ x.length - (2 * size - 71) by omega)
  have hfits₃ : (m.put dline line).Fits ⟨.delaybuffer b, 0⟩
      (savedCells x (size8KhzTo16Khz size) delayBufDownSize16).length := by
    rw [hsavedlen]
    exact (hdlen ▸ hds.fits).put
  have hline₃ := (starts_put hline₁).put hfits₃ (apart_of_ne hsd.symm _ _)
  -- filtered inside the scratch buffer
  have hdown := downscale_eq hline₃
  rw [hlen] at hdown
  refine (bind_of_some hdown _).trans ?_
  rw [downWords, ← hline]
  obtain ⟨m₃, hm₃⟩ : ∃ m₃, m₃ = (m.put dline line).put ⟨.delaybuffer b, 0⟩
    (savedCells x (size8KhzTo16Khz size) delayBufDownSize16) := ⟨_, rfl⟩
  have hfits : ∀ q n, m.Fits q n → m₃.Fits q n := fun q n h => hm₃ ▸ h.put.put
  have hscaled : m₃.Fits dline (SampleRate.downscale line).length := by
    rw [length_downscale]
    exact hfits _ _ hline₁
  have hout : m₃.Fits (dline.add dlineScratchSize16) (size8KhzTo16Khz size) :=
    hfits _ _ (hs.add.mono (show 2 * size ≤ 480 by omega))
  have hfir := firBlk4_eq (starts_put hscaled) coeffDec
    (show size8KhzTo16Khz size + 71 ≤ (SampleRate.downscale line).length by
      rw [length_downscale, hlen, Nat.add_comm]
      exact Nat.le_refl _)
    hout.put (fun _ => Or.inr (by
      rw [length_downscale, hlen]
      exact (show 0 + (71 + 2 * size) ≤ 0 + 552 by omega)))
  rw [← hm₃]
  refine (bind_of_some hfir _).trans ?_
  refine decimated_up_eq (starts_put ?_) ?_ (hfits _ _ ho).put.put
    (show _ ≠ (dline.add dlineScratchSize16).region from (hsx o).symm) f
  · exact hout.put.mono (length_firBlk4 _ _ (Dvd.intro size rfl)).le
  · exact (length_firBlk4 _ _ (Dvd.intro size rfl)).ge

section

variable {m : Words κ ι} {b : ι} {x d : List Sint16} {size : Nat}

theorem downWords_payload {k : κ} (hk : k ≠ o) :
    downWords m o b x d size (.payload k) = m (.payload k) := by
  rw [downWords, put_of_ne (by simp [lUpdGetPayload, hk]), put_of_ne (by simp [addressOf,
    Pointer.add]), put_of_ne (by simp [addressOf]), put_of_ne (by simp),
    put_of_ne (by simp [addressOf])]

theorem downWords_out {z : List Sint16} (hz : m (.payload o) = some z) :
    downWords m o b x d size (.payload o) = some (Buffer.blit z 0 (SampleRate.upscale
      ((List.range size).map fun i => (FirFilter.firBlk4
        (SampleRate.downscale (d ++ x.take (size8KhzTo16Khz size))) (size8KhzTo16Khz size)
          filterLengthTaps coeffDec 0).getD (2 * i) 0))) := by
  rw [downWords, put_payload]
  rw [put_of_ne (by simp [addressOf, Pointer.add]), put_of_ne (by simp [addressOf]),
    put_of_ne (by simp), put_of_ne (by simp [addressOf]), hz]

theorem downWords_delaybuffer (hd : m (.delaybuffer b) = some d) :
    downWords m o b x d size (.delaybuffer b) =
      some (Buffer.blit d 0 (savedCells x (size8KhzTo16Khz size) delayBufDownSize16)) := by
  rw [downWords, put_of_ne (by simp [lUpdGetPayload]), put_of_ne (by simp [addressOf,
    Pointer.add]), put_of_ne (by simp [addressOf])]
  refine put_self.trans ?_
  dsimp only
  rw [put_of_ne (by simp [addressOf]), hd, Option.map_some]

theorem downWords_others {r : Region κ ι} (hpayload : ∀ k, r ≠ .payload k)
    (hscratch : r ≠ .scratch srcScratch) (hdelay : r ≠ .delaybuffer b) :
    downWords m o b x d size r = m r := by
  rw [downWords, put_of_ne (hpayload _), put_of_ne (show r ≠ ((addressOf ⟨srcScratch, 0⟩ :
    Address κ ι).add _).region from hscratch), put_of_ne hscratch, put_of_ne hdelay,
    put_of_ne hscratch]

end

end

end RtpServer.Verify.ConverterWords
