import RtpServer.Verify.Decoder
import RtpServer.Verify.HandOver

/-!
# Runs of the ingress processing

The headers of the two PCM scratch packets survive from one call to the next. Until a
first frame is decoded the 8 kHz packet is empty; from then on it always holds 20 ms, and
every later payload in compact format is answered with it, decoded or not.
-/
namespace RtpServer.Verify.StaleAudio

open RtpServer.Library RtpServer.Library.LittleEndian
open RtpServer.Source RtpServer.Source.TypeDef RtpServer.Source.Upd RtpServer.Source.Usc
open RtpServer.Source.EvsCodec RtpServer.Source.SampleRate RtpServer.Source.EvsIngress
open RtpServer.Verify.Decoder
open RtpServer.Verify.HandOver (IsPrimaryCompact getCompactEvsMode_primary)

structure Call where
  buff : List Uint8
  len : Nat

def Call.size1 (c : Call) : Nat := toUint16 (size8To1 (toUint16 c.len))

/-- Steps 1 and 2 take the payload for a compact one and make a packet. -/
def Call.Compact (c : Call) : Prop := evsHdrFmt (words c.buff) (toUint16 c.len) = .compact

instance (c : Call) : Decidable c.Compact := inferInstanceAs (Decidable (_ = _))

theorem Call.Compact.size {c : Call} (h : c.Compact) : IsPrimaryCompact c.size1 := by
  have hmode : updEvsPrimaryMode ≠ updEvsWbioMode := by decide
  simp only [Call.Compact, evsHdrFmt, getEvsHdrFormat, if_neg hmode] at h
  by_cases hmem : toUint16 (size8To1 (toUint16 c.len)) ∈ compactPrimaryOnlySizes
  · exact Or.inr hmem
  · by_cases h56 : toUint16 (size8To1 (toUint16 c.len)) = 56
    · exact Or.inl h56
    · simp [getEvsPrimaryFormat, hmem, h56] at h

section

variable {σ : Type} (fxns : UscFxns σ) (allocated : Buffer Sint16 delayBufDownSize16)

def ready (st : IngressState σ) (c : Call) : IngressState σ :=
  ensureEvsDec fxns
    { st with mbIptDataIo := createEvsUpdPacketCompact (words c.buff) c.size1 st.mbIptDataIo }

def decoderOf (st : IngressState σ) : Option MInternalEvsDecData := st.evsDec.bind (·.internal)

def decodeCall (st : IngressState σ) : Option (MEvsDecResult σ lin16KhzPayloadSize16) :=
  st.evsDec.map fun evsDec =>
    mEvsDec fxns st.codec { evsDec with outputSampleRateHz := lUpdWbSampleRateHz }
      (some st.mbIptDataIo) (some st.lin16Khz)

/-- The current payload is decoded: it is compact and `m_evs_dec` returns no error for it. -/
def Decoded (st : IngressState σ) (c : Call) : Prop :=
  c.Compact ∧ ∃ r, decodeCall fxns (ready fxns st c) = some r ∧ r.ecode = eaNoErrors

/-- The current payload is compact, and a created decoder accepts its packet. -/
def Accepted (st : IngressState σ) (c : Call) : Prop :=
  c.Compact ∧ ∃ internal, decoderOf (ready fxns st c) = some internal ∧
    Accepts fxns (ready fxns st c).codec internal.decHandle (ready fxns st c).mbIptDataIo

/-- Successive calls of `evs_ingress_process`; the answer says what the call makes of an
output buffer and of the length variable. -/
def ingress : Machine (IngressState σ) Call (List Uint8 → Nat → List Uint8 × Nat) where
  step st c :=
    ((evsIngressProcess fxns allocated st c.buff c.len [] 0).state,
      fun bufOut lenOut8 =>
        let r := evsIngressProcess fxns allocated st c.buff c.len bufOut lenOut8
        (r.bufOut, r.lenOut8))

/-- No call returns PCM for a payload that is not decoded. -/
def NoStaleAudio (codec : σ) (calls : List Call) : Prop :=
  (ingress fxns allocated).Throughout (IngressState.initial codec) calls fun _ st c =>
    ¬ Decoded fxns st c → ∀ bufOut lenOut8,
      let answer := ((ingress fxns allocated).step st c).2 bufOut lenOut8
      answer.1 = bufOut ∧ (lenOut8 = 0 → answer.2 = 0)

theorem ensureEvsDec_evsDec (st : IngressState σ) :
    ∃ evsDec, (ensureEvsDec fxns st).evsDec = some evsDec := by
  cases h : st.evsDec with
  | some evsDec => exact ⟨evsDec, by simp only [ensureEvsDec, h]⟩
  | none => exact ⟨_, by simp only [ensureEvsDec, h]; rfl⟩

theorem ensureEvsDec_frame (st : IngressState σ) :
    (ensureEvsDec fxns st).master = st.master ∧
      (ensureEvsDec fxns st).mbIptDataIo = st.mbIptDataIo ∧
      (ensureEvsDec fxns st).lin16Khz = st.lin16Khz ∧
      (ensureEvsDec fxns st).lin08Khz = st.lin08Khz := by
  cases h : st.evsDec <;> simp [ensureEvsDec, h]

theorem ensureEvsDec_decoderOf (st : IngressState σ) (h : (decoderOf st).isSome) :
    decoderOf (ensureEvsDec fxns st) = decoderOf st := by
  cases he : st.evsDec with
  | some evsDec => simp only [ensureEvsDec, he]
  | none => simp [decoderOf, he] at h

theorem ensureMaster_frame (st : IngressState σ) :
    (ensureMaster allocated st).evsDec = st.evsDec ∧
      (ensureMaster allocated st).codec = st.codec ∧
      (ensureMaster allocated st).mbIptDataIo = st.mbIptDataIo ∧
      (ensureMaster allocated st).lin16Khz = st.lin16Khz ∧
      (ensureMaster allocated st).lin08Khz = st.lin08Khz := by
  cases h : st.master <;> simp [ensureMaster, h]

theorem ready_form (st : IngressState σ) {c : Call} (hc : c.Compact) :
    (ready fxns st c).mbIptDataIo.form = updEvsPrimaryMode := by
  have hne : updEvsPrimaryMode ≠ updEvsWbioMode := by decide
  obtain ⟨-, hp, -⟩ := ensureEvsDec_frame fxns
    { st with mbIptDataIo := createEvsUpdPacketCompact (words c.buff) c.size1 st.mbIptDataIo }
  rw [ready, hp]
  simp only [createEvsUpdPacketCompact, getCompactEvsMode_primary hc.size, if_neg hne]

/-- What is decoded is decided by the codec's two answers alone. -/
theorem decoded_iff_accepted (st : IngressState σ) (c : Call) :
    Decoded fxns st c ↔ Accepted fxns st c := by
  obtain ⟨evsDec, hd⟩ := ensureEvsDec_evsDec fxns
    { st with mbIptDataIo := createEvsUpdPacketCompact (words c.buff) c.size1 st.mbIptDataIo }
  change (ready fxns st c).evsDec = some evsDec at hd
  have hdec : decoderOf (ready fxns st c) = evsDec.internal := by
    rw [decoderOf, hd, Option.bind_some]
  have hcall := mEvsDec_ok_iff fxns (ready fxns st c).codec
    { evsDec with outputSampleRateHz := lUpdWbSampleRateHz } (ready fxns st c).mbIptDataIo
    (ready fxns st c).lin16Khz
  constructor
  · intro hall
    obtain ⟨hc, r, hr, hok⟩ := hall
    rw [decodeCall, hd, Option.map_some] at hr
    obtain rfl := Option.some.inj hr
    obtain ⟨internal, hi, -, ha⟩ := hcall.1 hok
    exact ⟨hc, internal, hdec.trans hi, ha⟩
  · intro hall
    obtain ⟨hc, internal, hi, ha⟩ := hall
    refine ⟨hc, _, by rw [decodeCall, hd, Option.map_some], ?_⟩
    exact hcall.2 ⟨internal, hdec.symm.trans hi, Or.inl (ready_form fxns st hc), ha⟩

theorem step_compact (st : IngressState σ) {c : Call} (hc : c.Compact) :
    ((ingress fxns allocated).step st c).1 =
        convertPacket (ensureMaster allocated (decodePacket fxns (ready fxns st c))) ∧
      ∀ bufOut lenOut8, ((ingress fxns allocated).step st c).2 bufOut lenOut8 =
        returnPcm ((ingress fxns allocated).step st c).1 bufOut := by
  have h : evsHdrFmt (words c.buff) (toUint16 c.len) = .compact := hc
  constructor
  · simp only [ingress, evsIngressProcess, if_pos h]
    rfl
  · intro bufOut lenOut8
    simp only [ingress, evsIngressProcess, if_pos h]

theorem step_other (st : IngressState σ) {c : Call} (hc : ¬ c.Compact) :
    ((ingress fxns allocated).step st c).1 = ensureMaster allocated (ensureEvsDec fxns st) ∧
      ∀ bufOut lenOut8, ((ingress fxns allocated).step st c).2 bufOut lenOut8 =
        (bufOut, lenOut8) := by
  have h : ¬ evsHdrFmt (words c.buff) (toUint16 c.len) = .compact := hc
  constructor
  · simp only [ingress, evsIngressProcess, if_neg h]
  · intro bufOut lenOut8
    simp only [ingress, evsIngressProcess, if_neg h]

def blankHeader : UpdHeader := ⟨0, 0, 0, 0⟩

/-- What holds between two calls, `heard` saying that a frame has been decoded before. -/
structure Scratch (heard : Prop) (st : IngressState σ) : Prop where
  converter : ∀ master, st.master = some master → master.internal.isSome
  silent : ¬ heard → st.lin08Khz.toUpdHeader = blankHeader ∧
    is16KhzUpdPacketOk st.lin16Khz.toUpdHeader = false
  sounding : heard → st.lin08Khz.toUpdHeader = pcm08Header ∧ (decoderOf st).isSome

theorem scratch_initial (codec : σ) : Scratch False (IngressState.initial codec) where
  converter := by
    intro master h
    cases h
  silent := fun _ => ⟨rfl, show is16KhzUpdPacketOk blankHeader = false by decide⟩
  sounding := False.elim

theorem decodePacket_eq (st : IngressState σ) {evsDec : CodecDecData} {extra : Uint32}
    {ecode : Ecode} {linPcm : Option (UpdPacket lin16KhzPayloadSize16)} {next : σ}
    (hd : st.evsDec = some evsDec)
    (hr : mEvsDec fxns st.codec { evsDec with outputSampleRateHz := lUpdWbSampleRateHz }
      (some st.mbIptDataIo) (some st.lin16Khz) =
        ⟨ecode, ⟨evsDec.internal, extra, lUpdWbSampleRateHz⟩, linPcm, next⟩) :
    decodePacket fxns st =
      { st with
        codec := next
        evsDec := some ⟨evsDec.internal, extra, lUpdWbSampleRateHz⟩
        lin16Khz := linPcm.getD st.lin16Khz } := by
  simp only [decodePacket, hd]
  rw [hr]

/-- What step 3 does to the packets: it writes the 16 kHz one alone, which then has the header
of a frame if one was decoded, and is otherwise refused by the converter unless there is no
decoder at all. -/
theorem decodePacket_spec (st : IngressState σ) {c : Call} (hc : c.Compact) :
    let before := ready fxns st c
    let now := decodePacket fxns before
    now.master = st.master ∧ now.lin08Khz = st.lin08Khz ∧ decoderOf now = decoderOf before ∧
      (Decoded fxns st c → now.lin16Khz.toUpdHeader = pcm16Header ∧ (decoderOf before).isSome) ∧
      (¬ Decoded fxns st c → is16KhzUpdPacketOk now.lin16Khz.toUpdHeader = false ∨
        now.lin16Khz = st.lin16Khz ∧ decoderOf before = none) := by
  intro before now
  obtain ⟨hm, -, h16, h08⟩ := ensureEvsDec_frame fxns
    { st with mbIptDataIo := createEvsUpdPacketCompact (words c.buff) c.size1 st.mbIptDataIo }
  obtain ⟨evsDec, hd⟩ := ensureEvsDec_evsDec fxns
    { st with mbIptDataIo := createEvsUpdPacketCompact (words c.buff) c.size1 st.mbIptDataIo }
  change before.evsDec = some evsDec at hd
  have hdec : decoderOf before = evsDec.internal := by
    rw [decoderOf, hd, Option.bind_some]
  rw [decoded_iff_accepted]
  cases hi : evsDec.internal with
  | none =>
    have hr := mEvsDec_of_none fxns before.codec
      { evsDec with outputSampleRateHz := lUpdWbSampleRateHz } before.mbIptDataIo
      before.lin16Khz hi
    have hnow : now = _ := decodePacket_eq fxns before hd hr
    rw [hnow]
    refine ⟨hm, h08, hdec.symm, ?_, fun _ => Or.inr ⟨h16, hdec.trans hi⟩⟩
    intro hall
    obtain ⟨-, internal, hinternal, -⟩ := hall
    rw [hdec, hi] at hinternal
    cases hinternal
  | some internal =>
    obtain ⟨extra, p, next, ecode, hr, hcase⟩ := mEvsDec_of_some fxns before.codec
      { evsDec with outputSampleRateHz := lUpdWbSampleRateHz } before.mbIptDataIo
      before.lin16Khz hi
    have hnow : now = _ := decodePacket_eq fxns before hd hr
    rw [hnow]
    refine ⟨hm, h08, hdec.symm, ?_, ?_⟩
    · intro hall
      obtain ⟨-, i, hinternal, ha⟩ := hall
      obtain rfl := Option.some.inj ((hdec.trans hi).symm.trans hinternal)
      rcases hcase with ⟨-, hp, -⟩ | ⟨-, -, hna⟩
      · exact ⟨hp, by rw [hinternal]; rfl⟩
      · exact absurd ⟨Or.inl (ready_form fxns st hc), ha⟩ hna
    · intro hnot
      rcases hcase with ⟨-, -, -, ha⟩ | ⟨-, hp, -⟩
      · exact absurd ⟨hc, internal, hdec.trans hi, ha⟩ hnot
      · exact Or.inl (noData_not_ok hp)

theorem ensureMaster_converter (st : IngressState σ)
    (h : ∀ master, st.master = some master → master.internal.isSome) :
    ∃ master internal, (ensureMaster allocated st).master = some master ∧
      master.internal = some internal := by
  cases hm : st.master with
  | none =>
    refine ⟨(mSrcDownInit ⟨0, none⟩ allocated).2, ⟨allocated⟩, ?_, rfl⟩
    simp only [ensureMaster, hm]
  | some master =>
    obtain ⟨internal, hi⟩ := Option.isSome_iff_exists.1 (h master hm)
    refine ⟨master, internal, ?_, hi⟩
    simp only [ensureMaster, hm]

theorem convertPacket_frame {st : IngressState σ} {master : MSrcDownData}
    {internal : MSrcDownInternal} (hm : st.master = some master)
    (hi : master.internal = some internal) (h : st.lin16Khz.toUpdHeader = pcm16Header) :
    convertPacket st =
      { st with
        master := some ⟨0, some (downsample internal st.lin16Khz.payload.cells 160).1⟩
        lin08Khz := { st.lin08Khz with
          toUpdHeader := pcm08Header
          payload := st.lin08Khz.payload.write 0
            (downsample internal st.lin16Khz.payload.cells 160).2 } } := by
  simp only [convertPacket, hm]
  rw [mSrcDown_accepted master st.lin16Khz st.lin08Khz hi h]
  rfl

theorem convertPacket_refused {st : IngressState σ} {master : MSrcDownData}
    (hm : st.master = some master) (h : is16KhzUpdPacketOk st.lin16Khz.toUpdHeader = false) :
    ∃ extra, convertPacket st = { st with master := some { master with extraEcode := extra } } := by
  obtain ⟨ecode, extra, hr⟩ := mSrcDown_refused master st.lin16Khz st.lin08Khz h
  refine ⟨extra, ?_⟩
  simp only [convertPacket, hm]
  rw [hr]
  rfl

theorem decoderOf_ensureMaster (st : IngressState σ) :
    decoderOf (ensureMaster allocated st) = decoderOf st := by
  obtain ⟨he, -⟩ := ensureMaster_frame allocated st
  unfold decoderOf
  rw [he]

theorem decoderOf_ready (st : IngressState σ) (c : Call) (h : (decoderOf st).isSome) :
    (decoderOf (ready fxns st c)).isSome := by
  unfold ready
  rw [ensureEvsDec_decoderOf]
  · exact h
  · exact h

/-- The state in which step 4 meets the packet of step 3. -/
theorem beforeConvert_spec {heard : Prop} {st : IngressState σ} (h : Scratch heard st) {c : Call}
    (hc : c.Compact) :
    let now := ensureMaster allocated (decodePacket fxns (ready fxns st c))
    (∃ master internal, now.master = some master ∧ master.internal = some internal) ∧
      now.lin08Khz = st.lin08Khz ∧ decoderOf now = decoderOf (ready fxns st c) ∧
      (Decoded fxns st c → now.lin16Khz.toUpdHeader = pcm16Header ∧ (decoderOf now).isSome) ∧
      (¬ Decoded fxns st c → is16KhzUpdPacketOk now.lin16Khz.toUpdHeader = false) := by
  obtain ⟨hm, h08, hdec, hyes, hno⟩ := decodePacket_spec fxns st hc
  obtain ⟨-, -, -, h16m, h08m⟩ := ensureMaster_frame allocated (decodePacket fxns (ready fxns st c))
  have hconv := ensureMaster_converter allocated (decodePacket fxns (ready fxns st c))
    (by rw [hm]; exact h.converter)
  refine ⟨hconv, h08m.trans h08, (decoderOf_ensureMaster allocated _).trans hdec, ?_, ?_⟩
  · intro hd
    obtain ⟨hp, hsome⟩ := hyes hd
    rw [h16m, decoderOf_ensureMaster, hdec]
    exact ⟨hp, hsome⟩
  · intro hd
    rw [h16m]
    rcases hno hd with hbad | ⟨hsame, hnone⟩
    · exact hbad
    · -- without a decoder no frame can have been decoded before
      have hquiet : ¬ heard := by
        intro hheard
        have hs := decoderOf_ready fxns st c (h.sounding hheard).2
        rw [hnone] at hs
        cases hs
      rw [hsame]
      exact (h.silent hquiet).2

theorem scratch_decoded {heard : Prop} {st : IngressState σ} (h : Scratch heard st) {c : Call}
    (hd : Decoded fxns st c) : Scratch True ((ingress fxns allocated).step st c).1 := by
  obtain ⟨⟨master, internal, hmaster, hi⟩, -, -, hyes, -⟩ :=
    beforeConvert_spec fxns allocated h hd.1
  obtain ⟨hp, hsome⟩ := hyes hd
  rw [(step_compact fxns allocated st hd.1).1, convertPacket_frame hmaster hi hp]
  refine ⟨?_, fun hn => absurd trivial hn, fun _ => ⟨rfl, hsome⟩⟩
  intro m hm
  obtain rfl := Option.some.inj hm
  rfl

theorem scratch_refused {heard : Prop} {st : IngressState σ} (h : Scratch heard st) {c : Call}
    (hc : c.Compact) (hd : ¬ Decoded fxns st c) :
    Scratch heard ((ingress fxns allocated).step st c).1 := by
  obtain ⟨⟨master, internal, hmaster, hi⟩, h08, hdec, -, hno⟩ :=
    beforeConvert_spec fxns allocated h hc
  obtain ⟨extra, hconv⟩ := convertPacket_refused hmaster (hno hd)
  rw [(step_compact fxns allocated st hc).1, hconv]
  refine ⟨?_, fun hn => ⟨?_, hno hd⟩, fun hheard => ⟨?_, ?_⟩⟩
  · intro m hm
    obtain rfl := Option.some.inj hm
    exact Option.isSome_iff_exists.2 ⟨internal, hi⟩
  · exact (congrArg (·.toUpdHeader) h08).trans (h.silent hn).1
  · exact (congrArg (·.toUpdHeader) h08).trans (h.sounding hheard).1
  · exact (congrArg Option.isSome hdec).trans (decoderOf_ready fxns st c (h.sounding hheard).2)

theorem scratch_other {heard : Prop} {st : IngressState σ} (h : Scratch heard st) {c : Call}
    (hc : ¬ c.Compact) : Scratch heard ((ingress fxns allocated).step st c).1 := by
  obtain ⟨hm, -, h16, h08⟩ := ensureEvsDec_frame fxns st
  obtain ⟨-, -, -, h16m, h08m⟩ := ensureMaster_frame allocated (ensureEvsDec fxns st)
  obtain ⟨master, internal, hmaster, hi⟩ := ensureMaster_converter allocated
    (ensureEvsDec fxns st) (by rw [hm]; exact h.converter)
  rw [(step_other fxns allocated st hc).1]
  refine ⟨?_, fun hn => ?_, fun hheard => ?_⟩
  · intro m hm'
    obtain rfl := Option.some.inj (hmaster.symm.trans hm')
    exact Option.isSome_iff_exists.2 ⟨internal, hi⟩
  · rw [h08m, h08, h16m, h16]
    exact h.silent hn
  · obtain ⟨hs, hsome⟩ := h.sounding hheard
    rw [h08m, h08, decoderOf_ensureMaster, ensureEvsDec_decoderOf fxns st hsome]
    exact ⟨hs, hsome⟩

/-- One call: a decoded frame makes itself heard, everything else changes nothing. -/
theorem scratch_step {heard : Prop} {st : IngressState σ} (h : Scratch heard st) (c : Call) :
    Scratch (heard ∨ Decoded fxns st c) ((ingress fxns allocated).step st c).1 := by
  by_cases hd : Decoded fxns st c
  · have ht : (heard ∨ Decoded fxns st c) = True := propext ⟨fun _ => trivial, fun _ => Or.inr hd⟩
    rw [ht]
    exact scratch_decoded fxns allocated h hd
  · have hsame : (heard ∨ Decoded fxns st c) = heard := propext (or_iff_left hd)
    rw [hsame]
    by_cases hc : c.Compact
    · exact scratch_refused fxns allocated h hc hd
    · exact scratch_other fxns allocated h hc

def Heard (codec : σ) (calls : List Call) : Prop :=
  (ingress fxns allocated).Occurs (IngressState.initial codec) calls (Decoded fxns)

theorem scratch_run (codec : σ) (calls : List Call) :
    Scratch (Heard fxns allocated codec calls)
      ((ingress fxns allocated).after (IngressState.initial codec) calls) := by
  refine Machine.after_history _ (P := fun calls st => Scratch (Heard fxns allocated codec calls) st)
    ?_ ?_ calls
  · have hn : Heard fxns allocated codec [] = False :=
      propext ⟨Machine.not_occurs_nil _ _ _, False.elim⟩
    rw [hn]
    exact scratch_initial codec
  · intro calls c ih
    have hc : Heard fxns allocated codec (calls ++ [c]) = _ :=
      propext (Machine.occurs_concat _ _ calls c (Decoded fxns))
    rw [hc]
    exact scratch_step fxns allocated ih c

theorem returnPcm_blank {st : IngressState σ} (h : st.lin08Khz.toUpdHeader = blankHeader)
    (bufOut : List Uint8) : returnPcm st bufOut = (bufOut, 0) := by
  have hs : toUint16 (size1To8 (lUpdGetPayloadSize1 blankHeader)) = 0 := by decide
  rw [returnPcm, h, hs, List.take_zero, Buffer.blit_nil]

theorem returnPcm_frame {st : IngressState σ} (h : st.lin08Khz.toUpdHeader = pcm08Header)
    (bufOut : List Uint8) :
    returnPcm st bufOut =
      (Buffer.blit bufOut 0 ((octets st.lin08Khz.payload.cells).take 320), 320) := by
  have hs : toUint16 (size1To8 (lUpdGetPayloadSize1 pcm08Header)) = 320 := by decide
  unfold returnPcm
  rw [h, hs]

/-- A compact payload is answered with 20 ms once a frame has been decoded, be it this one. -/
theorem answer_heard {heard : Prop} {st : IngressState σ} (h : Scratch heard st) {c : Call}
    (hc : c.Compact) (hh : heard ∨ Decoded fxns st c) (bufOut : List Uint8) (lenOut8 : Nat) :
    ((ingress fxns allocated).step st c).2 bufOut lenOut8 =
      (Buffer.blit bufOut 0
        ((octets ((ingress fxns allocated).step st c).1.lin08Khz.payload.cells).take 320), 320) := by
  have hnext := scratch_step fxns allocated h c
  rw [(step_compact fxns allocated st hc).2, returnPcm_frame (hnext.sounding hh).1]

/-- Before that nothing is returned, and nothing is ever returned for other payloads. -/
theorem answer_quiet {heard : Prop} {st : IngressState σ} (h : Scratch heard st) {c : Call}
    (hq : c.Compact → ¬ (heard ∨ Decoded fxns st c)) (bufOut : List Uint8) (lenOut8 : Nat) :
    (((ingress fxns allocated).step st c).2 bufOut lenOut8).1 = bufOut ∧
      (lenOut8 = 0 → (((ingress fxns allocated).step st c).2 bufOut lenOut8).2 = 0) := by
  by_cases hc : c.Compact
  · have hnext := scratch_step fxns allocated h c
    rw [(step_compact fxns allocated st hc).2, returnPcm_blank (hnext.silent (hq hc)).1]
    exact ⟨rfl, fun _ => rfl⟩
  · rw [(step_other fxns allocated st hc).2]
    exact ⟨rfl, id⟩

/-- A run returns PCM for an undecoded payload exactly if the codec refuses a compact payload
after it has accepted one. -/
theorem noStaleAudio_iff (codec : σ) (calls : List Call) :
    NoStaleAudio fxns allocated codec calls ↔
      (ingress fxns allocated).Throughout (IngressState.initial codec) calls fun pre st c =>
        (ingress fxns allocated).Occurs (IngressState.initial codec) pre (Accepted fxns) →
          c.Compact → Accepted fxns st c := by
  have hsame : Accepted fxns = Decoded fxns := by
    funext st c
    exact propext (decoded_iff_accepted fxns st c).symm
  rw [hsame]
  constructor
  · intro h
    refine h.mono _ fun pre c hstep hheard hc => ?_
    by_contra hd
    have hlen := (hstep hd [] 0).2 rfl
    rw [answer_heard fxns allocated (scratch_run fxns allocated codec pre) hc
      (Or.inl hheard)] at hlen
    cases hlen
  · intro h
    refine h.mono _ fun pre c hstep hd bufOut lenOut8 => ?_
    refine answer_quiet fxns allocated (scratch_run fxns allocated codec pre) ?_ bufOut lenOut8
    intro hc hall
    rcases hall with hheard | hnow
    · exact hd (hstep hheard hc)
    · exact hd hnow

end

def firstFrameOnly : UscFxns Nat := countingCodec fun i => if i = 0 then uscNoError else -1

def frame144 : Call := ⟨List.replicate 1488 0, 18⟩

/-- The second of two frames is not decoded, and 320 octets are returned for it. -/
theorem stale_second_frame :
    ¬ NoStaleAudio firstFrameOnly (Buffer.replicate _ 0) 0 [frame144, frame144] := by
  intro h
  have hc : frame144.Compact := by decide
  have hfirst : Decoded firstFrameOnly (IngressState.initial 0) frame144 :=
    (decoded_iff_accepted _ _ _).2 ⟨hc, ⟨0x1000, 0x2000, 0⟩, rfl, rfl, rfl⟩
  have hsecond : ¬ Decoded firstFrameOnly ((ingress firstFrameOnly (Buffer.replicate _ 0)).step
      (IngressState.initial 0) frame144).1 frame144 := by
    rw [decoded_iff_accepted]
    intro hall
    obtain ⟨-, internal, -, -, hrefused⟩ := hall
    have hstatus : (-1 : UscStatus) = uscNoError := hrefused
    exact absurd hstatus (by decide)
  have hlen := (h [frame144] frame144 [] rfl hsecond [] 0).2 rfl
  have hheard := scratch_step firstFrameOnly (Buffer.replicate _ 0) (scratch_initial 0) frame144
  have hanswer := answer_heard firstFrameOnly (Buffer.replicate _ 0) hheard hc
    (Or.inl (Or.inr hfirst)) [] 0
  exact absurd (hlen.symm.trans (congrArg Prod.snd hanswer)) (by decide)

end RtpServer.Verify.StaleAudio
