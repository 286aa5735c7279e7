import RtpServer.Verify.FirstOctet

/-!
# Codec mode requests

The request of the header-full format, whose first word holds H, T and D from the most
significant bit down, and the request sent back to a peer that uses a mode not configured.
-/
namespace RtpServer.Verify.ModeRequest

open RtpServer.Source RtpServer.Library RtpServer.Library.Bits
open RtpServer.Source.TypeDef RtpServer.Source.Mgw RtpServer.Source.Upd
open RtpServer.Source.EvsIngress RtpServer.Source.EvsCmr RtpServer.Verify.FirstOctet

/-- The sub-fields of the request octet, which is the upper one of word `w`. -/
def cmrH (w : Uint16) : Bool := w.msb
def cmrT (w : Uint16) : BitVec 3 := w.extractLsb' 12 3
def cmrD (w : Uint16) : BitVec 4 := w.extractLsb' 8 4

theorem bitAt_zero (payload : List Uint16) : bitAt payload 0 = cmrH (payloadWord payload 0) := rfl

/-- A sub-field of the word, cut out by a shift and a mask of its width. -/
theorem shifted_masked_eq (w : Uint16) (start : Nat) {width : Nat} {mask : Uint16}
    (hmask : ∀ j < 8, mask.getLsbD j = decide (j < width)) :
    ((w >>> start) &&& mask).setWidth 8 = (w.extractLsb' start width).setWidth 8 := by
  apply BitVec.eq_of_getLsbD_eq
  intro j hj
  rw [BitVec.getLsbD_setWidth, BitVec.getLsbD_setWidth, BitVec.getLsbD_and,
    BitVec.getLsbD_ushiftRight, hmask j hj, BitVec.getLsbD_extractLsb', Bool.and_comm
    (w.getLsbD _)]

theorem ingress_eq_cmrD (w : Uint16) :
    ((w >>> 8) &&& 0x000F).setWidth 8 = (cmrD w).setWidth 8 :=
  shifted_masked_eq w 8 (by decide)

/-- What the code takes for T are its two lower bits and the upper bit of D. -/
theorem ingressT_eq (w : Uint16) :
    ((w >>> 11) &&& 0x0007).setWidth 8 = (w.extractLsb' 11 3).setWidth 8 :=
  shifted_masked_eq w 11 (by decide)

/-- T and D3 are four equal bits. -/
def Uniform (w : Uint16) : Prop :=
  w.getLsbD 14 = w.getLsbD 13 ∧ w.getLsbD 13 = w.getLsbD 12 ∧ w.getLsbD 12 = w.getLsbD 11

instance (w : Uint16) : Decidable (Uniform w) := inferInstanceAs (Decidable (_ ∧ _ ∧ _))

theorem extract_eq_cmrT_iff (w : Uint16) : w.extractLsb' 11 3 = cmrT w ↔ Uniform w := by
  constructor
  · intro h
    have hbit : ∀ j < 3, w.getLsbD (11 + j) = w.getLsbD (12 + j) := by
      intro j hj
      have hj' := congrArg (BitVec.getLsbD · j) h
      simpa only [cmrT, BitVec.getLsbD_extractLsb', decide_eq_true hj, Bool.true_and] using hj'
    exact ⟨(hbit 2 (by decide)).symm, (hbit 1 (by decide)).symm, (hbit 0 (by decide)).symm⟩
  · intro h
    obtain ⟨h14, h13, h12⟩ := h
    apply BitVec.eq_of_getLsbD_eq
    intro j hj
    rw [cmrT, BitVec.getLsbD_extractLsb', BitVec.getLsbD_extractLsb']
    match j, hj with
    | 0, _ => rw [h12]
    | 1, _ => rw [h13]
    | 2, _ => rw [h14]

theorem setWidth_inj {a b : BitVec 3} (h : a.setWidth 8 = b.setWidth 8) : a = b := by
  have hback : ∀ c : BitVec 3, (c.setWidth 8).setWidth 3 = c := by decide
  rw [← hback a, ← hback b, h]

/-- The request of the payload is stored, and nothing is changed where there is none. -/
structure StoresRequest (payload : List Uint16) (prior after : RtpCmrData) : Prop where
  requested : cmrH (payloadWord payload 0) = true →
    after.ingressT = (cmrT (payloadWord payload 0)).setWidth 8 ∧
      after.ingress = (cmrD (payloadWord payload 0)).setWidth 8 ∧
      after.ingressCamOffset = (mapCamOffset ((cmrT (payloadWord payload 0)).setWidth 8)
        ((cmrD (payloadWord payload 0)).setWidth 8)).setWidth 4 ∧
      after.ingressCamOffsetPrevious = prior.ingressCamOffset ∧
      after.isCmrReceived = 1
  absent : cmrH (payloadWord payload 0) = false → after = prior

theorem storesRequest_iff {payload : List Uint16} (hroom : 2 ≤ payload.length) {evsMode : BitVec 4}
    (hmode : evsMode = updEvsPrimaryMode ∨ evsMode = updEvsWbioMode) (prior : RtpCmrData)
    (params : Params) (updPacket : UpdHeader) :
    StoresRequest payload prior
        (updateEvsCmrData prior params payload updPacket evsMode .full) ↔
      (cmrH (payloadWord payload 0) = true → Uniform (payloadWord payload 0)) := by
  have hcheck := checkIfCmr_iff hroom
  rw [bitAt_zero] at hcheck
  have hfull : updateEvsCmrData prior params payload updPacket evsMode .full =
      if checkIfCmr payload then
        { prior with
          previousIngressMode := updPacket.mode
          egress := BitVec.ofNat 8 (getEgressEvsCmr updPacket prior.egress.toNat params evsMode)
          ingress := (cmrD (payloadWord payload 0)).setWidth 8
          ingressT := ((payloadWord payload 0).extractLsb' 11 3).setWidth 8
          ingressCamOffsetPrevious := prior.ingressCamOffset
          ingressCamOffset := (mapCamOffset
            (((payloadWord payload 0).extractLsb' 11 3).setWidth 8)
            ((cmrD (payloadWord payload 0)).setWidth 8)).setWidth 4
          isCmrReceived := 1 }
      else prior := by
    rw [updateEvsCmrData, if_neg (fun h => EvsHdrFmt.noConfusion h.1), if_pos ⟨rfl, hmode.symm⟩]
    simp only [ingress_eq_cmrD, ingressT_eq]
  rw [hfull]
  cases hH : cmrH (payloadWord payload 0) with
  | false =>
    rw [hH] at hcheck
    rw [if_neg (mt hcheck.1 Bool.false_ne_true)]
    exact ⟨fun _ h => absurd h Bool.false_ne_true, fun _ =>
      ⟨fun h => absurd (hH.symm.trans h) Bool.false_ne_true, fun _ => rfl⟩⟩
  | true =>
    rw [if_pos (hcheck.2 hH)]
    constructor
    · intro h _
      exact (extract_eq_cmrT_iff _).1 (setWidth_inj (h.requested hH).1)
    · intro h
      have hT := (extract_eq_cmrT_iff _).2 (h rfl)
      refine ⟨fun _ => ⟨?_, rfl, ?_, rfl, rfl⟩, fun habsent =>
        absurd (hH.symm.trans habsent) (Bool.false_ne_true ∘ Eq.symm)⟩
      · rw [hT]
      · rw [hT]

theorem storesRequest_iff_narrowband :
    StoresRequest [0x8200, 0] noCmr
      (updateEvsCmrData noCmr ⟨0, 0⟩ [0x8200, 0] ⟨updCodecEvs, 1, 0, 0⟩ updEvsPrimaryMode .full) :=
  (storesRequest_iff (show 2 ≤ ([0x8200, 0] : List Uint16).length by decide) (Or.inl rfl) noCmr
    ⟨0, 0⟩ ⟨updCodecEvs, 1, 0, 0⟩).2 (fun _ => by decide)

/-- A channel-aware request with offset 7 is stored as T = 2 and no offset. -/
theorem storesRequest_channel_aware :
    let after := updateEvsCmrData noCmr ⟨0, 0⟩ [0xD300, 0] ⟨updCodecEvs, 1, 0, 0⟩
      updEvsPrimaryMode .full
    cmrT 0xD300 = 5 ∧ after.ingressT = 2 ∧ mapCamOffset 5 3 = 7 ∧ after.ingressCamOffset = 15 ∧
      ¬ StoresRequest [0xD300, 0] noCmr after := by
  refine ⟨by decide, by decide, by decide, by decide, fun h => ?_⟩
  exact absurd (h.requested (by decide)).1 (by decide)

/-- The modes a configuration allows. -/
def configuredModes (evsMode : BitVec 4) (params : Params) : List Nat :=
  if evsMode = updEvsWbioMode then (List.range 9).filter fun mode => params.modeSet.getLsbD mode
  else [params.br.toNat]

/-- The request for a peer that sends `mode` while `old` is the request so far. -/
def requestFor (modes : List Nat) (mode old : Nat) : Nat :=
  if old = 15 ∧ mode ≠ 15 ∧ mode ∉ modes then modes.max?.getD 15 else old

theorem lMgwIsModeInModeSet_eq (mode : Nat) (modeSet : Uint16) :
    lMgwIsModeInModeSet mode modeSet = modeSet.getLsbD mode := by
  have hone : ∀ j < 16, (1 : Uint16).getLsbD j = decide (j = 0) := by decide
  have hbit : (modeSet >>> mode &&& 1 = 1) ↔ modeSet.getLsbD mode = true := by
    constructor
    · intro h
      have h0 := congrArg (BitVec.getLsbD · 0) h
      rw [BitVec.getLsbD_and, BitVec.getLsbD_ushiftRight, hone 0 (by decide)] at h0
      simpa using h0
    · intro h
      apply BitVec.eq_of_getLsbD_eq
      intro j hj
      rw [BitVec.getLsbD_and, BitVec.getLsbD_ushiftRight, hone j hj]
      by_cases h0 : j = 0
      · rw [h0, Nat.add_zero, h]
        rfl
      · rw [decide_eq_false h0, Bool.and_false]
  rw [lMgwIsModeInModeSet]
  exact Bool.eq_iff_iff.2 ((decide_eq_true_iff).trans hbit)

/-- The loop, by induction on the rounds left: it finds the highest mode not yet passed. -/
theorem highestFrom_eq (modeSet : Uint16) (maxMode n i : Nat) (hn : i + n = maxMode + 1) :
    highestFrom modeSet maxMode n i =
      ((List.range n).filter fun mode => modeSet.getLsbD mode).max?.getD 15 := by
  induction n generalizing i with
  | zero => rfl
  | succ n ih =>
    have hmode : maxMode - i = n := by omega
    have htest := lMgwIsModeInModeSet_eq n modeSet
    rw [highestFrom, hmode, List.range_succ, List.filter_append]
    by_cases hset : modeSet.getLsbD n = true
    · rw [hset, lMgwIsModeInModeSet, decide_eq_true_iff] at htest
      have hmax : ((List.range n).filter (fun mode => modeSet.getLsbD mode) ++
          [n].filter fun mode => modeSet.getLsbD mode).max? = some n := by
        refine List.max?_eq_some_iff.2 ⟨List.mem_append_right _ (by simp [hset]), fun m hm => ?_⟩
        rcases List.mem_append.1 hm with hm | hm
        · exact Nat.le_of_lt (List.mem_range.1 (List.mem_filter.1 hm).1)
        · exact Nat.le_of_eq (List.mem_singleton.1 (List.mem_filter.1 hm).1)
      rw [if_pos htest, hmax, Option.getD_some]
    · rw [Bool.not_eq_true] at hset
      rw [hset, lMgwIsModeInModeSet, decide_eq_false_iff_not] at htest
      rw [if_neg htest, ih (i + 1) (by omega), List.filter_cons_of_neg (by rw [hset]; decide),
        List.filter_nil, List.append_nil]

theorem not_mem_wbio_iff {evsMode : BitVec 4} (hwbio : evsMode = updEvsWbioMode) (params : Params)
    {mode : Nat} (hmode : mode < 9) :
    mode ∉ configuredModes evsMode params ↔ lMgwIsModeInModeSet mode params.modeSet = false := by
  rw [configuredModes, if_pos hwbio, List.mem_filter, lMgwIsModeInModeSet_eq, List.mem_range,
    not_and, Bool.not_eq_true]
  exact ⟨fun h => h hmode, fun h _ => h⟩

/-- In AMR-WB IO mode the mode set is the configuration. -/
theorem getEgressEvsCmr_wbio {updPacket : UpdHeader} (oldCmr : Nat) (params : Params)
    (hpacket : updPacket.mode.toNat < 9 ∨ updPacket.mode.toNat = 15) :
    getEgressEvsCmr updPacket oldCmr params updEvsWbioMode =
      requestFor (configuredModes updEvsWbioMode params) updPacket.mode.toNat oldCmr := by
  have hhighest : lMgwGetHighestEvsMode updEvsWbioMode params.modeSet =
      (configuredModes updEvsWbioMode params).max?.getD 15 :=
    highestFrom_eq params.modeSet 8 9 0 rfl
  change (if oldCmr = 15 ∧ updPacket.mode.toNat ≠ 15 ∧
    lMgwIsModeInModeSet updPacket.mode.toNat params.modeSet = false then
      lMgwGetHighestEvsMode updEvsWbioMode params.modeSet else oldCmr) = _
  rw [hhighest, requestFor]
  rcases hpacket with hmode | hmode
  · simp only [not_mem_wbio_iff rfl params hmode]
  · rw [if_neg (fun h => h.2.1 hmode), if_neg (fun h => h.2.1 hmode)]

/-- In Primary mode the code takes the number of the configured mode for a set of modes: only
mode 0 is answered as configured, and only where the peer already sends it. -/
theorem primary_answer : ∀ br < 12, ∀ mode < 12,
    (if 15 = 15 ∧ mode ≠ 15 ∧ lMgwIsModeInModeSet mode (BitVec.ofNat 16 br) = false then
        lMgwGetHighestEvsMode updEvsPrimaryMode (BitVec.ofNat 16 br) else 15) =
      requestFor [br] mode 15 ↔ mode = 0 ∧ br = 0 := by
  decide

theorem getEgressEvsCmr_primary {updPacket : UpdHeader} (oldCmr : Nat) (params : Params)
    (hbr : params.br.toNat < 12)
    (hpacket : updPacket.mode.toNat < 12 ∨ updPacket.mode.toNat = 15) :
    getEgressEvsCmr updPacket oldCmr params updEvsPrimaryMode =
        requestFor (configuredModes updEvsPrimaryMode params) updPacket.mode.toNat oldCmr ↔
      oldCmr ≠ 15 ∨ updPacket.mode.toNat = 15 ∨
        (updPacket.mode.toNat = 0 ∧ params.br.toNat = 0) := by
  change (if oldCmr = 15 ∧ updPacket.mode.toNat ≠ 15 ∧
    lMgwIsModeInModeSet updPacket.mode.toNat params.br = false then
      lMgwGetHighestEvsMode updEvsPrimaryMode params.br else oldCmr) =
        requestFor [params.br.toNat] _ _ ↔ _
  by_cases hold : oldCmr = 15
  · rcases hpacket with hmode | hmode
    · have hanswer := primary_answer _ hbr _ hmode
      rw [BitVec.ofNat_toNat, BitVec.setWidth_eq] at hanswer
      rw [hold, hanswer]
      constructor
      · intro h
        exact Or.inr (Or.inr h)
      · intro h
        rcases h with h | h | h
        · exact absurd rfl h
        · omega
        · exact h
    · rw [requestFor, if_neg (fun h => h.2.1 hmode), if_neg (fun h => h.2.1 hmode)]
      exact ⟨fun _ => Or.inr (Or.inl hmode), fun _ => rfl⟩
  · rw [requestFor, if_neg (fun h => hold h.1), if_neg (fun h => hold h.1)]
    exact ⟨fun _ => Or.inl hold, fun _ => rfl⟩

/-- The request sent back is the configured one; so it is a configured mode where it changes,
and a peer that sends a configured mode is left alone. -/
structure RequestsConfigured (updPacket : UpdHeader) (oldCmr : Nat) (params : Params)
    (evsMode : BitVec 4) : Prop where
  request : getEgressEvsCmr updPacket oldCmr params evsMode =
    requestFor (configuredModes evsMode params) updPacket.mode.toNat oldCmr
  configured : getEgressEvsCmr updPacket oldCmr params evsMode = oldCmr ∨
    getEgressEvsCmr updPacket oldCmr params evsMode = 15 ∨
    getEgressEvsCmr updPacket oldCmr params evsMode ∈ configuredModes evsMode params
  kept : updPacket.mode.toNat ∈ configuredModes evsMode params →
    getEgressEvsCmr updPacket oldCmr params evsMode = oldCmr

theorem requestsConfigured_of_request {updPacket : UpdHeader} {oldCmr : Nat} {params : Params}
    {evsMode : BitVec 4}
    (h : getEgressEvsCmr updPacket oldCmr params evsMode =
      requestFor (configuredModes evsMode params) updPacket.mode.toNat oldCmr) :
    RequestsConfigured updPacket oldCmr params evsMode := by
  refine ⟨h, ?_, fun hmem => ?_⟩
  · rw [h, requestFor]
    split
    · cases hmax : (configuredModes evsMode params).max? with
      | none => exact Or.inr (Or.inl rfl)
      | some mode => exact Or.inr (Or.inr (List.max?_eq_some_iff.1 hmax).1)
    · exact Or.inl rfl
  · rw [h, requestFor, if_neg (fun hnot => hnot.2.2 hmem)]

/-- Packet modes of a codec mode: its speech modes and 15. -/
def IsPacketMode (evsMode : BitVec 4) (mode : Nat) : Prop :=
  mode < (if evsMode = updEvsWbioMode then updNumberOfEvsWbioModes else updNumberOfEvsPrimaryModes) ∨
    mode = updModeEvsNa

theorem requestsConfigured_iff {updPacket : UpdHeader} {params : Params} {evsMode : BitVec 4}
    (hmode : evsMode = updEvsPrimaryMode ∨ evsMode = updEvsWbioMode)
    (hbr : evsMode = updEvsPrimaryMode → params.br.toNat < updNumberOfEvsPrimaryModes)
    (hpacket : IsPacketMode evsMode updPacket.mode.toNat) (oldCmr : Nat) :
    RequestsConfigured updPacket oldCmr params evsMode ↔
      evsMode = updEvsWbioMode ∨ oldCmr ≠ 15 ∨ updPacket.mode.toNat = 15 ∨
        (updPacket.mode.toNat = 0 ∧ params.br.toNat = 0) := by
  rcases hmode with rfl | rfl
  · have hiff := getEgressEvsCmr_primary oldCmr params (hbr rfl) hpacket
    constructor
    · intro h
      exact Or.inr (hiff.1 h.request)
    · intro h
      rcases h with h | h
      · exact absurd h (by decide)
      · exact requestsConfigured_of_request (hiff.2 h)
  · exact ⟨fun _ => Or.inl rfl, fun _ =>
      requestsConfigured_of_request (getEgressEvsCmr_wbio oldCmr params hpacket)⟩

theorem requestsConfigured_iff_wbio :
    RequestsConfigured ⟨updCodecEvs, 1, 8, 1⟩ 15 ⟨6, 0x0085⟩ updEvsWbioMode :=
  (requestsConfigured_iff (Or.inr rfl) (fun _ => show (6 : Uint16).toNat < 12 by decide)
    (show IsPacketMode updEvsWbioMode (8 : BitVec 4).toNat from Or.inl (by decide)) 15).2
    (Or.inl rfl)

/-- A Primary peer that sends the one configured mode, 24400, is asked for mode 8000. -/
theorem requestsConfigured_primary :
    getEgressEvsCmr ⟨updCodecEvs, 1, 6, 0⟩ 15 ⟨6, 0⟩ updEvsPrimaryMode = 2 ∧
      ¬ RequestsConfigured ⟨updCodecEvs, 1, 6, 0⟩ 15 ⟨6, 0⟩ updEvsPrimaryMode := by
  refine ⟨by decide, fun h => ?_⟩
  exact absurd (h.kept (by decide)) (by decide)

end RtpServer.Verify.ModeRequest
