import RtpServer.Verify.Clients
import RtpServer.Verify.EvsModules
import RtpServer.Verify.FirstOctet
import RtpServer.Verify.FrameRates

/-!
# The session behind the server

The server over the EVS codec, down to the decoder object of the library, is a machine with
five variables: the counters, the decoder, the delay line, the two PCM buffers and whether a
frame has been decoded. What a datagram means to it is decided by its payload octets alone.
-/
namespace RtpServer.Verify.AudioSession

open RtpServer.Library RtpServer.Library.LittleEndian RtpServer.Source RtpServer.Source.TypeDef
open RtpServer.Source.Upd RtpServer.Source.Usc RtpServer.Source.EvsCodec RtpServer.Source.UscEvs
open RtpServer.Source.SampleRate RtpServer.Source.EvsIngress RtpServer.Source.RtpProcess
open RtpServer.Verify.Decoder RtpServer.Verify.HandOver RtpServer.Verify.FrameRates
open RtpServer.Verify.FirstOctet RtpServer.Verify.Response RtpServer.Verify.StaleAudio
open RtpServer.Verify.ServerRuns RtpServer.Verify.Clients RtpServer.Verify.EvsOpening
open RtpServer.Verify.EvsModules
open RtpServer.Verify.EvsWrapper (silentLib)

/-- What the decoder object is given: the rate, the mark of a bad frame and the memory. -/
structure Frame where
  rate : Int
  bad : Sint16
  memory : List Uint8
  deriving DecidableEq

/-- The octets behind the first 12 that were received. -/
def payloadOf (datagram : List Uint8) : List Uint8 := (datagram.take requestBuffSize).drop 12

/-- A payload that the ingress processing takes for a Primary frame: one of the compact sizes, of
which 7 octets are refused when the top bit of octet 1 is set. -/
def isFrame (p : List Uint8) : Bool :=
  8 * p.length ∈ compactPrimaryOnlySizes || (p.length = 7 && !(p.getD 1 0).msb)

/-- The memory behind the pointer that the decoder gets: the payload, then zeros. The last octet
of a payload of 7, 33, 41 or 61 octets is lost and reads as 0. -/
def frameMemory (p : List Uint8) : List Uint8 :=
  (if p.length % 2 = 0 then p else p.dropLast ++ [0]) ++ List.replicate (1306 - p.length) 0

/-- A SID frame is read for a mode and a type in its last octet, and lost when the mode read there
is 12 to 15. All other frames have the rate of their size. -/
def frameOf (p : List Uint8) : Option Frame :=
  if p.length = 6 then
    let last := p.getD 5 0
    if (last &&& 0x0F).toNat < 12 then
      some ⟨primaryRates.getD (last &&& 0x0F).toNat 0, if last &&& 0x10 = 0 then 1 else 0,
        frameMemory p⟩
    else none
  else some ⟨if p.length = 7 then 2400 else 50 * (8 * p.length), 0, frameMemory p⟩

/-- What a payload gives the decoder. -/
def arrival (p : List Uint8) : Option Frame := if isFrame p then frameOf p else none

/-- A payload of frame size of which nothing reaches the decoder. -/
def Dropped (p : List Uint8) : Prop :=
  p.length = 6 ∧ 12 ≤ (p.getD 5 0 &&& 0x0F).toNat ∨ p.length = 7 ∧ (p.getD 1 0).msb = true

instance : DecidablePred Dropped := fun p =>
  inferInstanceAs (Decidable (p.length = 6 ∧ 12 ≤ (p.getD 5 0 &&& 0x0F).toNat ∨
    p.length = 7 ∧ (p.getD 1 0).msb = true))

/-- What the decoder makes of a payload that reaches it: a SID frame is marked as a bad one when
bit 4 of its last octet is not set. -/
def heardAs (p : List Uint8) : Frame :=
  if p.length = 6 then
    ⟨primaryRates.getD (p.getD 5 0 &&& 0x0F).toNat 0, if p.getD 5 0 &&& 0x10 = 0 then 1 else 0,
      frameMemory p⟩
  else ⟨if p.length = 7 then 2400 else 50 * (8 * p.length), 0, frameMemory p⟩

theorem heardAs_memory (p : List Uint8) : (heardAs p).memory = frameMemory p := by
  rw [heardAs]
  split <;> rfl

theorem isFrame_iff (p : List Uint8) :
    isFrame p = true ↔
      IsPrimaryCompact (8 * p.length) ∧ ¬ (p.length = 7 ∧ (p.getD 1 0).msb = true) := by
  by_cases h7 : p.length = 7
  · simp [isFrame, IsPrimaryCompact, h7, compactPrimaryOnlySizes]
  · have h56 : ¬ 8 * p.length = 56 := by omega
    simp [isFrame, IsPrimaryCompact, h7, h56]

theorem frameOf_eq (p : List Uint8) :
    frameOf p =
      if p.length = 6 ∧ 12 ≤ (p.getD 5 0 &&& 0x0F).toNat then none else some (heardAs p) := by
  by_cases h6 : p.length = 6
  · have hframe : frameOf p =
        if (p.getD 5 0 &&& 0x0F).toNat < 12 then some (heardAs p) else none := by
      rw [frameOf, heardAs, if_pos h6, if_pos h6]
    rw [hframe]
    by_cases hmode : (p.getD 5 0 &&& 0x0F).toNat < 12
    · rw [if_pos hmode, if_neg fun h => absurd h.2 (Nat.not_le.2 hmode)]
    · rw [if_neg hmode, if_pos ⟨h6, Nat.not_lt.1 hmode⟩]
  · have hspeech : ¬ (p.length = 6 ∧ 12 ≤ (p.getD 5 0 &&& 0x0F).toNat) := fun h => h6 h.1
    rw [if_neg hspeech, frameOf, heardAs, if_neg h6, if_neg h6]

/-- Of the payloads of frame size, all but the dropped ones arrive. -/
theorem arrival_eq (p : List Uint8) :
    arrival p =
      if IsPrimaryCompact (8 * p.length) ∧ ¬ Dropped p then some (heardAs p) else none := by
  rw [arrival, frameOf_eq]
  by_cases hframe : isFrame p = true
  · obtain ⟨hsize, h7⟩ := (isFrame_iff p).1 hframe
    rw [if_pos hframe]
    by_cases hsid : p.length = 6 ∧ 12 ≤ (p.getD 5 0 &&& 0x0F).toNat
    · rw [if_pos hsid, if_neg fun h => h.2 (Or.inl hsid)]
    · have hkept : ¬ Dropped p := fun h => h.elim hsid h7
      rw [if_neg hsid, if_pos ⟨hsize, hkept⟩]
  · rw [if_neg hframe, if_neg fun h => ?_]
    obtain ⟨hsize, hkept⟩ := h
    exact hframe ((isFrame_iff p).2 ⟨hsize, fun h7 => hkept (Or.inr h7)⟩)

/-- A payload is in the memory octet by octet if it is whole words, or loses a zero. -/
theorem frameMemory_intact_iff (p : List Uint8) :
    (frameMemory p).take p.length = p ↔ p.length % 2 = 0 ∨ p.getLast? = some 0 := by
  by_cases heven : p.length % 2 = 0
  · rw [frameMemory, if_pos heven, List.take_left]
    exact iff_of_true rfl (Or.inl heven)
  · obtain ⟨q, b, rfl⟩ : ∃ q b, p = q ++ [b] :=
      ⟨p.dropLast, p.getLast (by rintro rfl; simp at heven), (List.dropLast_append_getLast _).symm⟩
    have hlen : (q ++ [b]).length = (q ++ [(0 : Uint8)]).length := by simp
    rw [frameMemory, if_neg heven, List.dropLast_concat, hlen, List.take_left,
      List.append_cancel_left_eq, List.getLast?_concat]
    simp only [List.cons.injEq, and_true, Option.some.injEq]
    constructor
    · exact fun h => Or.inr h.symm
    · rintro (h | h)
      · exact absurd h (by rwa [← hlen])
      · exact h.symm

def staleZeros : List Uint16 := List.replicate 487 0

theorem octets_replicate_zero (n : Nat) :
    octets (List.replicate n 0) = List.replicate (2 * n) 0 := by
  induction n with
  | zero => rfl
  | succ n ih =>
    rw [List.replicate_succ, octets, ih, Nat.mul_succ, List.replicate_succ, List.replicate_succ]
    rfl

theorem replicate_zero_append (m n : Nat) :
    List.replicate m (0 : Uint8) ++ List.replicate n 0 = List.replicate (m + n) 0 :=
  (List.replicate_add m n 0).symm

/-- The packet made in a scratch packet with a clean end holds the frame's memory and leaves
the end clean. -/
theorem handOver_memory {p : List Uint8} (hsize : IsPrimaryCompact (8 * p.length)) {z : Nat}
    (hz : 3 ≤ z) {scratch : UpdPacket mbIptPayloadSize16}
    (hclean : staleWords scratch = staleZeros) :
    octets (handOver p (List.replicate z 0) scratch).payload.cells = frameMemory p ∧
      staleWords (handOver p (List.replicate z 0) scratch) = staleZeros := by
  have hle := hsize.le
  by_cases heven : p.length % 2 = 0
  · have hcells := even_payload_cells heven hsize
      (show 2 ≤ (List.replicate z (0 : Uint8)).length by rw [List.length_replicate]; omega) scratch
    rw [hclean] at hcells
    have hlw := length_words p
    constructor
    · unfold handOver
      rw [hcells, octets_append, octets_append, octets_words p heven, octets_replicate_zero,
        staleZeros, octets_replicate_zero, replicate_zero_append, frameMemory, if_pos heven,
        show 2 * (166 - p.length / 2) + 2 * 487 = 1306 - p.length by omega]
    · unfold handOver
      rw [staleWords, hcells, List.drop_append, List.drop_of_length_le (by omega),
        List.nil_append, List.drop_append, List.drop_of_length_le
          (by rw [List.length_replicate]; omega), List.nil_append, List.length_replicate,
        show 166 - (words p).length - (166 - p.length / 2) = 0 by omega, List.drop_zero]
  · obtain ⟨q, b, rfl⟩ : ∃ q b, p = q ++ [b] :=
      ⟨p.dropLast, p.getLast (by rintro rfl; simp at heven), (List.dropLast_append_getLast _).symm⟩
    rw [List.length_append, List.length_singleton] at hsize heven hle
    have hq : q.length % 2 = 0 := by omega
    obtain ⟨z', rfl⟩ : ∃ z', z = z' + 1 := ⟨z - 1, by omega⟩
    have hcells := @odd_payload_cells q (List.replicate z' 0) b 0 hq hsize
      (by rw [List.length_replicate]; omega) scratch
    rw [hclean] at hcells
    have hlw := length_words q
    have hlen : 8 * (q ++ [b]).length = 8 * (q.length + 1) := by simp
    constructor
    · unfold handOver
      rw [hlen, List.replicate_succ, hcells, octets_append, octets_words q hq, octets, low_word,
        high_word, octets_append, octets_replicate_zero, staleZeros, octets_replicate_zero,
        replicate_zero_append, frameMemory, List.length_append, List.length_singleton,
        if_neg heven, List.dropLast_concat,
        show 1306 - (q.length + 1) = 2 * (165 - q.length / 2) + 2 * 487 + 1 by omega,
        List.replicate_succ, List.append_assoc]
      rfl
    · unfold handOver
      rw [hlen, List.replicate_succ, staleWords, hcells, List.drop_append,
        List.drop_of_length_le (by omega), List.nil_append,
        show 166 - (words q).length = 165 - q.length / 2 + 1 by omega, List.drop_succ_cons,
        List.drop_append, List.drop_of_length_le (by rw [List.length_replicate]), List.nil_append,
        List.length_replicate, Nat.sub_self, List.drop_zero]

/-- What is handed over octet by octet is in the memory octet by octet. -/
theorem frameMemory_of_handedOver {p : List Uint8} (hsize : IsPrimaryCompact (8 * p.length))
    (h : HandedOver p) : (frameMemory p).take p.length = p := by
  have hle := hsize.le
  have hroom : payloadRoom = 1488 := rfl
  have hclean : staleWords (UpdPacket.zero mbIptPayloadSize16) = staleZeros := rfl
  have hmemory := (handOver_memory hsize (show 3 ≤ 1488 - p.length by omega) hclean).1
  rw [← hmemory]
  refine h.faithful _ _ ?_
  rw [List.length_replicate]
  omega

theorem speech_frame : ∀ size1 ∈ [56, 144, 160, 192, 264, 328, 488, 640, 960, 1280, 1920, 2560],
    (speechHeader size1).mode.toNat < 12 ∧
      primaryRates.getD (speechHeader size1).mode.toNat 0 =
        (if size1 = 56 then 2400 else 50 * (size1 : Int)) ∧
      badFrame (speechHeader size1) = 0 := by decide

theorem sid_frame : ∀ last : Uint8,
    ((sidHeader last).mode.toNat < 12 ↔ (last &&& 0x0F).toNat < 12) ∧
      ((last &&& 0x0F).toNat < 12 → (sidHeader last).mode.toNat = (last &&& 0x0F).toNat) ∧
      badFrame (sidHeader last) = if last &&& 0x10 = 0 then 1 else 0 := by
  decide +kernel

/-- The frame of a payload, read off the packet made for it. -/
theorem frameOf_packet {p : List Uint8} (hsize : IsPrimaryCompact (8 * p.length)) {z : Nat}
    (hz : 3 ≤ z) {scratch : UpdPacket mbIptPayloadSize16}
    (hclean : staleWords scratch = staleZeros) :
    let packet := handOver p (List.replicate z 0) scratch
    packet.form = updEvsPrimaryMode ∧
      frameOf p =
        if packet.mode.toNat < 12 then
          some ⟨primaryRates.getD packet.mode.toNat 0, badFrame packet.toUpdHeader,
            octets packet.payload.cells⟩
        else none := by
  intro packet
  have htail : 2 ≤ (List.replicate z (0 : Uint8)).length := by
    rw [List.length_replicate]
    omega
  rw [(handOver_memory hsize hz hclean).1]
  by_cases h6 : p.length = 6
  · obtain ⟨a, b, c, d, e, f, rfl⟩ : ∃ a b c d e f, p = [a, b, c, d, e, f] := by
      match p, h6 with
      | [a, b, c, d, e, f], _ => exact ⟨a, b, c, d, e, f, rfl⟩
    have hheader : packet.toUpdHeader = sidHeader f := handOver_header_sid _ scratch htail
    obtain ⟨hmode, hsame, hbad⟩ := sid_frame f
    refine ⟨congrArg UpdHeader.form hheader, ?_⟩
    rw [hheader]
    change (if (f &&& 0x0F).toNat < 12 then _ else none) = _
    by_cases hlow : (f &&& 0x0F).toNat < 12
    · rw [if_pos hlow, if_pos (hmode.2 hlow), hsame hlow, hbad]
      rfl
    · rw [if_neg hlow, if_neg fun h => hlow (hmode.1 h)]
  · have hheader : packet.toUpdHeader = speechHeader (8 * p.length) :=
      handOver_header_speech _ scratch hsize (by omega)
    have hmem : 8 * p.length ∈ [56, 144, 160, 192, 264, 328, 488, 640, 960, 1280, 1920, 2560] := by
      have h48 : 8 * p.length ≠ 48 := by omega
      simpa [IsPrimaryCompact, compactPrimaryOnlySizes, h48] using hsize
    obtain ⟨hmode, hrate, hbad⟩ := speech_frame _ hmem
    refine ⟨congrArg UpdHeader.form hheader, ?_⟩
    rw [hheader, if_pos hmode, hrate, hbad, frameOf, if_neg h6]
    have h7 : (8 * p.length = 56) = (p.length = 7) := propext (by omega)
    simp only [h7, Nat.cast_mul]
    rfl

theorem payloadOf_length (datagram : List Uint8) : (payloadOf datagram).length ≤ 1488 := by
  have hmin := Nat.min_le_left requestBuffSize datagram.length
  rw [payloadOf, List.length_drop, List.length_take]
  change _ ≤ 1500 at hmin
  omega

/-- The call made for a datagram: its payload with zeros to the end of the memory. -/
theorem callOf_eq {datagram : List Uint8} (h : accepted datagram) :
    callOf datagram = ⟨payloadOf datagram ++ List.replicate (1488 - (payloadOf datagram).length) 0,
      (payloadOf datagram).length⟩ := by
  have hlen : 12 ≤ datagram.length := of_decide_eq_true h
  have htake : (datagram.take requestBuffSize).length = min requestBuffSize datagram.length :=
    List.length_take
  have hfit : (datagram.take requestBuffSize).length ≤
      (List.replicate requestBuffSize (0 : Uint8)).length := by
    rw [htake, List.length_replicate]
    exact Nat.min_le_left _ _
  have h12 : 12 ≤ (datagram.take requestBuffSize).length := by
    rw [htake]
    exact Nat.le_min.2 ⟨by decide, hlen⟩
  have hpayload : (payloadOf datagram).length = min datagram.length requestBuffSize - 12 := by
    rw [payloadOf, List.length_drop, htake, Nat.min_comm]
  have hbuff : (receive datagram).drop 12 =
      payloadOf datagram ++ List.replicate (1488 - (payloadOf datagram).length) 0 := by
    rw [receive, Buffer.blit_zero_of_fits _ hfit, List.drop_append_of_le_length h12,
      List.drop_replicate, payloadOf, List.length_drop]
    congr 2
    change 1500 - _ = _
    omega
  rw [callOf, hbuff, hpayload]

theorem compact_iff {p : List Uint8} {z : Nat} (hp : p.length ≤ 1488) (hz : 4 ≤ p.length + z) :
    Call.Compact ⟨p ++ List.replicate z 0, p.length⟩ ↔ isFrame p = true := by
  have h16 : toUint16 p.length = p.length := Nat.mod_eq_of_lt (by omega)
  have h16' : toUint16 (size8To1 p.length) = 8 * p.length := by
    rw [size8To1, toUint16, Nat.mod_eq_of_lt (by omega), Nat.mul_comm]
  by_cases h7 : p.length = 7
  · have hroom : 4 ≤ (p ++ List.replicate z (0 : Uint8)).length := by
      rw [List.length_append, List.length_replicate]
      exact hz
    have hfull := evsHdrFmt_seven_iff hroom
    have hsecond : (p ++ List.replicate z (0 : Uint8)).getD 1 0 = p.getD 1 0 :=
      List.getD_append _ _ _ _ (by omega)
    rw [hsecond] at hfull
    have hcases : evsHdrFmt (words (p ++ List.replicate z 0)) 7 = .compact ↔
        ¬ evsHdrFmt (words (p ++ List.replicate z 0)) 7 = .full := by
      have hsize : getEvsHdrFormat (toUint16 (size8To1 7)) updEvsPrimaryMode = .ptSize56 := by
        decide
      rw [evsHdrFmt, hsize]
      cases isWbioHfSid (words (p ++ List.replicate z 0)) <;> decide
    rw [Call.Compact, h16, h7, hcases, hfull, isFrame, h7]
    simp [compactPrimaryOnlySizes]
  · have hmode : updEvsPrimaryMode ≠ updEvsWbioMode := by decide
    have h56 : ¬ 8 * p.length = 56 := by omega
    simp only [Call.Compact, evsHdrFmt, h16, getEvsHdrFormat, if_neg hmode, h16',
      getEvsPrimaryFormat, isFrame, h7, decide_false, Bool.false_and, Bool.or_false,
      decide_eq_true_eq, if_neg h56]
    by_cases hmem : 8 * p.length ∈ compactPrimaryOnlySizes
    · simp [hmem]
    · simp [hmem]

structure Session (δ : Type) where
  counters : RtpCounters
  decoder : δ
  delay : MSrcDownInternal
  pcm16 : Buffer Uint16 lin16KhzPayloadSize16
  pcm08 : Buffer Uint16 lin08KhzPayloadSize16
  heard : Bool

section

variable {ε δ : Type} (lib : IntelEvs ε δ)

/-- A frame is decoded and the 20 ms that the first buffer then holds are resampled. -/
def Session.hear (s : Session δ) (frame : Frame) : Session δ :=
  let decoded := execute lib s.decoder frame.rate frame.bad frame.memory
  let pcm16 := s.pcm16.write 0 decoded.2
  let resampled := downsample s.delay pcm16.cells 160
  { s with
    decoder := decoded.1
    delay := resampled.1
    pcm16 := pcm16
    pcm08 := s.pcm08.write 0 resampled.2
    heard := true }

def Session.take (s : Session δ) (p : List Uint8) : Session δ :=
  match arrival p with
  | some frame => s.hear lib frame
  | none => s

/-- What is sent for a payload: 320 octets with the header among them. -/
def Session.answer (s : Session δ) (header p : List Uint8) : List Uint8 :=
  if isFrame p && s.heard then header ++ (octets s.pcm08.cells).take 308 else []

def session : Machine (Session δ) (List Uint8) (List Uint8) where
  step s datagram :=
    if accepted datagram then
      let next := s.take lib (payloadOf datagram)
      ({ next with counters := s.counters.advance },
        next.answer (responseHeader s.counters (receive datagram)) (payloadOf datagram))
    else (s, [])

def Session.initial (decoder : δ) (allocated : Buffer Sint16 delayBufDownSize16) : Session δ where
  counters := {}
  decoder := decoder
  delay := ⟨allocated⟩
  pcm16 := Buffer.replicate _ 0
  pcm08 := Buffer.replicate _ 0
  heard := false

/-- The state of the ingress processing, decoder and converter created, behind a session. -/
structure Shows (block : UscHandle) (t : IngressState (EvsWorld ε δ)) (s : Session δ) : Prop where
  handle : ∃ evsDec numb, t.evsDec = some evsDec ∧ evsDec.internal = some ⟨block, block, numb⟩
  decodes : (t.codec.memory block).header.direction = uscDecode
  decoder : (t.codec.memory block).dec = s.decoder
  converter : ∃ master, t.master = some master ∧ master.internal = some s.delay
  clean : staleWords t.mbIptDataIo = staleZeros
  pcm16 : t.lin16Khz.payload = s.pcm16
  pcm08 : t.lin08Khz.payload = s.pcm08
  header : t.lin08Khz.toUpdHeader = if s.heard then pcm08Header else blankHeader

variable (ipps : IppsMalloc) {block : UscHandle} {t : IngressState (EvsWorld ε δ)} {s : Session δ}

theorem Shows.packet (h : Shows block t s) {packet : UpdPacket mbIptPayloadSize16}
    (hclean : staleWords packet = staleZeros) :
    Shows block { t with mbIptDataIo := packet } s :=
  ⟨h.handle, h.decodes, h.decoder, h.converter, hclean, h.pcm16, h.pcm08, h.header⟩

/-- Steps 3 and 4 for a packet at a known rate: the frame it holds is heard. -/
theorem convert_known (h : Shows block t s) (hblock : block ≠ 0)
    (hform : t.mbIptDataIo.form = updEvsPrimaryMode) (hmode : t.mbIptDataIo.mode.toNat < 12) :
    Shows block (convertPacket (decodePacket (uscEvsFxns lib ipps) t))
      (s.hear lib ⟨primaryRates.getD t.mbIptDataIo.mode.toNat 0,
        badFrame t.mbIptDataIo.toUpdHeader, octets t.mbIptDataIo.payload.cells⟩) := by
  obtain ⟨evsDec, numb, hd, hi⟩ := h.handle
  obtain ⟨master, hm, hdelay⟩ := h.converter
  have hrates : ratesOf t.mbIptDataIo.form = primaryRates := if_pos hform
  obtain ⟨obj, hr, hdirection, hdec⟩ := @mEvsDec_known _ _ lib _ _ ipps t.codec
    { evsDec with outputSampleRateHz := lUpdWbSampleRateHz } _ t.lin16Khz _ _ hi hblock
    h.decodes (Or.inl hform) (show t.mbIptDataIo.mode.toNat < (ratesOf t.mbIptDataIo.form).length by
      rw [hrates]
      exact hmode)
  rw [hrates, h.decoder] at hr hdec
  let decoded : IngressState (EvsWorld ε δ) :=
    { t with
      codec := t.codec.store block obj
      evsDec := some ⟨evsDec.internal, eaNoErrors, lUpdWbSampleRateHz⟩
      lin16Khz := { t.lin16Khz with
        toUpdHeader := pcm16Header
        payload := t.lin16Khz.payload.write 0 (execute lib s.decoder
          (primaryRates.getD t.mbIptDataIo.mode.toNat 0) (badFrame t.mbIptDataIo.toUpdHeader)
          (octets t.mbIptDataIo.payload.cells)).2 } }
  have hdecoded : decodePacket (uscEvsFxns lib ipps) t = decoded := decodePacket_eq _ t hd hr
  rw [hdecoded, @convertPacket_frame _ decoded master s.delay hm hdelay rfl]
  have h16 : t.lin16Khz.payload = s.pcm16 := h.pcm16
  refine ⟨⟨_, numb, rfl, hi⟩, ?_, ?_, ⟨_, rfl, ?_⟩, h.clean, ?_, ?_, rfl⟩
  · rw [store_self]
    exact hdirection
  · rw [store_self]
    exact hdec
  · simp only [decoded, h16]
    rfl
  · simp only [decoded, h16]
    rfl
  · simp only [decoded, h16, h.pcm08]
    rfl

/-- At an unknown one nothing is. -/
theorem convert_unknown (h : Shows block t s) (hblock : block ≠ 0)
    (hform : t.mbIptDataIo.form = updEvsPrimaryMode) (hmode : ¬ t.mbIptDataIo.mode.toNat < 12) :
    Shows block (convertPacket (decodePacket (uscEvsFxns lib ipps) t)) s := by
  obtain ⟨evsDec, numb, hd, hi⟩ := h.handle
  obtain ⟨master, hm, hdelay⟩ := h.converter
  have hrates : ratesOf t.mbIptDataIo.form = primaryRates := if_pos hform
  obtain ⟨extra, hr⟩ := @mEvsDec_unknown _ _ lib _ _ ipps t.codec
    { evsDec with outputSampleRateHz := lUpdWbSampleRateHz } _ t.lin16Khz _ _ hi hblock
    h.decodes (Or.inl hform)
    (show ¬ t.mbIptDataIo.mode.toNat < (ratesOf t.mbIptDataIo.form).length by
      rw [hrates]
      exact hmode)
  let refused : IngressState (EvsWorld ε δ) :=
    { t with
      evsDec := some ⟨evsDec.internal, extra, lUpdWbSampleRateHz⟩
      lin16Khz := { t.lin16Khz with type := updTypeNoData } }
  have hrefused : decodePacket (uscEvsFxns lib ipps) t = refused := decodePacket_eq _ t hd hr
  obtain ⟨code, hconv⟩ := @convertPacket_refused _ refused master hm (noData_not_ok rfl)
  rw [hrefused, hconv]
  exact ⟨⟨_, numb, rfl, hi⟩, h.decodes, h.decoder, ⟨_, rfl, hdelay⟩, h.clean, h.pcm16, h.pcm08,
    h.header⟩

variable (allocated : Buffer Sint16 delayBufDownSize16)

theorem settle_of_created {σ : Type} (fxns : UscFxns σ)
    (allocated : Buffer Sint16 delayBufDownSize16) {st : IngressState σ} {evsDec : CodecDecData}
    {master : MSrcDownData} (hd : st.evsDec = some evsDec) (hm : st.master = some master) :
    settle fxns allocated st = st := by
  simp only [settle, ensureEvsDec, ensureMaster, hd, hm]

theorem Shows.settled (h : Shows block t s) : settle (uscEvsFxns lib ipps) allocated t = t := by
  obtain ⟨evsDec, numb, hd, -⟩ := h.handle
  obtain ⟨master, hm, -⟩ := h.converter
  exact settle_of_created _ allocated hd hm

/-- Steps 3 and 4 for the packet made of a frame. -/
theorem convert_frame (h : Shows block t s) (hblock : block ≠ 0) {p : List Uint8}
    (hsize : IsPrimaryCompact (8 * p.length)) (hframe : isFrame p = true) {z : Nat} (hz : 3 ≤ z) :
    Shows block (convertPacket (decodePacket (uscEvsFxns lib ipps)
      { t with mbIptDataIo := handOver p (List.replicate z 0) t.mbIptDataIo })) (s.take lib p) := by
  have hpacket := h.packet (handOver_memory hsize hz h.clean).2
  obtain ⟨hform, hof⟩ := frameOf_packet hsize hz h.clean
  rw [Session.take, arrival, if_pos hframe, hof]
  by_cases hmode : (handOver p (List.replicate z 0) t.mbIptDataIo).mode.toNat < 12
  · rw [if_pos hmode]
    exact convert_known lib ipps hpacket hblock hform hmode
  · rw [if_neg hmode]
    exact convert_unknown lib ipps hpacket hblock hform hmode

/-- One payload: the state keeps showing the session, and the PCM returned is the one heard. -/
theorem step_shows (h : Shows block t s) (hblock : block ≠ 0) {p : List Uint8}
    (hp : p.length ≤ 1488) {c : Call}
    (hc : c = ⟨p ++ List.replicate (1488 - p.length) 0, p.length⟩) :
    let next := (ingress (uscEvsFxns lib ipps) allocated).step t c
    Shows block next.1 (s.take lib p) ∧
      ∀ bufOut, next.2 bufOut 0 =
        if isFrame p && (s.take lib p).heard then
          (Buffer.blit bufOut 0 ((octets (s.take lib p).pcm08.cells).take 320), 320)
        else (bufOut, 0) := by
  intro next
  have hcompact : c.Compact ↔ isFrame p = true := by
    rw [hc]
    exact compact_iff hp (by omega)
  by_cases hframe : isFrame p = true
  · have hcall := hcompact.2 hframe
    obtain ⟨hstate, houtput⟩ := step_compact (uscEvsFxns lib ipps) allocated t hcall
    have hsize1 : c.size1 = 8 * p.length := by
      rw [hc]
      change p.length % 65536 * 8 % 65536 = 8 * p.length
      omega
    have hsize : IsPrimaryCompact (8 * p.length) := hsize1 ▸ hcall.size
    have hle := hsize.le
    have hready : ready (uscEvsFxns lib ipps) t c = { t with
        mbIptDataIo := handOver p (List.replicate (1488 - p.length) 0) t.mbIptDataIo } := by
      obtain ⟨evsDec, numb, hd, -⟩ := h.handle
      rw [ready, hsize1, hc, ensureEvsDec]
      simp only [hd]
      rfl
    have hconverted := convert_frame lib ipps h hblock hsize hframe
      (show 3 ≤ 1488 - p.length by omega)
    rw [← hready] at hconverted
    have hmaster : ensureMaster allocated
        (decodePacket (uscEvsFxns lib ipps) (ready (uscEvsFxns lib ipps) t c)) =
        decodePacket (uscEvsFxns lib ipps) (ready (uscEvsFxns lib ipps) t c) := by
      obtain ⟨master, hm, -⟩ := h.converter
      rw [← decodePacket_ensureMaster]
      congr 1
      simp only [hready, ensureMaster, hm]
    rw [← hmaster, ← hstate] at hconverted
    refine ⟨hconverted, fun bufOut => ?_⟩
    rw [houtput bufOut 0, hframe, Bool.true_and]
    have hheader := hconverted.header
    by_cases hheard : (s.take lib p).heard = true
    · rw [if_pos hheard] at hheader
      rw [if_pos hheard, returnPcm_frame hheader, hconverted.pcm08]
    · rw [if_neg hheard] at hheader
      rw [if_neg hheard, returnPcm_blank hheader]
  · obtain ⟨hstate, houtput⟩ := step_other (uscEvsFxns lib ipps) allocated t fun hn =>
      hframe (hcompact.1 hn)
    have hsame : s.take lib p = s := by rw [Session.take, arrival, if_neg hframe]
    refine ⟨?_, fun bufOut => ?_⟩
    · have hsettled : next.1 = t := hstate.trans (h.settled lib ipps allocated)
      rw [hsettled, hsame]
      exact h
    · rw [houtput bufOut 0, Bool.eq_false_iff.2 hframe, Bool.false_and, if_neg (by decide)]

/-- Of the 332 octets of a response 320 are sent. -/
theorem sent_octets (counters : RtpCounters) (request : List Uint8)
    (pcm : Buffer Uint16 lin08KhzPayloadSize16) :
    (responseHeader counters request ++
        Buffer.blit payloadRoomOut 0 ((octets pcm.cells).take 320)).take 320 =
      responseHeader counters request ++ (octets pcm.cells).take 308 := by
  have hlen : (octets pcm.cells).length = 480 := by
    rw [length_octets, pcm.size_eq]
    rfl
  have htake : ((octets pcm.cells).take 320).length = 320 := by
    rw [List.length_take, hlen]
    rfl
  have hfit : ((octets pcm.cells).take 320).length ≤ payloadRoomOut.length := by
    rw [htake, payloadRoomOut, List.length_replicate]
    decide
  rw [List.take_append, length_responseHeader, List.take_of_length_le (by simp),
    Buffer.blit_zero_of_fits _ hfit, List.take_append_of_le_length (by omega), List.take_take]
  rfl

/-- A server behind a session: the transcoder shows it once decoder and converter are created. -/
def Serves (block : UscHandle) (st : ServerState (IngressState (EvsWorld ε δ))) (s : Session δ) :
    Prop :=
  st.counters = s.counters ∧
    Shows block (settle (uscEvsFxns lib ipps) allocated st.transcoder) s

theorem step_serves (hblock : block ≠ 0) (st : ServerState (IngressState (EvsWorld ε δ)))
    (s : Session δ) (datagram : List Uint8) (h : Serves lib ipps allocated block st s) :
    ((evsServer (uscEvsFxns lib ipps) allocated).step st datagram).2 =
        ((session lib).step s datagram).2 ∧
      Serves lib ipps allocated block
        ((evsServer (uscEvsFxns lib ipps) allocated).step st datagram).1
        ((session lib).step s datagram).1 := by
  obtain ⟨hcounters, hshows⟩ := h
  by_cases ha : accepted datagram = true
  · obtain ⟨hnext, hanswer⟩ := step_shows lib ipps allocated hshows hblock
      (payloadOf_length datagram) (callOf_eq ha)
    rw [step_settle] at hnext hanswer
    simp only [rtpServer, serve_accepted (uscEvsFxns lib ipps) allocated st ha, session, if_pos ha,
      hanswer, hcounters]
    refine ⟨?_, rfl, ?_⟩
    · rw [Session.answer]
      by_cases hheard : (isFrame (payloadOf datagram) &&
          (s.take lib (payloadOf datagram)).heard) = true
      · rw [if_pos hheard, if_pos hheard]
        exact sent_octets _ _ _
      · rw [if_neg hheard, if_neg hheard, List.take_zero]
    · rw [hnext.settled lib ipps allocated]
      exact ⟨hnext.handle, hnext.decodes, hnext.decoder, hnext.converter, hnext.clean, hnext.pcm16,
        hnext.pcm08, hnext.header⟩
  · have hr : accepted datagram = false := Bool.eq_false_iff.2 ha
    simp only [rtpServer, serve_rejected (uscEvsFxns lib ipps) allocated st hr, session, if_neg ha]
    exact ⟨List.take_zero, hcounters, hshows⟩

/-- The decoder object as `m_evs_dec_init` leaves it. -/
def firstDecoder (codec : EvsWorld ε δ) : δ :=
  lib.decoderInit (codec.memory (decoderBlock lib ipps codec)).dec
    { outputFsFx := 16000, totalBrateFx := 128000 }

theorem serves_start (codec : EvsWorld ε δ) (hblock : decoderBlock lib ipps codec ≠ 0) :
    Serves lib ipps allocated (decoderBlock lib ipps codec) (start codec)
      (Session.initial (firstDecoder lib ipps codec) allocated) := by
  refine ⟨rfl, ?_⟩
  have hsettled : settle (uscEvsFxns lib ipps) allocated (start codec).transcoder =
      { IngressState.initial (openedDecoder lib ipps codec) with
        evsDec := some ⟨some ⟨decoderBlock lib ipps codec, decoderBlock lib ipps codec, 0⟩,
          eaNoErrors, 0⟩
        master := some ⟨0, some ⟨allocated⟩⟩ } := by
    simp only [settle, start, ServerState.initial, IngressState.initial, ensureEvsDec,
      mEvsDecInit_eq lib ipps codec hblock, ensureMaster]
    rfl
  rw [hsettled]
  refine ⟨⟨_, 0, rfl, rfl⟩, ?_, ?_, ⟨_, rfl, rfl⟩, rfl, rfl, rfl, rfl⟩
  · simp only [IngressState.initial, openedDecoder, store_self]
    rfl
  · simp only [IngressState.initial, openedDecoder, store_self]
    rfl

/-- Every run of the server is a run of the session. -/
theorem serves_run (codec : EvsWorld ε δ) (hblock : decoderBlock lib ipps codec ≠ 0)
    (datagrams : List (List Uint8)) :
    let first := Session.initial (firstDecoder lib ipps codec) allocated
    (evsServer (uscEvsFxns lib ipps) allocated).outputs (start codec) datagrams =
        (session lib).outputs first datagrams ∧
      Serves lib ipps allocated (decoderBlock lib ipps codec)
        ((evsServer (uscEvsFxns lib ipps) allocated).after (start codec) datagrams)
        ((session lib).after first datagrams) :=
  Machine.outputs_of_simulation _ (step_serves lib ipps allocated hblock)
    (serves_start lib ipps allocated codec hblock) datagrams

/-- The server answers every run of datagrams as the session does. -/
theorem server_refines_session (codec : EvsWorld ε δ) (hblock : decoderBlock lib ipps codec ≠ 0)
    (datagrams : List (List Uint8)) :
    (evsServer (uscEvsFxns lib ipps) allocated).outputs (start codec) datagrams =
      (session lib).outputs (Session.initial (firstDecoder lib ipps codec) allocated) datagrams :=
  (serves_run lib ipps allocated codec hblock datagrams).1

end

theorem server_refines_session_two :
    (evsServer (uscEvsFxns silentLib spacious) (Buffer.replicate _ 0)).outputs (start blankWorld)
        [bareRequest, frameDatagram] =
      (session silentLib).outputs (Session.initial () (Buffer.replicate _ 0))
        [bareRequest, frameDatagram] :=
  server_refines_session silentLib spacious (Buffer.replicate _ 0) blankWorld
    (spacious_address _ _) [bareRequest, frameDatagram]

end RtpServer.Verify.AudioSession
