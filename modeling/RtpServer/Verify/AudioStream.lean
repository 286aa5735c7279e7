import RtpServer.Verify.AudioSession
import RtpServer.Verify.Resampler

/-!
# What the server makes heard

Over a run every payload of frame size but the dropped ones is decoded once, in the order of
arrival, and the samples of an answer are the last 20 ms of one stream: the decoder's output
passed through the downsampling filter.
-/
namespace RtpServer.Verify.AudioStream

open RtpServer.Library RtpServer.Library.LittleEndian RtpServer.Source RtpServer.Source.TypeDef
open RtpServer.Source.Upd RtpServer.Source.Usc RtpServer.Source.UscEvs
open RtpServer.Source.SampleRate RtpServer.Source.EvsIngress RtpServer.Source.RtpProcess
open RtpServer.Verify.HandOver RtpServer.Verify.Response RtpServer.Verify.StaleAudio
open RtpServer.Verify.ServerRuns RtpServer.Verify.Clients RtpServer.Verify.EvsOpening
open RtpServer.Verify.EvsModules RtpServer.Verify.Resampler RtpServer.Verify.AudioSession
open RtpServer.Verify.EvsWrapper (silentLib)

/-- The frames of a run, in the order of arrival. -/
def framesOf (datagrams : List (List Uint8)) : List Frame :=
  (datagrams.filter accepted).filterMap fun datagram => arrival (payloadOf datagram)

/-- The payloads that reach the decoder. -/
def heardOf (datagrams : List (List Uint8)) : List (List Uint8) :=
  ((datagrams.filter accepted).map payloadOf).filter fun p =>
    IsPrimaryCompact (8 * p.length) ∧ ¬ Dropped p

theorem framesOf_eq (datagrams : List (List Uint8)) :
    framesOf datagrams = (heardOf datagrams).map heardAs := by
  rw [framesOf, heardOf]
  induction datagrams.filter accepted with
  | nil => rfl
  | cons d ds ih =>
    rw [List.filterMap_cons, arrival_eq, List.map_cons, List.filter_cons]
    by_cases hheard : IsPrimaryCompact (8 * (payloadOf d).length) ∧ ¬ Dropped (payloadOf d)
    · rw [if_pos hheard, if_pos (decide_eq_true hheard), List.map_cons]
      exact congrArg _ ih
    · rw [if_neg hheard, if_neg fun h => hheard (of_decide_eq_true h)]
      exact ih

section

variable {ε δ : Type} (lib : IntelEvs ε δ)

/-- The decoder object of the library as a machine. -/
def decoding : Machine δ Frame (List Uint16) where
  step decoder frame := execute lib decoder frame.rate frame.bad frame.memory

def hearing : Machine (Session δ) Frame (List Uint16) where
  step s frame := (s.hear lib frame, (s.hear lib frame).pcm08.cells.take 160)

theorem hearing_counters (s : Session δ) (counters : RtpCounters) (frames : List Frame) :
    (hearing lib).after { s with counters := counters } frames =
      { (hearing lib).after s frames with counters := counters } := by
  induction frames generalizing s with
  | nil => rfl
  | cons frame frames ih => exact ih (s.hear lib frame)

/-- A run of the session: its frames are heard and its datagrams counted. -/
theorem session_after (s : Session δ) (datagrams : List (List Uint8)) :
    (session lib).after s datagrams =
      { (hearing lib).after s (framesOf datagrams) with
        counters := shift s.counters (datagrams.countP accepted) } := by
  induction datagrams generalizing s with
  | nil =>
    rw [List.countP_nil, shift_zero]
    rfl
  | cons d ds ih =>
    rw [Machine.after_cons, ih, framesOf, framesOf]
    by_cases ha : accepted d = true
    · have hstep : ((session lib).step s d).1 =
          { s.take lib (payloadOf d) with counters := shift s.counters 1 } := by
        simp only [session, if_pos ha]
        rfl
      rw [hstep, hearing_counters, shift_shift, List.countP_cons_of_pos ha, Nat.add_comm,
        List.filter_cons_of_pos ha, List.filterMap_cons, Session.take]
      cases arrival (payloadOf d) <;> rfl
    · have hstep : ((session lib).step s d).1 = s := by
        simp only [session, if_neg ha]
      rw [hstep, List.countP_cons_of_neg ha, List.filter_cons_of_neg ha]

theorem hearing_decoder (s : Session δ) (frames : List Frame) :
    ((hearing lib).after s frames).decoder = (decoding lib).after s.decoder frames := by
  induction frames generalizing s with
  | nil => rfl
  | cons frame frames ih => exact ih (s.hear lib frame)

theorem hearing_heard (s : Session δ) (frames : List Frame) :
    ((hearing lib).after s frames).heard = (s.heard || !frames.isEmpty) := by
  induction frames generalizing s with
  | nil => simp
  | cons frame frames ih =>
    rw [Machine.after_cons, ih]
    simp [hearing, Session.hear]

/-- `Exec` answers every frame with 20 ms at 16 kHz. -/
def FullFrames : Prop :=
  ∀ (decoder : δ) (memory : List Uint8), (lib.decoderExec decoder memory).2.length = 320

def filter : BlockFilter Sint16 Sint16 := decimator.map restore

def decodedStream (first : δ) (frames : List Frame) : List Uint16 :=
  ((decoding lib).outputs first frames).flatten

/-- The samples in line before the filter: those of the first delay line, then the stream. -/
def samplesIn (first : δ) (allocated : Buffer Sint16 delayBufDownSize16) (frames : List Frame) :
    List Sint16 := allocated.cells ++ decodedStream lib first frames

theorem downsample_take (internal : MSrcDownInternal) (samples : List Sint16) :
    downsample internal samples 160 = downsample internal (samples.take 320) 160 := by
  have hnew : (samples.take 320).take (size8KhzTo16Khz 160) = samples.take (size8KhzTo16Khz 160) :=
    List.take_take.trans rfl
  have hend : ((samples.take 320).drop (size8KhzTo16Khz 160 - delayBufDownSize16)).take
      delayBufDownSize16 =
        (samples.drop (size8KhzTo16Khz 160 - delayBufDownSize16)).take delayBufDownSize16 := by
    rw [List.drop_take, List.take_take]
    rfl
  simp only [downsample, hnew, hend]

/-- One block of 320 samples passed through the filter. -/
theorem downsample_block (internal : MSrcDownInternal) {samples : List Sint16}
    (h : samples.length = 320) :
    (downsample internal samples 160).1.delaybuffer.cells =
        filter.kept (internal.delaybuffer.cells ++ samples) ∧
      (downsample internal samples 160).2 =
        filter.outputs (internal.delaybuffer.cells ++ samples) 160 := by
  obtain ⟨hdelay, hout⟩ := downsample_eq internal (show 40 ≤ 160 by decide)
    (show 2 * 160 ≤ samples.length by omega)
  have htake : samples.take (size8KhzTo16Khz 160) = samples :=
    List.take_of_length_le (Nat.le_of_eq h)
  have hhops : samples.length / decimator.hop = 160 := by
    rw [h]
    rfl
  rw [htake] at hdelay hout
  have hup : ∀ line, upscale line = line.map restore := fun _ => rfl
  rw [filter, BlockFilter.kept_map, BlockFilter.outputs_map, downsample_snd, hout,
    BlockFilter.process, hhops, hup]
  exact ⟨hdelay, rfl⟩

/-- What a session has made of the frames heard. -/
structure Plays (first : δ) (allocated : Buffer Sint16 delayBufDownSize16) (frames : List Frame)
    (s : Session δ) : Prop where
  decoder : s.decoder = (decoding lib).after first frames
  delay : s.delay.delaybuffer.cells = filter.kept (samplesIn lib first allocated frames)
  pcm : frames ≠ [] → s.pcm08.cells.take 160 =
    (filter.outputs (samplesIn lib first allocated frames) (160 * frames.length)).drop
      (160 * (frames.length - 1))

variable {lib}

theorem length_decodedStream (hfull : FullFrames lib) (first : δ) (frames : List Frame) :
    (decodedStream lib first frames).length = 320 * frames.length := by
  induction frames generalizing first with
  | nil => rfl
  | cons frame frames ih =>
    have hframe : (execute lib first frame.rate frame.bad frame.memory).2.length = 320 :=
      hfull _ _
    have hrest := ih ((decoding lib).step first frame).1
    rw [decodedStream] at hrest ⊢
    rw [Machine.outputs, List.flatten_cons, List.length_append, hrest, List.length_cons]
    simp only [decoding, hframe]
    omega

variable {first : δ} {allocated : Buffer Sint16 delayBufDownSize16} {frames : List Frame}
  {s : Session δ}

theorem plays_hear (hfull : FullFrames lib) (h : Plays lib first allocated frames s)
    (frame : Frame) : Plays lib first allocated (frames ++ [frame]) (s.hear lib frame) := by
  let block := (execute lib s.decoder frame.rate frame.bad frame.memory).2
  have hblock : block.length = 320 := hfull _ _
  have hline : samplesIn lib first allocated (frames ++ [frame]) =
      samplesIn lib first allocated frames ++ block := by
    rw [samplesIn, decodedStream, Machine.outputs_concat, List.flatten_append, ← List.append_assoc,
      List.flatten_singleton, ← h.decoder]
    rfl
  have hwritten : (s.pcm16.write 0 block).cells.take 320 = block := by
    rw [Buffer.write_cells, Buffer.blit_zero_of_fits _ (by rw [s.pcm16.size_eq, hblock]; decide),
      ← hblock, List.take_left]
  obtain ⟨hdelay, hout⟩ := downsample_block s.delay hblock
  rw [← hwritten, ← downsample_take, hwritten, h.delay] at hdelay hout
  have hlen : (allocated.cells ++ decodedStream lib first frames).length =
      71 + 320 * frames.length := by
    rw [List.length_append, allocated.size_eq, length_decodedStream hfull]
    rfl
  refine ⟨?_, ?_, fun _ => ?_⟩
  · rw [Machine.after_concat, ← h.decoder]
    rfl
  · rw [hline]
    refine hdelay.trans (filter.kept_kept_append ?_ block)
    rw [samplesIn, hlen]
    exact Nat.le_add_right _ _
  · have hsplit := filter.outputs_append (show allocated.cells.length = filter.history from
      allocated.size_eq) (show (decodedStream lib first frames).length =
        filter.hop * (160 * frames.length) by
      rw [length_decodedStream hfull, ← Nat.mul_assoc]
      rfl) block 160
    have hbefore : (filter.outputs (samplesIn lib first allocated frames)
        (160 * frames.length)).length = 160 * frames.length := by
      rw [filter.length_outputs]
      exact Nat.mul_one _
    have hpcm : (s.hear lib frame).pcm08.cells.take 160 =
        filter.outputs (filter.kept (samplesIn lib first allocated frames) ++ block) 160 := by
      have hsamples : (filter.outputs (filter.kept (samplesIn lib first allocated frames) ++ block)
          160).length = 160 := by
        rw [filter.length_outputs]
        rfl
      change (s.pcm08.write 0 (downsample s.delay (s.pcm16.write 0 block).cells 160).2).cells.take
        160 = _
      rw [hout, Buffer.write_cells, Buffer.blit_zero_of_fits _ (by
        rw [s.pcm08.size_eq, hsamples]
        decide), List.take_left' hsamples]
    rw [hpcm, hline, List.length_append, List.length_singleton, Nat.add_sub_cancel, Nat.mul_succ]
    rw [samplesIn] at hbefore ⊢
    rw [hsplit, List.drop_left' hbefore]

theorem plays_run (hfull : FullFrames lib) (h : Plays lib first allocated [] s)
    (frames : List Frame) :
    Plays lib first allocated frames ((hearing lib).after s frames) :=
  Machine.after_history _ h (fun _ frame hplays => plays_hear hfull hplays frame) frames

theorem plays_initial (lib : IntelEvs ε δ) (first : δ)
    (allocated : Buffer Sint16 delayBufDownSize16) :
    Plays lib first allocated [] (Session.initial first allocated) := by
  refine ⟨rfl, ?_, fun h => absurd rfl h⟩
  rw [samplesIn, decodedStream, Machine.outputs, List.flatten_nil, List.append_nil]
  exact (filter.kept_of_length_eq allocated.size_eq).symm

section

variable {σ : Type} (fxns : UscFxns σ) (allocated : Buffer Sint16 delayBufDownSize16)

theorem ensureMaster_master (st : IngressState σ) :
    ∃ master, (ensureMaster allocated st).master = some master := by
  cases hm : st.master with
  | none => exact ⟨_, by simp only [ensureMaster, hm]; rfl⟩
  | some master => exact ⟨master, by simp only [ensureMaster, hm]⟩

theorem convertPacket_created {st : IngressState σ} {master : MSrcDownData}
    (hm : st.master = some master) :
    (convertPacket st).evsDec = st.evsDec ∧
      ∃ master', (convertPacket st).master = some master' := by
  simp only [convertPacket, hm, true_and]
  exact ⟨_, rfl⟩

/-- Every call leaves decoder and converter created. -/
theorem settled_step (st : IngressState σ) (c : Call) :
    settle fxns allocated ((ingress fxns allocated).step st c).1 =
      ((ingress fxns allocated).step st c).1 := by
  by_cases hc : c.Compact
  · rw [(step_compact fxns allocated st hc).1]
    obtain ⟨evsDec, hd⟩ := ensureEvsDec_evsDec fxns
      { st with mbIptDataIo := createEvsUpdPacketCompact (words c.buff) c.size1 st.mbIptDataIo }
    change (ready fxns st c).evsDec = some evsDec at hd
    obtain ⟨evsDec', hdecoded⟩ : ∃ evsDec', (decodePacket fxns (ready fxns st c)).evsDec =
        some evsDec' := ⟨_, by simp only [decodePacket, hd]; rfl⟩
    obtain ⟨hsame, -⟩ := ensureMaster_frame allocated (decodePacket fxns (ready fxns st c))
    obtain ⟨master, hm⟩ := ensureMaster_master allocated (decodePacket fxns (ready fxns st c))
    obtain ⟨hkept, master', hm'⟩ := convertPacket_created hm
    exact settle_of_created fxns allocated (hkept.trans (hsame.trans hdecoded)) hm'
  · rw [(step_other fxns allocated st hc).1]
    exact settle_idem fxns allocated st

theorem settled_after (codec : σ) {datagrams : List (List Uint8)}
    (hsome : datagrams.any accepted = true) :
    settle fxns allocated ((evsServer fxns allocated).after (start codec) datagrams).transcoder =
      ((evsServer fxns allocated).after (start codec) datagrams).transcoder := by
  rw [server_after]
  have hcalls : callsOf datagrams ≠ [] := by
    obtain ⟨d, hd, ha⟩ := List.any_eq_true.1 hsome
    exact List.ne_nil_of_mem (List.mem_map_of_mem (List.mem_filter.2 ⟨hd, ha⟩))
  obtain hnil | ⟨calls, c, hconcat⟩ := List.eq_nil_or_concat (callsOf datagrams)
  · exact absurd hnil hcalls
  · simp only [hconcat, List.concat_eq_append, Machine.after_concat]
    exact settled_step fxns allocated _ c

end

variable (lib) (ipps : IppsMalloc) (allocated)

/-- After every run the decoder object has executed the payloads of frame size that were not
dropped, each once and in the order of arrival, and nothing else. It was given their octets as
they came only where these are whole words or end in a zero. -/
theorem frames_decoded_once (codec : EvsWorld ε δ) (hblock : decoderBlock lib ipps codec ≠ 0)
    (datagrams : List (List Uint8)) (hsome : datagrams.any accepted = true) :
    (((evsServer (uscEvsFxns lib ipps) allocated).after (start codec) datagrams).transcoder.codec.memory
        (decoderBlock lib ipps codec)).dec =
      (decoding lib).after (firstDecoder lib ipps codec) ((heardOf datagrams).map heardAs) ∧
    ∀ p ∈ heardOf datagrams, ((heardAs p).memory.take p.length = p ↔
      p.length % 2 = 0 ∨ p.getLast? = some 0) := by
  obtain ⟨-, -, hshows⟩ := serves_run lib ipps allocated codec hblock datagrams
  rw [settled_after _ allocated codec hsome] at hshows
  constructor
  · rw [hshows.decoder, session_after, ← framesOf_eq]
    exact hearing_decoder lib _ _
  · intro p _
    rw [heardAs_memory]
    exact frameMemory_intact_iff p

theorem answer_step (s : Session δ) {datagram : List Uint8} (h : accepted datagram = true) :
    ((session lib).step s datagram).2 = ((session lib).step s datagram).1.answer
      (responseHeader s.counters (receive datagram)) (payloadOf datagram) := by
  simp only [session, if_pos h]
  rfl

/-- What is answered after every run: the last 20 ms of the filtered stream, cut short by the
12 octets of the header, to a frame, once the decoder has executed one. -/
theorem reply_stream (hfull : FullFrames lib) (codec : EvsWorld ε δ)
    (hblock : decoderBlock lib ipps codec ≠ 0) (datagrams : List (List Uint8))
    (datagram : List Uint8) :
    let frames := framesOf (datagrams ++ [datagram])
    let line := samplesIn lib (firstDecoder lib ipps codec) allocated frames
    reply (uscEvsFxns lib ipps) allocated
        ((evsServer (uscEvsFxns lib ipps) allocated).after (start codec) datagrams) datagram =
      if accepted datagram && (isFrame (payloadOf datagram) && !frames.isEmpty) then
        responseHeader (shift {} (datagrams.countP accepted)) (receive datagram) ++
          octets (((filter.outputs line (160 * frames.length)).drop
            (160 * (frames.length - 1))).take 154)
      else [] := by
  intro frames line
  obtain ⟨-, hserves⟩ := serves_run lib ipps allocated codec hblock datagrams
  have hreply := (step_serves lib ipps allocated hblock _ _ datagram hserves).1
  have hnext : (session lib).after (Session.initial (firstDecoder lib ipps codec) allocated)
      (datagrams ++ [datagram]) = { (hearing lib).after
        (Session.initial (firstDecoder lib ipps codec) allocated) frames with
          counters := shift {} ((datagrams ++ [datagram]).countP accepted) } :=
    session_after lib _ _
  have hplays := plays_run hfull (plays_initial lib (firstDecoder lib ipps codec) allocated) frames
  have hheard : ((hearing lib).after
      (Session.initial (firstDecoder lib ipps codec) allocated) frames).heard = !frames.isEmpty :=
    hearing_heard lib _ frames
  rw [Machine.after_concat] at hnext
  rw [reply, hreply]
  by_cases ha : accepted datagram = true
  · rw [answer_step lib _ ha, hnext, session_after, ha, Bool.true_and, Session.answer]
    simp only [hheard]
    by_cases hsent : (isFrame (payloadOf datagram) && !frames.isEmpty) = true
    · have hne : frames ≠ [] := by
        rintro he
        simp [he] at hsent
      rw [if_pos hsent, if_pos hsent, show 308 = 2 * 154 from rfl, octets_take, ← hplays.pcm hne,
        List.take_take]
      rfl
    · rw [if_neg hsent, if_neg hsent]
  · rw [session, if_neg (by simp [ha])]
    simp only [if_neg ha]

end

/-- Two accepted datagrams, one without a payload. -/
theorem frames_decoded_once_two :
    (((evsServer (uscEvsFxns silentLib spacious) (Buffer.replicate _ 0)).after (start blankWorld)
        [bareRequest, frameDatagram]).transcoder.codec.memory
          (decoderBlock silentLib spacious blankWorld)).dec =
      (decoding silentLib).after () ((heardOf [bareRequest, frameDatagram]).map heardAs) ∧
    ∀ p ∈ heardOf [bareRequest, frameDatagram], ((heardAs p).memory.take p.length = p ↔
      p.length % 2 = 0 ∨ p.getLast? = some 0) :=
  frames_decoded_once silentLib (Buffer.replicate _ 0) spacious blankWorld (spacious_address _ _)
    [bareRequest, frameDatagram] (by decide)

theorem silentLib_fullFrames : FullFrames silentLib := fun _ _ => List.length_replicate

theorem reply_stream_first :
    let frames := framesOf ([bareRequest] ++ [frameDatagram])
    let line := samplesIn silentLib () (Buffer.replicate _ 0) frames
    reply (uscEvsFxns silentLib spacious) (Buffer.replicate _ 0)
        ((evsServer (uscEvsFxns silentLib spacious) (Buffer.replicate _ 0)).after (start blankWorld)
          [bareRequest]) frameDatagram =
      if accepted frameDatagram && (isFrame (payloadOf frameDatagram) && !frames.isEmpty) then
        responseHeader (shift {} ([bareRequest].countP accepted)) (receive frameDatagram) ++
          octets (((filter.outputs line (160 * frames.length)).drop
            (160 * (frames.length - 1))).take 154)
      else [] :=
  reply_stream silentLib (Buffer.replicate _ 0) spacious silentLib_fullFrames blankWorld
    (spacious_address _ _) [bareRequest] frameDatagram

end RtpServer.Verify.AudioStream
