import RtpServer.Source.RtpClient
import Mathlib.Data.List.TakeWhile

/-!
# The recording the client plays

A recording holds a packet a line, two hexadecimal digits an octet. The client sends the
packets in order, from the first one again after the last, until it has sent as many as it was
asked for, and one in any case.
-/
namespace RtpServer.Verify.Recording

open RtpServer.Library RtpServer.Source RtpServer.Source.RtpClient

/-- The text has two digits, of either case, for every octet. -/
inductive Spells : List Uint8 → List Uint8 → Prop where
  | nil : Spells [] []
  | cons {a b : Uint8} {high low : Nat} {text octets : List Uint8} (hhigh : hexDigit a = some high)
      (hlow : hexDigit b = some low) (hrest : Spells text octets) :
      Spells (a :: b :: text) (BitVec.ofNat 8 (16 * high + low) :: octets)

/-- A digit is no white space, no sign, no newline and no end of a string. -/
theorem digit_range {c : Uint8} {digit : Nat} (h : hexDigit c = some digit) :
    48 ≤ c.toNat ∧ c.toNat ≤ 102 := by
  unfold hexDigit at h
  split at h
  · omega
  · split at h
    · omega
    · split at h
      · omega
      · cases h

theorem digit_ne {c : Uint8} {digit : Nat} (h : hexDigit c = some digit) {d : Uint8}
    (hd : d.toNat < 48) : c ≠ d := by
  rintro rfl
  have hrange := digit_range h
  omega

theorem not_isspace {c : Uint8} {digit : Nat} (h : hexDigit c = some digit) :
    isspace c = false := by
  have hrange := digit_range h
  simp only [isspace, Bool.or_eq_false_iff, Bool.and_eq_false_iff, decide_eq_false_iff_not]
  omega

theorem sscanf02x_digits {a b : Uint8} {high low : Nat} (hhigh : hexDigit a = some high)
    (hlow : hexDigit b = some low) (rest : List Uint8) (t : Uint32) :
    sscanf02x (a :: b :: rest) t = BitVec.ofNat 32 (16 * high + low) := by
  have hspace : (a :: b :: rest).dropWhile isspace = a :: b :: rest := by
    rw [List.dropWhile_cons, not_isspace hhigh]
    rfl
  have hplus : a ≠ 43 := digit_ne hhigh (by decide)
  have hminus : a ≠ 45 := digit_ne hhigh (by decide)
  unfold sscanf02x
  rw [hspace]
  simp only [if_neg hplus, if_neg hminus, List.head?_cons, Option.bind_some, hhigh, hlow]

theorem dataBuf_spells {text octets : List Uint8} (h : Spells text octets) :
    dataBuf text = octets := by
  induction h with
  | nil => rfl
  | @cons a b high low text octets hhigh hlow hrest ih =>
    have hlen : (a :: b :: text).length / 2 = text.length / 2 + 1 := by
      simp only [List.length_cons]
      omega
    have hfirst : (sscanf02x ((a :: b :: text).drop (0 * 2)) 0).setWidth 8 =
        BitVec.ofNat 8 (16 * high + low) := by
      rw [Nat.zero_mul, List.drop_zero, sscanf02x_digits hhigh hlow]
      exact BitVec.setWidth_ofNat_of_le (by decide) _
    have hdrop : ∀ i, (a :: b :: text).drop ((i + 1) * 2) = text.drop (i * 2) := fun i => by
      rw [Nat.add_mul]
      rfl
    unfold dataBuf at ih ⊢
    rw [hlen, List.range_succ_eq_map, List.map_cons, List.map_map, hfirst]
    refine congrArg (List.cons _) (Eq.trans ?_ ih)
    exact List.map_congr_left fun i _ => by rw [Function.comp_apply, Nat.succ_eq_add_one, hdrop]

theorem Spells.length_eq {text octets : List Uint8} (h : Spells text octets) :
    text.length = 2 * octets.length := by
  induction h with
  | nil => rfl
  | cons hhigh hlow hrest ih =>
    simp only [List.length_cons, ih]
    omega

theorem Spells.digit {text octets : List Uint8} (h : Spells text octets) {c : Uint8}
    (hc : c ∈ text) : ∃ digit, hexDigit c = some digit := by
  induction h with
  | nil => cases hc
  | cons hhigh hlow hrest ih =>
    rcases List.mem_cons.1 hc with rfl | hc
    · exact ⟨_, hhigh⟩
    · rcases List.mem_cons.1 hc with rfl | hc
      · exact ⟨_, hlow⟩
      · exact ih hc

theorem lineOf_newline {text : List Uint8} (htext : ∀ c ∈ text, c ≠ newline) (rest : List Uint8)
    {room : Nat} (hroom : text.length < room) :
    lineOf room (text ++ newline :: rest) = text ++ [newline] := by
  induction text generalizing room with
  | nil =>
    cases room with
    | zero => cases hroom
    | succ room => simp [lineOf]
  | cons c text ih =>
    cases room with
    | zero => cases hroom
    | succ room =>
      have hc : c ≠ newline := htext c List.mem_cons_self
      have hrest := ih (fun d hd => htext d (List.mem_cons_of_mem _ hd)) (Nat.lt_of_succ_lt_succ hroom)
      simp only [List.cons_append, lineOf, if_neg hc, hrest]

theorem lineOf_eof {text : List Uint8} (htext : ∀ c ∈ text, c ≠ newline) {room : Nat}
    (hroom : text.length ≤ room) : lineOf room text = text := by
  induction text generalizing room with
  | nil => cases room <;> rfl
  | cons c text ih =>
    cases room with
    | zero => cases hroom
    | succ room =>
      have hc : c ≠ newline := htext c List.mem_cons_self
      have hrest := ih (fun d hd => htext d (List.mem_cons_of_mem _ hd)) (Nat.le_of_succ_le_succ hroom)
      simp only [lineOf, if_neg hc, hrest]

theorem cString_eq {memory : List Uint8} (h : ∀ c ∈ memory, c ≠ 0) : cString memory = memory :=
  List.takeWhile_eq_self_iff.2 fun c hc => by simpa using h c hc

/-- The file holds these packets, each on a line the client reads at once; the newline after
the last may be missing. -/
inductive Records : List Uint8 → List (List Uint8) → Prop where
  | nil : Records [] []
  | last {text packet : List Uint8} (htext : Spells text packet) (hne : packet ≠ [])
      (hroom : 2 * packet.length + 1 < dataStrSize) : Records text [packet]
  | line {text packet file : List Uint8} {packets : List (List Uint8)} (htext : Spells text packet)
      (hroom : 2 * packet.length + 1 < dataStrSize) (hrest : Records file packets) :
      Records (text ++ newline :: file) (packet :: packets)

theorem fgets_records {file packet : List Uint8} {packets : List (List Uint8)}
    (h : Records file (packet :: packets)) :
    ∃ line text rest, fgets dataStrSize file = some (line, rest) ∧
      chomp (cString line) = some text ∧ dataBuf text = packet ∧ Records rest packets := by
  cases h with
  | last htext hne hroom =>
    have hdigit : ∀ c ∈ file, ∀ d : Uint8, d.toNat < 48 → c ≠ d := fun c hc d hd =>
      let ⟨_, h⟩ := htext.digit hc
      digit_ne h hd
    have hfile : file ≠ [] := by
      rintro rfl
      cases htext
      exact hne rfl
    have hline : lineOf (dataStrSize - 1) file = file :=
      lineOf_eof (fun c hc => hdigit c hc _ (by decide)) (by rw [htext.length_eq]; omega)
    refine ⟨file, file, [], ?_, ?_, dataBuf_spells htext, .nil⟩
    · rw [fgets, if_neg hfile, hline, List.drop_length]
    · rw [cString_eq fun c hc => hdigit c hc _ (by decide), chomp, List.getLast?_eq_getLast_of_ne_nil hfile,
        Option.map_some, if_neg (hdigit _ (List.getLast_mem hfile) _ (by decide))]
  | @line text _ rest _ htext hroom hrest =>
    have hdigit : ∀ c ∈ text, ∀ d : Uint8, d.toNat < 48 → c ≠ d := fun c hc d hd =>
      let ⟨_, h⟩ := htext.digit hc
      digit_ne h hd
    have hline : lineOf (dataStrSize - 1) (text ++ newline :: rest) = text ++ [newline] :=
      lineOf_newline (fun c hc => hdigit c hc _ (by decide)) rest (by rw [htext.length_eq]; omega)
    refine ⟨text ++ [newline], text, rest, ?_, ?_, dataBuf_spells htext, hrest⟩
    · rw [fgets, if_neg (by simp), hline]
      simp
    · have hnull : ∀ c ∈ text ++ [newline], c ≠ 0 := by
        intro c hc
        rcases List.mem_append.1 hc with hc | hc
        · exact hdigit c hc _ (by decide)
        · rw [List.mem_singleton.1 hc]
          decide
      rw [cString_eq hnull, chomp, List.getLast?_concat, Option.map_some, if_pos rfl,
        List.dropLast_concat]

theorem fgets_end {file : List Uint8} (h : Records file []) : fgets dataStrSize file = none := by
  cases h with
  | nil => rfl

/-- How many packets the client sends when it is asked for `n`. -/
def frames (n : Int) : Nat := max 1 n.toNat

def packetAt (packets : List (List Uint8)) (k : Nat) : List Uint8 :=
  packets.getD (k % packets.length) []

variable {file : List Uint8} {packets : List (List Uint8)} {n : Int} {requests : List (List Uint8)}
  {st : ClientState}

/-- What is left of the file begins with the packet at an index, or the file is at its end. -/
structure Plays (file : List Uint8) (packets : List (List Uint8)) (n : Int)
    (requests : List (List Uint8)) (st : ClientState) : Prop where
  file_eq : st.file = file
  max_eq : st.frameNumberMax = n
  number_eq : st.frameNumber = requests.length
  position : ∃ k ≤ packets.length, k % packets.length = requests.length % packets.length ∧
    Records st.rest (packets.drop k)
  running_iff : st.running = true ↔ requests.length < frames n
  length_le : requests.length ≤ frames n
  requests_eq : requests = (List.range requests.length).map (packetAt packets)

/-- The next line to read, as the packet it holds and where reading goes on. -/
def ReadsNext (packets requests : List (List Uint8)) (st : ClientState) : Prop :=
  ∃ text, chomp (cString (readLine st).1) = some text ∧
    dataBuf text = packetAt packets requests.length ∧
    ∃ k ≤ packets.length, k % packets.length = (requests.length + 1) % packets.length ∧
      Records (readLine st).2 (packets.drop k)

theorem readsNext_of_line {line text rest : List Uint8} {k : Nat}
    (hmod : k % packets.length = requests.length % packets.length) (hk : k < packets.length)
    (hread : readLine st = (line, rest)) (hchomp : chomp (cString line) = some text)
    (hdata : dataBuf text = packets[k]) (hleft : Records rest (packets.drop (k + 1))) :
    ReadsNext packets requests st := by
  unfold ReadsNext
  rw [hread]
  refine ⟨text, hchomp, ?_, k + 1, hk, ?_, hleft⟩
  · rw [hdata, packetAt, ← hmod, Nat.mod_eq_of_lt hk, List.getD_eq_getElem _ _ hk]
  · rw [Nat.add_mod, hmod, ← Nat.add_mod]

theorem Plays.readsNext (hfile : Records file packets) (hne : packets ≠ [])
    (h : Plays file packets n requests st) : ReadsNext packets requests st := by
  obtain ⟨k, hk, hmod, hrest⟩ := h.position
  by_cases hend : k = packets.length
  · -- at the end of the file: the first line again
    subst hend
    rw [List.drop_length] at hrest
    obtain ⟨packet, others, rfl⟩ := List.exists_cons_of_ne_nil hne
    obtain ⟨line, text, rest, hline, hchomp, hdata, hleft⟩ := fgets_records hfile
    have hread : readLine st = (line, rest) := by
      rw [readLine, fgets_end hrest, h.file_eq, hline]
      rfl
    have hzero : 0 % (packet :: others).length = requests.length % (packet :: others).length := by
      rw [← hmod, Nat.mod_self, Nat.zero_mod]
    exact readsNext_of_line hzero (Nat.succ_pos _) hread hchomp hdata hleft
  · have hlt : k < packets.length := by omega
    rw [List.drop_eq_getElem_cons hlt] at hrest
    obtain ⟨line, text, rest, hline, hchomp, hdata, hleft⟩ := fgets_records hrest
    have hread : readLine st = (line, rest) := by
      rw [readLine, hline]
      rfl
    exact readsNext_of_line hmod hlt hread hchomp hdata hleft

theorem compose_eq (hfile : Records file packets) (hne : packets ≠ [])
    (h : Plays file packets n requests st) (hrunning : st.running = true) :
    ∃ rest, compose st = some (packetAt packets requests.length, { st with rest := rest }) ∧
      ∃ k ≤ packets.length, k % packets.length = (requests.length + 1) % packets.length ∧
        Records rest (packets.drop k) := by
  obtain ⟨text, hchomp, hdata, hposition⟩ := h.readsNext hfile hne
  refine ⟨(readLine st).2, ?_, hposition⟩
  rw [compose, if_pos hrunning, hchomp, Option.map_some, hdata]

theorem plays_follows (hfile : Records file packets) (hne : packets ≠ [])
    (h : rtpClient.Follows (.start file n) requests st) : Plays file packets n requests st := by
  induction h with
  | start =>
    refine ⟨rfl, rfl, rfl, ⟨0, Nat.zero_le _, rfl, hfile⟩, iff_of_true rfl ?_, Nat.zero_le _, rfl⟩
    exact Nat.lt_of_lt_of_le Nat.zero_lt_one (Nat.le_max_left _ _)
  | @exchange requests st st' packet hbefore hsend ih =>
    have hrunning : st.running = true := by
      by_contra hstopped
      have hnone : compose st = none := if_neg hstopped
      cases hnone.symm.trans hsend
    obtain ⟨rest, hcompose, hposition⟩ := compose_eq hfile hne ih hrunning
    obtain ⟨rfl, rfl⟩ := Prod.mk.inj (Option.some.inj (hcompose.symm.trans hsend))
    have hlt := ih.running_iff.1 hrunning
    refine ⟨ih.file_eq, ih.max_eq, ?_, ?_, ?_, ?_, ?_⟩
    · simp [rtpClient, nextTurn, ih.number_eq]
    · simpa [rtpClient, nextTurn] using hposition
    · simp only [rtpClient, nextTurn, ih.number_eq, ih.max_eq, decide_eq_true_eq, frames,
        List.length_append, List.length_singleton]
      omega
    · rw [List.length_append, List.length_singleton]
      exact hlt
    · rw [List.length_append, List.length_singleton, List.range_succ, List.map_append,
        ← ih.requests_eq]
      rfl

theorem Plays.stops_iff (hfile : Records file packets) (hne : packets ≠ [])
    (h : Plays file packets n requests st) :
    rtpClient.send st = none ↔ requests.length = frames n := by
  have hle := h.length_le
  constructor
  · intro hnone
    by_contra hmore
    obtain ⟨rest, hcompose, -⟩ := compose_eq hfile hne h (h.running_iff.2 (by omega))
    cases hcompose.symm.trans hnone
  · intro hall
    have hstopped : ¬ st.running = true := fun hrunning => by
      have hlt := h.running_iff.1 hrunning
      omega
    exact if_neg hstopped

/-- The client on its own: whatever has come back, it sends the packets of the recording over and
over, and stops after as many as it was asked for and one at least. -/
theorem plays_recording (hfile : Records file packets) (hne : packets ≠ [])
    (h : rtpClient.Follows (.start file n) requests st) :
    requests = (List.range requests.length).map (packetAt packets) ∧
      requests.length ≤ frames n ∧
      (rtpClient.send st = none ↔ requests.length = frames n) := by
  have hplays := plays_follows hfile hne h
  exact ⟨hplays.requests_eq, hplays.length_le, hplays.stops_iff hfile hne⟩

/-- Two packets of one octet, the second without a newline. -/
def twoLines : List Uint8 := [56, 48, newline, 54, 49]

theorem records_twoLines : Records twoLines [[0x80], [0x61]] :=
  .line (@Spells.cons 56 48 8 0 [] [] rfl rfl .nil) (by decide)
    (.last (@Spells.cons 54 49 6 1 [] [] rfl rfl .nil) (by decide) (by decide))

theorem plays_recording_twoLines :
    let requests : List (List Uint8) := [[0x80], [0x61], [0x80]]
    ∃ st, requests = (List.range requests.length).map (packetAt [[0x80], [0x61]]) ∧
      requests.length ≤ frames 3 ∧
      (rtpClient.send st = none ↔ requests.length = frames 3) :=
  ⟨_, plays_recording records_twoLines (by decide)
    (.exchange (.exchange (.exchange .start rfl) rfl) rfl)⟩

end RtpServer.Verify.Recording
