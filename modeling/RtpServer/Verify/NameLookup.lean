import Mathlib.Data.List.Induction
import RtpServer.Source.StrTable

/-!
# Looking up names

The loop passes entries that do not match one by one. It ends at the first match or at the
terminator if either is among the first 2^16 entries, which is as far as its index counts;
and at the terminator the value is compared before the string.
-/
namespace RtpServer.Verify.NameLookup

open RtpServer.Source RtpServer.Source.StrTable

/-- A value with its name. -/
abbrev Entry := Uint16 × String

def table (entries : List Entry) : List StrTableT :=
  entries.map (fun e => strTableLine e.1 e.2) ++ [strTableEnd]

/-- The name a lookup is for. -/
def nameOf (value : Uint16) (entries : List Entry) : String :=
  ((entries.find? fun e => e.1 = value).map Prod.snd).getD "null"

variable {value : Uint16} {entries : List Entry}

theorem table_entry {k : Nat} {e : Entry} (h : entries[k]? = some e) :
    (table entries)[k]? = some (strTableLine e.1 e.2) := by
  obtain ⟨hk, rfl⟩ := List.getElem?_eq_some_iff.1 h
  rw [table, List.getElem?_append_left (by rwa [List.length_map]), List.getElem?_map, h,
    Option.map_some]

theorem table_end : (table entries)[entries.length]? = some strTableEnd := by
  rw [table, List.getElem?_append_right (Nat.le_of_eq (List.length_map _)),
    List.length_map, Nat.sub_self]
  rfl

theorem round_passes {i : Uint16} {e : Entry} (hi : entries[i.toNat]? = some e)
    (hne : e.1 ≠ value) (rounds : Nat) :
    valueToStrFrom value (table entries) (rounds + 1) i =
      valueToStrFrom value (table entries) rounds (i + 1) := by
  rw [valueToStrFrom, table_entry hi]
  dsimp only [strTableLine]
  rw [if_neg (Ne.symm hne), if_neg (Option.some_ne_none _)]

theorem round_returns {i : Uint16} {e : Entry} (hi : entries[i.toNat]? = some e)
    (heq : e.1 = value) (rounds : Nat) :
    valueToStrFrom value (table entries) (rounds + 1) i = .returned (some e.2) := by
  rw [valueToStrFrom, table_entry hi]
  exact if_pos heq.symm

/-- At the terminator: its value is that of no name, but a value all the same. -/
theorem round_ends {i : Uint16} (hi : i.toNat = entries.length) (rounds : Nat) :
    valueToStrFrom value (table entries) (rounds + 1) i =
      .returned (if value = 0xFFFF then none else some "null") := by
  rw [valueToStrFrom, hi, table_end]
  dsimp only [strTableEnd]
  split <;> rfl

/-- The entries in front that do not match take a round each. -/
theorem rounds_pass (passed rest : List Entry) (hne : ∀ e ∈ passed, e.1 ≠ value)
    (hwrap : passed.length ≤ 65536) (rounds : Nat) :
    valueToStr value (table (passed ++ rest)) (passed.length + rounds) =
      valueToStrFrom value (table (passed ++ rest)) rounds (BitVec.ofNat 16 passed.length) := by
  induction passed using List.reverseRecOn generalizing rest rounds with
  | nil => rw [List.length_nil, Nat.zero_add]; rfl
  | append_singleton passed e ih =>
    rw [List.length_append, List.length_singleton] at hwrap ⊢
    have hnat : (BitVec.ofNat 16 passed.length).toNat = passed.length :=
      Nat.mod_eq_of_lt (by omega)
    have hentry : (passed ++ e :: rest)[(BitVec.ofNat 16 passed.length).toNat]? = some e := by
      rw [hnat, List.getElem?_append_right (Nat.le_refl _), Nat.sub_self]
      rfl
    rw [List.append_assoc, List.singleton_append, Nat.add_assoc, Nat.add_comm 1 rounds,
      ih (e :: rest) (fun x hx => hne x (List.mem_append_left _ hx)) (by omega),
      round_passes hentry (hne e (List.mem_append_right _ List.mem_cons_self)), BitVec.ofNat_add]
    rfl

/-- Without a match among the first 2^16 entries and without the terminator there, the index
wraps around and the loop never ends. -/
theorem rounds_never_end (hlen : 65536 ≤ entries.length)
    (hne : ∀ e ∈ entries.take 65536, e.1 ≠ value) (rounds : Nat) (i : Uint16) :
    valueToStrFrom value (table entries) rounds i = .running := by
  induction rounds generalizing i with
  | zero => rfl
  | succ rounds ih =>
    have hi : i.toNat < entries.length := Nat.lt_of_lt_of_le i.isLt hlen
    have hmem : entries[i.toNat] ∈ entries.take 65536 :=
      List.mem_take_iff_getElem.2 ⟨i.toNat, Nat.lt_min.2 ⟨i.isLt, hi⟩, rfl⟩
    rw [round_passes (List.getElem?_eq_getElem hi) (hne _ hmem), ih]

/-- What a lookup has ended with stays its outcome with more rounds. -/
theorem ended_stable {outcome : Outcome} {rounds : Nat} {t : List StrTableT} {i : Uint16}
    (h : valueToStrFrom value t rounds i = outcome) (hended : outcome ≠ .running) (more : Nat) :
    valueToStrFrom value t (rounds + more) i = outcome := by
  induction rounds generalizing i with
  | zero =>
    rw [valueToStrFrom] at h
    exact absurd h.symm hended
  | succ rounds ih =>
    rw [Nat.add_right_comm]
    rw [valueToStrFrom] at h ⊢
    cases ht : t[i.toNat]? with
    | none =>
      rw [ht] at h
      exact h
    | some entry =>
      rw [ht] at h
      dsimp only at h ⊢
      by_cases hvalue : value = entry.value
      · rw [if_pos hvalue] at h ⊢
        exact h
      · rw [if_neg hvalue] at h ⊢
        by_cases hnull : entry.str = none
        · rw [if_pos hnull] at h ⊢
          exact h
        · rw [if_neg hnull] at h ⊢
          exact ih h

theorem ended_unique {outcome outcome' : Outcome} {rounds rounds' : Nat} {t : List StrTableT}
    (h : valueToStr value t rounds = outcome) (hended : outcome ≠ .running)
    (h' : valueToStr value t rounds' = outcome') (hended' : outcome' ≠ .running) :
    outcome = outcome' := by
  have hmore : valueToStr value t (rounds + rounds') = outcome := ended_stable h hended rounds'
  have hmore' : valueToStr value t (rounds' + rounds) = outcome' := ended_stable h' hended' rounds
  rw [← hmore, Nat.add_comm, hmore']

/-- The lookup ends with the name it is for and never reads past the terminator. -/
structure FindsName (value : Uint16) (entries : List Entry) : Prop where
  returns : ∃ rounds,
    valueToStr value (table entries) rounds = .returned (some (nameOf value entries))
  inside : ∀ rounds, valueToStr value (table entries) rounds ≠ .outside

theorem findsName_of_returns {rounds : Nat}
    (h : valueToStr value (table entries) rounds = .returned (some (nameOf value entries))) :
    FindsName value entries where
  returns := ⟨rounds, h⟩
  inside := fun _ hout =>
    Outcome.noConfusion (ended_unique h Outcome.noConfusion hout Outcome.noConfusion)

theorem exists_first_match {e : Entry} (hmem : e ∈ entries.take 65536) (he : e.1 = value) :
    ∃ passed found rest, entries = passed ++ found :: rest ∧ passed.length < 65536 ∧
      found.1 = value ∧ ∀ x ∈ passed, x.1 ≠ value := by
  obtain ⟨found, hfound⟩ : ∃ found,
      (entries.take 65536).find? (fun x => x.1 = value) = some found :=
    Option.isSome_iff_exists.1 (List.find?_isSome.2 ⟨e, hmem, decide_eq_true he⟩)
  obtain ⟨hvalue, passed, rest, hsplit, hpassed⟩ := List.find?_eq_some_iff_append.1 hfound
  refine ⟨passed, found, rest ++ entries.drop 65536, ?_, ?_, of_decide_eq_true hvalue, ?_⟩
  · rw [← List.cons_append, ← List.append_assoc, ← hsplit, List.take_append_drop]
  · have hlen : (passed ++ found :: rest).length ≤ 65536 := by
      rw [← hsplit]
      exact List.length_take_le _ _
    rw [List.length_append, List.length_cons] at hlen
    omega
  · intro x hx
    simpa using hpassed x hx

/-- The match that ends the lookup is the first one. -/
theorem findsName_of_match {e : Entry} (hmem : e ∈ entries.take 65536) (he : e.1 = value) :
    FindsName value entries := by
  obtain ⟨passed, found, rest, rfl, hwrap, hfound, hpassed⟩ := exists_first_match hmem he
  have hname : nameOf value (passed ++ found :: rest) = found.2 := by
    have hfirst : (passed ++ found :: rest).find? (fun x => x.1 = value) = some found :=
      List.find?_eq_some_iff_append.2 ⟨decide_eq_true hfound, passed, rest, rfl,
        fun x hx => by simpa using hpassed x hx⟩
    rw [nameOf, hfirst]
    rfl
  have hentry :
      (passed ++ found :: rest)[(BitVec.ofNat 16 passed.length).toNat]? = some found := by
    rw [BitVec.toNat_ofNat, Nat.mod_eq_of_lt hwrap, List.getElem?_append_right (Nat.le_refl _),
      Nat.sub_self]
    rfl
  apply @findsName_of_returns _ _ (passed.length + 1)
  rw [rounds_pass passed _ hpassed (by omega), round_returns hentry hfound, hname]

/-- Without a match the terminator ends the lookup, if the index counts up to it. -/
theorem returns_at_end (hlen : entries.length < 65536) (hnone : ∀ e ∈ entries, e.1 ≠ value) :
    valueToStr value (table entries) (entries.length + 1) =
      .returned (if value = 0xFFFF then none else some "null") := by
  have hpass := rounds_pass entries [] hnone (by omega) 1
  rw [List.append_nil] at hpass
  rw [hpass, round_ends (by rw [BitVec.toNat_ofNat, Nat.mod_eq_of_lt hlen])]

theorem nameOf_none (hnone : ∀ e ∈ entries, e.1 ≠ value) : nameOf value entries = "null" := by
  have hfind : entries.find? (fun e => e.1 = value) = none :=
    List.find?_eq_none.2 fun e he heq => hnone e he (of_decide_eq_true heq)
  rw [nameOf, hfind]
  rfl

/-- Every match is found that is among the entries the index counts. Without one, the lookup
ends at the terminator, with the `NULL` beside it if the value is the terminator's own. -/
theorem findsName_iff (value : Uint16) (entries : List Entry) :
    FindsName value entries ↔
      (∃ e ∈ entries.take 65536, e.1 = value) ∨
        (value ≠ 0xFFFF ∧ entries.length < 65536) := by
  by_cases hmatch : ∃ e ∈ entries.take 65536, e.1 = value
  · obtain ⟨e, hmem, he⟩ := hmatch
    exact iff_of_true (findsName_of_match hmem he) (.inl ⟨e, hmem, he⟩)
  have hpassed : ∀ e ∈ entries.take 65536, e.1 ≠ value := fun e he heq => hmatch ⟨e, he, heq⟩
  by_cases hlen : entries.length < 65536
  · have hnone : ∀ e ∈ entries, e.1 ≠ value := by
      rwa [List.take_of_length_le (Nat.le_of_lt hlen)] at hpassed
    have hend := returns_at_end hlen hnone
    by_cases hvalue : value = 0xFFFF
    · rw [if_pos hvalue] at hend
      apply iff_of_false
      · rintro ⟨⟨rounds, hreturns⟩, -⟩
        have h := ended_unique hend Outcome.noConfusion hreturns Outcome.noConfusion
        exact absurd (Outcome.returned.inj h) (Option.some_ne_none _).symm
      · rintro (h | ⟨h, -⟩)
        · exact hmatch h
        · exact h hvalue
    · rw [if_neg hvalue, ← nameOf_none hnone] at hend
      exact iff_of_true (findsName_of_returns hend) (.inr ⟨hvalue, hlen⟩)
  · apply iff_of_false
    · rintro ⟨⟨rounds, hreturns⟩, -⟩
      have hrunning : valueToStr value (table entries) rounds = .running :=
        rounds_never_end (Nat.le_of_not_lt hlen) hpassed rounds 0
      exact Outcome.noConfusion (hreturns.symm.trans hrunning)
    · rintro (h | ⟨-, h⟩)
      · exact hmatch h
      · exact hlen h

def evsModeTab : List Entry := [(0, "UPD_EVS_PRIMARY_MODE"), (1, "UPD_EVS_WBIO_MODE")]

theorem findsName_terminator : ¬ FindsName 0xFFFF evsModeTab := by
  rintro ⟨⟨rounds, hreturns⟩, -⟩
  have hnull : valueToStr 0xFFFF (table evsModeTab) 3 = .returned none := rfl
  have h := ended_unique hnull Outcome.noConfusion hreturns Outcome.noConfusion
  exact absurd (Outcome.returned.inj h) (Option.some_ne_none _).symm

end RtpServer.Verify.NameLookup
