import SeqDetect.Triggered.Memory

/-!
# The comparators as written

`enable` is not in the sensitivity list of the comparator, so a comparator is resumed at
most twice by an event: when `reset` changes, and one delta cycle later when `input` does.
-/

namespace SeqDetect.Triggered

open Delta Vhdl Script

variable {signature : Signature}

/-- The port map of comparator `j`. -/
def comparatorMap (j : Fin signature.bytes.length) :
    List (String × Operand (Wire signature.bytes.length)) :=
  [("reset", .signal .reset), ("enable", .signal (enabling j)), ("data_in", .signal .input),
    ("sig_in", .hex (hexPair (signature.byte j))), ("is_valid", .signal (.cmp j))]

theorem chainCircuit_cmp (sensitivity : List String) (j : Fin signature.bytes.length) :
    chainCircuit sensitivity signature (.cmp j) =
      some ⟨sensitivity.flatMap fun formal => (actual (comparatorMap j) formal).reads,
        fun shown => compares j shown.now⟩ := by
  have written : chainCircuit sensitivity signature (.cmp j) =
      some ⟨sensitivity.flatMap fun formal => (actual (comparatorMap j) formal).reads,
        fun shown =>
          if shown.now .reset = .bit true then some (.bit false)
          else if shown.now (enabling j) = .bit true then
            if shown.now .input = (Operand.hex (hexPair (signature.byte j))).eval shown.now then
              some (.bit true)
            else some (.bit false)
          else none⟩ := rfl
  rw [written]
  congr 2
  funext shown
  rw [eval_hexPair _ (signature.byte_twoDigits j), compares]
  by_cases same : shown.now .input = .byte (signature.byte j) <;> simp [same]

/-- Any comparator that is sensitive to `reset` first leaves the other gates as they are. -/
theorem chain_gates (sensitivity : List String) (signature : Signature) :
    Gates (chainCircuit ("reset" :: sensitivity) signature) where
  reset := rfl
  data_in := rfl
  enable := by
    have written : chainCircuit ("reset" :: sensitivity) signature .enable =
        some ⟨[.data_in], fun shown =>
          some (if shown.now .data_in = .byte 0 then .logic .zero else .logic .one)⟩ := rfl
    rw [written]
    congr 2
    funext shown
    by_cases zero : shown.now .data_in = .byte 0
    · rw [if_pos zero, enables, decide_eq_false (not_not.mpr zero)]
      rfl
    · rw [if_neg zero, enables, decide_eq_true zero]
      rfl
  input := rfl
  cmp j := ⟨_, chainCircuit_cmp ("reset" :: sensitivity) j⟩
  en_and_cmp j := rfl
  isMatching := rfl
  output := rfl

section Waves

variable {shown : Snapshot (Wire signature.bytes.length) Value}

/-- The circuit of a chain as the design is written. -/
abbrev writtenCircuit (signature : Signature) : Circuit (Wire signature.bytes.length) Value :=
  chainCircuit ["reset", "data_in", "sig_in"] signature

theorem writtenCircuit_cmp (j : Fin signature.bytes.length) :
    writtenCircuit signature (.cmp j) =
      some ⟨[.reset, .input], fun shown => compares j shown.now⟩ :=
  chainCircuit_cmp _ j

/-- From the third delta cycle on, no comparator is resumed. -/
theorem written_late (start : Start shown) (j : Fin signature.bytes.length) (k : ℕ) :
    wave (writtenCircuit signature) shown (3 + k) (.cmp j) =
      wave (writtenCircuit signature) shown 3 (.cmp j) := by
  have gates := chain_gates ["data_in", "sig_in"] signature
  apply wave_idle (writtenCircuit_cmp j) 2
  intro k late read membership
  obtain ⟨k, rfl⟩ := Nat.exists_eq_add_of_le' late
  simp only [List.mem_cons, List.not_mem_nil, or_false] at membership
  rcases membership with rfl | rfl
  · rw [wave_undriven gates.reset, wave_undriven gates.reset]
  · rw [gates.wave_input start, gates.wave_input start]

theorem written_stable (start : Start shown) : Stable (writtenCircuit signature) shown 5 := by
  refine (chain_gates ["data_in", "sig_in"] signature).stable start 1 ?_
  intro k late j
  obtain ⟨k, rfl⟩ := Nat.exists_eq_add_of_le late
  exact written_late start j k

end Waves

section Steps

variable {memory : Memory} {state : State signature}

/-- In the first delta cycle a comparator is resumed by a change of `reset` only. -/
theorem written_released (holds : Holds memory state) (event : Event)
    (low : event.reset = false) (j : Fin signature.bytes.length) :
    wave (writtenCircuit signature) ⟨state, Netlist.poke state event.stimulus⟩ 2 (.cmp j) =
      .bit (memory.released signature.bytes j) := by
  have kept : Netlist.poke state event.stimulus (.cmp j) = .bit (memory.cmp j) := by
    simp [Event.stimulus, holds.cmp]
  rw [wave_driven (writtenCircuit_cmp j), Nat.zero_add, wave_zero, wave_one]
  dsimp only
  rw [holds.compares_now event low, kept, Memory.released]
  by_cases before : memory.reset = true
  · have event : state .reset ≠ Netlist.poke state event.stimulus .reset := by
      simp [Event.stimulus, holds.reset, before, low]
    rw [if_pos ⟨.reset, by simp, event⟩, before, Bool.true_and]
    cases memory.enabled j <;> rfl
  · rw [if_neg, if_neg (by simp [before])]
    rintro ⟨read, membership, changed⟩
    simp only [List.mem_cons, List.not_mem_nil, or_false] at membership
    rcases membership with rfl | rfl
    · simp [Event.stimulus, holds.reset, before, low] at changed
    · simp [Event.stimulus] at changed

/-- In the second delta cycle it is resumed by a new byte only. -/
theorem written_compared (holds : Holds memory state) (event : Event)
    (low : event.reset = false) (j : Fin signature.bytes.length) :
    wave (writtenCircuit signature) ⟨state, Netlist.poke state event.stimulus⟩ 3 (.cmp j) =
      .bit (memory.compared signature.bytes event.data_in j) := by
  have gates := chain_gates ["data_in", "sig_in"] signature
  have start := holds.toSettled.start event
  have resetLow : ∀ k, wave (writtenCircuit signature)
      ⟨state, Netlist.poke state event.stimulus⟩ (k + 1) .reset = .bit false := by
    intro k
    rw [wave_undriven gates.reset]
    simp [Event.stimulus, low]
  have oldInput : wave (writtenCircuit signature) ⟨state, Netlist.poke state event.stimulus⟩ 1
      .input = .byte memory.data_in := by
    rw [wave_one]
    simp [Event.stimulus, holds.input, holds.data_in]
  have newInput : wave (writtenCircuit signature) ⟨state, Netlist.poke state event.stimulus⟩ 2
      .input = .byte event.data_in := by
    rw [gates.wave_input start]
    simp [Event.stimulus]
  have assigns : compares j (wave (writtenCircuit signature)
      ⟨state, Netlist.poke state event.stimulus⟩ 2) =
      if (if j.val = 0 then carries event.data_in else memory.enabled j) then
        some (.bit (expects signature.bytes j event.data_in))
      else none := by
    rw [compares, resetLow, gates.wave_enabling_two holds, newInput, ← byte_eq_expects]
    simp
  have verdict : memory.compared signature.bytes event.data_in j =
      if event.data_in ≠ memory.data_in && (if j.val = 0 then carries event.data_in
        else memory.enabled j) then expects signature.bytes j event.data_in
      else memory.released signature.bytes j := by
    obtain ⟨_ | j, bound⟩ := j <;> rfl
  rw [wave_driven (writtenCircuit_cmp j), written_released holds event low, verdict]
  dsimp only
  rw [assigns]
  by_cases same : event.data_in = memory.data_in
  · rw [if_neg, if_neg (by simp [same])]
    rintro ⟨read, membership, changed⟩
    simp only [List.mem_cons, List.not_mem_nil, or_false] at membership
    rcases membership with rfl | rfl
    · exact changed ((resetLow 0).trans (resetLow 1).symm)
    · refine changed (oldInput.trans ?_)
      rw [← same]
      exact newInput.symm
  · have changed : wave (writtenCircuit signature) ⟨state, Netlist.poke state event.stimulus⟩ 1
        .input ≠ wave (writtenCircuit signature)
          ⟨state, Netlist.poke state event.stimulus⟩ 2 .input := by
      rw [oldInput, newInput]
      simpa using fun equality => same equality.symm
    rw [if_pos ⟨.input, by simp, changed⟩]
    simp only [ne_eq, same, not_false_eq_true, decide_true, Bool.true_and]
    cases (if j.val = 0 then carries event.data_in else memory.enabled j) <;> rfl

/-- The step lemma of a chain as it is written. -/
theorem written_step (holds : Holds memory state) (event : Event) :
    Lands (writtenCircuit signature) 5 ⟨state, Netlist.poke state event.stimulus⟩
      (Holds (memory.step signature.bytes event)) := by
  have gates := chain_gates ["data_in", "sig_in"] signature
  have start := holds.toSettled.start event
  have stable := written_stable start
  refine ⟨stable, gates.holds_next holds event stable _ ?_ ?_⟩
  · intro low j
    rw [← written_compared holds event low]
    exact written_late start j 2
  · intro low
    rw [gates.output_wave holds event low (fun
      | 0 => memory.cmp (signature.bytes.length - 1)
      | 1 => memory.released signature.bytes (signature.bytes.length - 1)
      | _ + 2 => memory.compared signature.bytes event.data_in (signature.bytes.length - 1)) ?_ 3]
    · simp [List.range_succ, Bool.or_assoc]
    · rintro (_ | _ | k)
      · rw [Nat.zero_add, wave_one]
        simp [Event.stimulus, holds.cmp, Signature.last]
      · exact written_released holds event low signature.last
      · rw [show k + 1 + 1 + 1 = 3 + k by omega, written_late start]
        exact written_compared holds event low signature.last

/-- A chain as it is written starts from any power-up values and steps with every event. -/
def written (signature : Signature) (data_in : Byte) :
    Discipline (writtenCircuit signature) (Event.mk true data_in).stimulus Event.stimulus where
  bound := 5
  Rests := Settled
  Tracks past := Holds (past.foldl (Memory.step signature.bytes) (.cleared data_in))
  initial state := by
    have gates := chain_gates ["data_in", "sig_in"] signature
    have start := gates.initial state
    exact ⟨written_stable start, gates.settled start (written_stable start)⟩
  start := by
    intro state settled
    have stable := written_stable (settled.start ⟨true, data_in⟩)
    exact ⟨stable, (chain_gates ["data_in", "sig_in"] signature).holds_cleared settled data_in
      stable⟩
  step := by
    intro past state event holds
    rw [List.foldl_append]
    exact written_step holds event

end Steps

end SeqDetect.Triggered
