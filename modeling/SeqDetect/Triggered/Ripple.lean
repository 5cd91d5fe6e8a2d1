import SeqDetect.Triggered.Written

/-!
# The comparators as latches

In the synthesis view a comparator is sensitive to its enable signal as well.  The verdict
of one stage then reaches the next one two delta cycles later, so one event can ripple
through a whole chain.
-/

namespace SeqDetect.Triggered

open Delta Vhdl Script

/-- A value that is renewed whenever the gate is open has been renewed if the gate ever was. -/
theorem latch_sequence {Val : Type*} {gate : ℕ → Bool} {renewed : Val} (held : ℕ → Val)
    (step : ∀ k, held (k + 1) = if gate k then renewed else held k) (k : ℕ) :
    held k = if (List.range k).any gate then renewed else held 0 := by
  induction k with
  | zero => rfl
  | succ k inductionHypothesis =>
      rw [step, inductionHypothesis, List.range_succ, List.any_append]
      cases (List.range k).any gate <;> cases last : gate k <;> simp [last]

variable {signature : Signature}

/-- The circuit of a chain in the synthesis view. -/
abbrev latchCircuit (signature : Signature) : Circuit (Wire signature.bytes.length) Value :=
  chainCircuit ["reset", "enable", "data_in", "sig_in"] signature

theorem latch_gates (signature : Signature) : Gates (latchCircuit signature) :=
  chain_gates ["enable", "data_in", "sig_in"] signature

/-- Every comparator agrees with what it reads. -/
def Transparent (state : State signature) : Prop :=
  ∀ j, state (.cmp j) = (compares j state).getD (state (.cmp j))

section Waves

variable {shown : Snapshot (Wire signature.bytes.length) Value}

theorem latch_wave
    (start : ∀ j, shown.now (.cmp j) = (compares j shown.last).getD (shown.last (.cmp j)))
    (j : Fin signature.bytes.length) (k : ℕ) :
    wave (latchCircuit signature) shown (k + 1) (.cmp j) =
      (compares j (wave (latchCircuit signature) shown k)).getD
        (wave (latchCircuit signature) shown k (.cmp j)) := by
  have driven : latchCircuit signature (.cmp j) =
      some ⟨[.reset, enabling j, .input], fun shown => compares j shown.now⟩ :=
    chainCircuit_cmp _ j
  refine wave_level driven ⟨fun _ => rfl, ?_⟩ (start j) k
  intro before after same
  simp only [compares, same .reset (by simp), same (enabling j) (by simp),
    same .input (by simp)]

theorem latch_late_of_enabling (gatesStart : Start shown)
    (start : ∀ j, shown.now (.cmp j) = (compares j shown.last).getD (shown.last (.cmp j)))
    (j : Fin signature.bytes.length) (since : ℕ)
    (enablingLate : ∀ k, wave (latchCircuit signature) shown (since + 2 + k) (enabling j) =
      wave (latchCircuit signature) shown (since + 2) (enabling j)) (k : ℕ) :
    wave (latchCircuit signature) shown (since + 3 + k) (.cmp j) =
      wave (latchCircuit signature) shown (since + 3) (.cmp j) := by
  have gates := latch_gates signature
  have assigns : ∀ k, compares j (wave (latchCircuit signature) shown (since + 2 + k)) =
      compares j (wave (latchCircuit signature) shown (since + 2)) := by
    intro k
    rw [compares, compares, enablingLate, wave_undriven gates.reset, gates.wave_input gatesStart,
      show since + 2 + k = since + 1 + k + 1 by omega, wave_undriven gates.reset,
      show since + 1 + k + 1 = since + k + 2 by omega, gates.wave_input gatesStart]
  have first := latch_wave start j (since + 2)
  induction k with
  | zero => rfl
  | succ k inductionHypothesis =>
      have next := latch_wave start j (since + 3 + k)
      rw [inductionHypothesis, show since + 3 + k = since + 2 + (k + 1) by omega, assigns] at next
      rw [show since + 3 + (k + 1) = since + 2 + (k + 1) + 1 by omega, next, first]
      cases compares j (wave (latchCircuit signature) shown (since + 2)) <;> rfl

/-- A chain of latches settles stage by stage. -/
theorem latch_late (gatesStart : Start shown)
    (start : ∀ j, shown.now (.cmp j) = (compares j shown.last).getD (shown.last (.cmp j)))
    (j : ℕ) (bound : j < signature.bytes.length) (k : ℕ) :
    wave (latchCircuit signature) shown (2 * j + 3 + k) (.cmp ⟨j, bound⟩) =
      wave (latchCircuit signature) shown (2 * j + 3) (.cmp ⟨j, bound⟩) := by
  have gates := latch_gates signature
  induction j generalizing k with
  | zero =>
      have first : enabling ⟨0, bound⟩ = Wire.enable := rfl
      refine latch_late_of_enabling gatesStart start ⟨0, bound⟩ 0 ?_ k
      intro k
      rw [first, gates.wave_enable gatesStart, show 0 + 2 + k = k + 2 by omega,
        gates.wave_enable gatesStart]
  | succ j inductionHypothesis =>
      have earlier : enabling ⟨j + 1, bound⟩ =
          Wire.en_and_cmp (⟨j, by omega⟩ : Fin signature.bytes.length) := rfl
      refine latch_late_of_enabling gatesStart start ⟨j + 1, bound⟩ (2 * j + 2) ?_ k
      intro k
      rw [earlier, show 2 * j + 2 + 2 + k = 2 * j + 3 + k + 1 by omega,
        gates.wave_en_and_cmp gatesStart, gates.wave_en_and_cmp gatesStart,
        inductionHypothesis (by omega), show 2 * j + 3 + k = 2 * j + 1 + k + 2 by omega,
        gates.wave_enable gatesStart, gates.wave_enable gatesStart]

/-- The bound on the delta cycles of one event grows with the length of the signature. -/
theorem latch_stable (gatesStart : Start shown)
    (start : ∀ j, shown.now (.cmp j) = (compares j shown.last).getD (shown.last (.cmp j))) :
    Stable (latchCircuit signature) shown (2 * signature.bytes.length + 3) := by
  have positive := signature.length_pos
  obtain ⟨last, length⟩ := Nat.exists_eq_add_of_le' positive
  have stable := (latch_gates signature).stable gatesStart (2 * last + 1) ?_
  · rwa [show 2 * last + 1 + 4 = 2 * signature.bytes.length + 3 by omega] at stable
  · intro k late j
    have early : 2 * j.val + 3 ≤ 2 * last + 1 + 2 := by omega
    obtain ⟨first, firstLate⟩ := Nat.exists_eq_add_of_le early
    obtain ⟨second, secondLate⟩ := Nat.exists_eq_add_of_le (early.trans late)
    rw [secondLate, firstLate, latch_late gatesStart start j.val j.isLt,
      latch_late gatesStart start j.val j.isLt]

end Waves

section Steps

variable {memory : Memory} {state : State signature}

theorem transparent_start (transparent : Transparent state) (event : Event)
    (j : Fin signature.bytes.length) :
    Netlist.poke state event.stimulus (.cmp j) = (compares j state).getD (state (.cmp j)) := by
  rw [← transparent j]
  simp [Event.stimulus]

variable (signature memory) in
/-- The verdict of each stage `k + 2` delta cycles after an event: it is renewed once its
enable signal, which shows the verdicts of the stage before, has been high. -/
def trace (event : Event) : ℕ → ℕ → Bool
  | 0, k =>
      if (List.range k).any fun _ => carries event.data_in then
        expects signature.bytes 0 event.data_in
      else memory.released signature.bytes 0
  | j + 1, k =>
      if (List.range k).any (fun
          | 0 => memory.enabled (j + 1)
          | i + 1 => carries event.data_in && trace event j i) then
        expects signature.bytes (j + 1) event.data_in
      else memory.released signature.bytes (j + 1)

theorem trace_zero (event : Event) (j : ℕ) :
    trace signature memory event j 0 = memory.released signature.bytes j := by
  cases j <;> rfl

theorem trace_first_succ (event : Event) (k : ℕ) :
    trace signature memory event 0 (k + 1) =
      memory.rippled signature.bytes event.data_in 0 := by
  rw [trace, Memory.rippled, List.range_succ, List.any_append]
  cases carries event.data_in <;> simp

theorem trace_later_succ (event : Event) (j k : ℕ) :
    trace signature memory event (j + 1) (k + 1) =
      if memory.enabled (j + 1) || (carries event.data_in &&
          (List.range k).any (trace signature memory event j)) then
        expects signature.bytes (j + 1) event.data_in
      else memory.released signature.bytes (j + 1) := by
  rw [trace, List.range_succ_eq_map, List.any_cons, List.any_map]
  cases carries event.data_in <;> simp [Function.comp_def]

theorem any_trace_of_final {event : Event} {j : ℕ}
    (values : ∀ k, trace signature memory event j k = memory.released signature.bytes j ∨
      trace signature memory event j k = memory.rippled signature.bytes event.data_in j)
    (final : trace signature memory event j (2 * j + 1) =
      memory.rippled signature.bytes event.data_in j) {k : ℕ} (late : 2 * j + 1 < k) :
    (List.range k).any (trace signature memory event j) =
      (memory.released signature.bytes j || memory.rippled signature.bytes event.data_in j) := by
  rw [Bool.eq_iff_iff, List.any_eq_true, Bool.or_eq_true]
  constructor
  · rintro ⟨i, -, verdict⟩
    rcases values i with same | same
    · exact .inl (same.symm.trans verdict)
    · exact .inr (same.symm.trans verdict)
  · rintro (old | new)
    · exact ⟨0, List.mem_range.mpr (by omega), by rw [trace_zero, old]⟩
    · exact ⟨2 * j + 1, List.mem_range.mpr late, by rw [final, new]⟩

/-- Each stage goes from its old verdict to its new one at most once, and in time. -/
theorem trace_settles (event : Event) (j : ℕ) :
    (∀ k, trace signature memory event j k = memory.released signature.bytes j ∨
      trace signature memory event j k = memory.rippled signature.bytes event.data_in j) ∧
    ∀ k ≥ 2 * j + 1, trace signature memory event j k =
      memory.rippled signature.bytes event.data_in j := by
  induction j with
  | zero =>
      constructor
      · rintro (_ | k)
        · exact .inl (trace_zero event 0)
        · exact .inr (trace_first_succ event k)
      · rintro (_ | k) late
        · omega
        · exact trace_first_succ event k
  | succ j inductionHypothesis =>
      obtain ⟨values, final⟩ := inductionHypothesis
      constructor
      · rintro (_ | k)
        · exact .inl (trace_zero event (j + 1))
        · rw [trace_later_succ, Memory.rippled]
          by_cases opened : (memory.enabled (j + 1) || (carries event.data_in &&
              (List.range k).any (trace signature memory event j))) = true
          · right
            have ever : (memory.enabled (j + 1) || (carries event.data_in &&
                (memory.released signature.bytes j ||
                  memory.rippled signature.bytes event.data_in j))) = true := by
              simp only [Bool.or_eq_true, Bool.and_eq_true, List.any_eq_true] at opened ⊢
              rcases opened with enabled | ⟨data, i, -, verdict⟩
              · exact .inl enabled
              · exact .inr ⟨data, (values i).imp (fun same => same.symm.trans verdict)
                  fun same => same.symm.trans verdict⟩
            rw [if_pos opened, if_pos ever]
          · left
            rw [if_neg opened]
      · rintro (_ | k) late
        · omega
        · rw [trace_later_succ, Memory.rippled,
            any_trace_of_final values (final _ le_rfl) (by omega)]

theorem any_trace (event : Event) {j k : ℕ} (late : 2 * j + 1 < k) :
    (List.range k).any (trace signature memory event j) =
      (memory.released signature.bytes j || memory.rippled signature.bytes event.data_in j) :=
  any_trace_of_final (trace_settles event j).1 ((trace_settles event j).2 _ le_rfl) late

/-- In the first delta cycle a latch at rest acts on a release of `reset` only. -/
theorem latch_released (holds : Holds memory state) (transparent : Transparent state)
    (event : Event) (low : event.reset = false) (j : Fin signature.bytes.length) :
    wave (latchCircuit signature) ⟨state, Netlist.poke state event.stimulus⟩ 2 (.cmp j) =
      .bit (memory.released signature.bytes j) := by
  have kept : Netlist.poke state event.stimulus (.cmp j) = .bit (memory.cmp j) := by
    simp [Event.stimulus, holds.cmp]
  rw [latch_wave (transparent_start transparent event), wave_one]
  dsimp only
  rw [holds.compares_now event low, kept, Memory.released]
  cases before : memory.reset with
  | true => cases memory.enabled j <;> rfl
  | false =>
      have rest := transparent j
      rw [compares, holds.reset, before, holds.enabling_eq, holds.input, holds.data_in,
        holds.cmp] at rest
      cases enabled : memory.enabled j with
      | true =>
          rw [enabled] at rest
          simpa [byte_eq_expects] using rest.symm
      | false => simp

/-- In every later one it renews its verdict while its enable signal is high. -/
theorem latch_renews (holds : Holds memory state) (transparent : Transparent state)
    (event : Event) (low : event.reset = false) (j : Fin signature.bytes.length)
    (gate : ℕ → Bool)
    (opens : ∀ k, wave (latchCircuit signature) ⟨state, Netlist.poke state event.stimulus⟩ (k + 2)
      (enabling j) = .bit (gate k)) (k : ℕ) :
    wave (latchCircuit signature) ⟨state, Netlist.poke state event.stimulus⟩ (k + 2) (.cmp j) =
      .bit (if (List.range k).any gate then expects signature.bytes j event.data_in
        else memory.released signature.bytes j) := by
  have gates := latch_gates signature
  have start := holds.toSettled.start event
  have renewed : ∀ k, wave (latchCircuit signature) ⟨state, Netlist.poke state event.stimulus⟩
      (k + 1 + 2) (.cmp j) =
      if gate k then .bit (expects signature.bytes j event.data_in)
      else wave (latchCircuit signature) ⟨state, Netlist.poke state event.stimulus⟩ (k + 2)
        (.cmp j) := by
    intro k
    have input : wave (latchCircuit signature) ⟨state, Netlist.poke state event.stimulus⟩ (k + 2)
        .input = .byte event.data_in := by
      rw [gates.wave_input start]
      simp [Event.stimulus]
    have reset : wave (latchCircuit signature) ⟨state, Netlist.poke state event.stimulus⟩ (k + 2)
        .reset = .bit false := by
      rw [wave_undriven gates.reset]
      simp [Event.stimulus, low]
    rw [show k + 1 + 2 = k + 2 + 1 by omega, latch_wave (transparent_start transparent event),
      compares, opens, input, reset, ← byte_eq_expects]
    cases gate k <;> simp
  rw [latch_sequence (fun k => wave (latchCircuit signature)
    ⟨state, Netlist.poke state event.stimulus⟩ (k + 2) (.cmp j)) renewed k,
    latch_released holds transparent event low]
  cases (List.range k).any gate <;> rfl

theorem latch_trace (holds : Holds memory state) (transparent : Transparent state)
    (event : Event) (low : event.reset = false) (j : ℕ) (bound : j < signature.bytes.length)
    (k : ℕ) :
    wave (latchCircuit signature) ⟨state, Netlist.poke state event.stimulus⟩ (k + 2)
        (.cmp ⟨j, bound⟩) =
      .bit (trace signature memory event j k) := by
  have gates := latch_gates signature
  have start := holds.toSettled.start event
  have enable : ∀ k, wave (latchCircuit signature)
      ⟨state, Netlist.poke state event.stimulus⟩ (k + 2) .enable =
      .bit (carries event.data_in) := by
    intro k
    rw [gates.wave_enable start]
    simp [Event.stimulus]
  induction j generalizing k with
  | zero =>
      rw [latch_renews holds transparent event low ⟨0, bound⟩
        (fun _ => carries event.data_in) enable]
      rfl
  | succ j inductionHypothesis =>
      rw [latch_renews holds transparent event low ⟨j + 1, bound⟩ (fun
          | 0 => memory.enabled (j + 1)
          | i + 1 => carries event.data_in && trace signature memory event j i)]
      · rfl
      · rintro (_ | k)
        · exact gates.wave_enabling_two holds event ⟨j + 1, bound⟩
        · have earlier : enabling ⟨j + 1, bound⟩ =
              Wire.en_and_cmp (⟨j, by omega⟩ : Fin signature.bytes.length) := rfl
          rw [earlier, show k + 1 + 2 = k + 2 + 1 by omega, gates.wave_en_and_cmp start, enable,
            inductionHypothesis (by omega), Value.bit_and]

/-- The step lemma of a chain of latches. -/
theorem latch_step (holds : Holds memory state) (transparent : Transparent state)
    (event : Event) :
    Lands (latchCircuit signature) (2 * signature.bytes.length + 3)
      ⟨state, Netlist.poke state event.stimulus⟩ fun next =>
        Holds (memory.stepLatch signature.bytes event) next ∧ Transparent next := by
  have gates := latch_gates signature
  have start := holds.toSettled.start event
  have latchStart := transparent_start transparent event
  have stable := latch_stable start latchStart
  refine ⟨stable, gates.holds_next holds event stable _ ?_ ?_, ?_⟩
  · intro low j
    rw [latch_trace holds transparent event low j j.isLt, (trace_settles event j).2 _ (by omega)]
  · intro low
    have positive := signature.length_pos
    rw [gates.output_wave holds event low (fun
      | 0 => memory.cmp (signature.bytes.length - 1)
      | k + 1 => trace signature memory event (signature.bytes.length - 1) k) ?_
      (2 * signature.bytes.length + 1)]
    · rw [List.range_succ_eq_map, List.any_cons, List.any_map]
      simp only [Function.comp_def]
      rw [any_trace event (by omega), Bool.or_assoc]
    · rintro (_ | k)
      · rw [Nat.zero_add, wave_one]
        simp [Event.stimulus, holds.cmp, Signature.last]
      · exact latch_trace holds transparent event low _ signature.last.isLt k
  · intro j
    rw [← latch_wave latchStart j, stable _ (Nat.le_succ _)]

/-- A chain of latches starts from any power-up values and steps with every event. -/
def synthesizedChain (signature : Signature) (data_in : Byte) :
    Discipline (latchCircuit signature) (Event.mk true data_in).stimulus Event.stimulus where
  bound := 2 * signature.bytes.length + 3
  Rests state := Settled state ∧ Transparent state
  Tracks past state :=
    Holds (past.foldl (Memory.stepLatch signature.bytes) (.cleared data_in)) state ∧
      Transparent state
  initial state := by
    have gates := latch_gates signature
    have start := gates.initial state
    have latchStart : ∀ j, (initialPhase (latchCircuit signature) state).now (.cmp j) =
        (compares j state).getD (state (.cmp j)) := by
      intro j
      obtain ⟨sensitivity, driven⟩ := gates.cmp j
      simp [initialPhase, driven]
    have stable := latch_stable start latchStart
    refine ⟨stable, gates.settled start stable, ?_⟩
    intro j
    rw [← latch_wave latchStart j, stable _ (Nat.le_succ _)]
  start := by
    rintro state ⟨settled, transparent⟩
    have gates := latch_gates signature
    have latchStart := transparent_start transparent ⟨true, data_in⟩
    have stable := latch_stable (settled.start ⟨true, data_in⟩) latchStart
    refine ⟨stable, gates.holds_cleared settled data_in stable, ?_⟩
    intro j
    rw [← latch_wave latchStart j, stable _ (Nat.le_succ _)]
  step := by
    rintro past state event ⟨holds, transparent⟩
    rw [List.foldl_append]
    exact latch_step holds transparent event

end Steps

end SeqDetect.Triggered
