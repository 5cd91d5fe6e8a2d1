import SeqDetect.Clocked.Detector

/-!
# The stages as a matching automaton

The flip-flops of a chain are the states of an automaton that reads the samples since the
release of reset.  The active ones are the borders of the longest of them.
-/

namespace SeqDetect.Clocked

open Delta Script Pattern

/-- The flip-flop of stage `j` of the chain with index `i`. -/
def stageName (i j : ℕ) : String := "s" ++ toString i ++ "_ff_" ++ toString j

/-- What the flip-flops of one chain show.  The rising edges since the last release of reset
are as many as their samples. -/
structure StagesShow (signature : List Byte) (seen : Observed) (stage : ℕ → Value) : Prop where
  levels : ∀ j < signature.length, stage j = .logic .zero ∨ stage j = .logic .one
  cleared : seen.reset = true → ∀ j < signature.length, stage j = .logic .zero
  first : seen.reset = false → (stage 0 = .logic .one ↔ 1 ≤ seen.samples.length)
  later : seen.reset = false → ∀ j, 1 ≤ j → j < signature.length →
    (stage j = .logic .one ↔
      j + 1 ≤ seen.samples.length ∧ seen.samples.rtake j = signature.take j)
  borders : seen.reset = false → 1 ≤ seen.samples.length →
    ∃ m < signature.length, ∀ j < signature.length,
      (stage j = .logic .one ↔ signature.take j <:+ signature.take m)

theorem stagesShow_of_progress {signature : List Byte} {seen : Observed} {stage : ℕ → Value}
    (some_byte : signature ≠ []) (restarts : seen.reset = true → seen.samples = [])
    (shows : ∀ j < signature.length, stage j = .bit (Progress signature j seen.samples)) :
    StagesShow signature seen stage := by
  have active : ∀ j < signature.length,
      (stage j = .logic .one ↔ Progress signature j seen.samples) := by
    intro j bound
    rw [shows j bound, Value.bit_eq_one, decide_eq_true_eq]
  constructor
  case levels =>
    intro j bound
    by_cases progress : Progress signature j seen.samples
    · exact .inr ((active j bound).mpr progress)
    · left
      rw [shows j bound, Value.bit_eq_zero, decide_eq_false progress]
  case cleared =>
    intro high j bound
    have stopped : ¬ Progress signature j seen.samples := by
      rw [restarts high]
      exact not_progress_nil j
    rw [shows j bound, Value.bit_eq_zero, decide_eq_false stopped]
  case first =>
    intro _
    rw [active 0 (List.length_pos_iff.mpr some_byte), progress_iff (Nat.zero_le _)]
    simp
  case later =>
    intro _ j _ bound
    rw [active j bound, progress_iff bound.le]
  case borders =>
    intro _ some_edge
    obtain ⟨m, bound, borders⟩ := exists_borders
      (List.length_pos_iff.mp some_edge) some_byte
    refine ⟨m, bound, ?_⟩
    intro j inside
    rw [active j inside]
    exact borders j inside

/-- The stages of chain `i` show it after every schedule. -/
def StageInvariant (net : Netlist String Value) (i : ℕ) (signature : List Byte) : Prop :=
  ∀ powerUp clk data_in events,
    ∃ final, net.Reaches powerUp
        (initialReset clk data_in :: List.map Event.inputs events) final ∧
      StagesShow signature (observe clk data_in events) fun j => final (stageName i j)

/-- For every stage there is a schedule after which all its borders are active, and no
other stage is. -/
def ActiveTogether (net : Netlist String Value) (i : ℕ) (signature : List Byte) : Prop :=
  ∀ m < signature.length, ∀ powerUp clk data_in, ∃ events final,
    net.Reaches powerUp (initialReset clk data_in :: List.map Event.inputs events) final ∧
      ∀ j < signature.length,
        (final (stageName i j) = .logic .one ↔ signature.take j <:+ signature.take m)

/-- The run lemma, for the flip-flops alone. -/
theorem exists_stage_run {lines : List (List Byte)} (nonempty : lines ≠ [])
    (admissible : Admissible lines) :
    ∃ net, detector lines = some net ∧ ∀ powerUp clk data_in events,
      ∃ final, net.Reaches powerUp
          (initialReset clk data_in :: List.map Event.inputs events) final ∧
        ∀ (i : ℕ) (bound : i < (signatures lines).length), ∀ j < (signatures lines)[i].length,
          final (stageName i j) =
            .bit (Progress (signatures lines)[i] j (observe clk data_in events).samples) := by
  obtain ⟨net, found, runs⟩ := exists_matching_run nonempty admissible
  refine ⟨net, found, ?_⟩
  intro powerUp clk data_in events
  obtain ⟨final, reaches, chains⟩ := runs powerUp clk data_in events
  refine ⟨final, reaches, ?_⟩
  intro i bound
  obtain ⟨signature, same, matched⟩ := chains i bound
  rw [← same]
  intro j inside
  exact matched.ff ⟨j, inside⟩

theorem stages_invariant {lines : List (List Byte)} (admissible : Admissible lines) :
    ∃ net, detector lines = some net ∧
      ∀ (i : ℕ) (bound : i < (signatures lines).length),
        StageInvariant net i (signatures lines)[i] ∧
        ActiveTogether net i (signatures lines)[i] := by
  by_cases nonempty : lines = []
  · subst nonempty
    exact ⟨_, rfl, fun i bound => absurd bound (Nat.not_lt_zero i)⟩
  · obtain ⟨net, found, runs⟩ := exists_stage_run nonempty admissible
    refine ⟨net, found, ?_⟩
    intro i bound
    constructor
    · intro powerUp clk data_in events
      obtain ⟨final, reaches, stages⟩ := runs powerUp clk data_in events
      have some_byte := (admissible.of_mem (List.getElem_mem bound)).1
      exact ⟨final, reaches, stagesShow_of_progress some_byte observe_restarts (stages i bound)⟩
    · intro m inside powerUp clk data_in
      -- One byte that no stage compares, then the first `m` bytes of the signature.
      have observed := observe_clockIn clk data_in (0 :: (signatures lines)[i].take m)
      obtain ⟨final, reaches, stages⟩ := runs powerUp clk data_in
        (.reset false :: clockIn (0 :: (signatures lines)[i].take m))
      refine ⟨_, final, reaches, ?_⟩
      intro j bounded
      rw [stages i bound j bounded, observed.2, Value.bit_eq_one, decide_eq_true_eq]
      simp [Progress]

/-- Overlapping signatures: `aab` and `abab`. -/
theorem stages_invariant_overlapping :
    ∃ net, detector [[0x61, 0x61, 0x62], [0x61, 0x62, 0x61, 0x62]] = some net ∧
      ∀ (i : ℕ) (bound : i <
          (signatures [[0x61, 0x61, 0x62], [0x61, 0x62, 0x61, 0x62]]).length),
        StageInvariant net i
          (signatures [[0x61, 0x61, 0x62], [0x61, 0x62, 0x61, 0x62]])[i] ∧
        ActiveTogether net i
          (signatures [[0x61, 0x61, 0x62], [0x61, 0x62, 0x61, 0x62]])[i] :=
  stages_invariant (by decide)

end SeqDetect.Clocked
