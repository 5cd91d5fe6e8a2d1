import SeqDetect.Clocked.Detector
import SeqDetect.Root.Latch

/-!
# The two committed clocked designs

The root design and the clocked design detect the same four signatures.  After two more
edges on idle input their outputs differ exactly where the latch of the root design kept a
match that no edge sampled.
-/

namespace SeqDetect.Root

open Delta Vhdl Script Pattern
open Clocked (Event Observed observe initialReset)

theorem exists_run :
    ∃ net, detector = some net ∧ ∀ powerUp level byte events,
      ∃ final, net.Reaches powerUp
          (initialReset level byte :: List.map Event.inputs events) final ∧
        ∀ i : Fin detected.length,
          final (outputName i) = .bit (Latches level byte detected[i] events) := by
  obtain ⟨net, found, realizes⟩ :=
    layout.exists_netlist (fun signature => (connects signature).elaborates) (by simp [detected])
      seq_detect_describes
  refine ⟨net, found, ?_⟩
  intro powerUp level byte events
  obtain ⟨final, reaches, tracks⟩ := realizes.exists_run (initialReset level byte) Event.inputs
    (fun _ => rfl) (fun _ event => by cases event <;> rfl)
    (fun i => latch detected[i] level byte) powerUp events
  exact ⟨final, reaches, fun i => (tracks i).output⟩

theorem signatures_example_txt :
    signatures Clocked.Sample.example_txt = detected.map Signature.bytes := by
  decide +kernel

/-- The run lemma of the clocked design, for the committed file. -/
theorem exists_sample_run :
    ∃ net, Clocked.Sample.detector = some net ∧ ∀ powerUp level byte events,
      ∃ final, net.Reaches powerUp
          (initialReset level byte :: List.map Event.inputs events) final ∧
        ∀ i : Fin detected.length, final (outputName i) =
          .bit (detected[i].bytes <:+: (observe level byte events).samples.tail.dropLast) := by
  obtain ⟨net, found, runs⟩ := @Clocked.exists_run Clocked.Sample.example_txt (by decide)
    (by decide +kernel)
  refine ⟨net, Clocked.Sample.detector_eq_emitted.trans found, ?_⟩
  intro powerUp level byte events
  obtain ⟨final, reaches, outputs⟩ := runs powerUp level byte events
  refine ⟨final, reaches, ?_⟩
  intro i
  have bound : i < (signatures Clocked.Sample.example_txt).length := by
    rw [signatures_example_txt, List.length_map]
    exact i.isLt
  have same : (signatures Clocked.Sample.example_txt)[i.val] = detected[i.val].bytes := by
    rw [List.getElem_of_eq signatures_example_txt bound, List.getElem_map]
    rfl
  rw [outputs i bound, same]
  rfl

/-- Two further rising edges with `data_in` zero and `reset` low. -/
def idleEdges : List Event :=
  [.reset false, .data_in 0, .clk false, .clk true, .clk false, .clk true]

variable {signature : Signature} {level : Bool} {byte : Byte} {schedule : List Event}

theorem not_armed_of_zero {seen : Observed} (zero : seen.data_in = 0) :
    ¬ seen.Armed signature := by
  rw [Observed.Armed, suffix_tail_concat signature.last.isLt, zero]
  rintro ⟨-, last⟩
  have large := signature.byte_twoDigits signature.last
  have same : signature.byte signature.last = 0 := last
  rw [same] at large
  simp at large

/-- An event that arms nothing new changes nothing. -/
theorem latches_concat_of_unarmed {event : Event} (noReset : event ≠ .reset true)
    (unarmed : (observe level byte (schedule ++ [event])).Armed signature →
      Latches level byte signature schedule) :
    Latches level byte signature (schedule ++ [event]) ↔
      Latches level byte signature schedule := by
  rw [latches_concat]
  constructor
  · rintro (⟨-, before⟩ | armed)
    · exact before
    · exact unarmed armed
  · exact fun before => .inl ⟨noReset, before⟩

theorem latches_of_armed (armed : (observe level byte schedule).Armed signature) :
    Latches level byte signature schedule :=
  ⟨schedule.length, le_rfl, by simp, by rwa [List.take_length]⟩

/-- A match that an edge has sampled has been latched before. -/
theorem latches_of_sampled
    (sampled : signature.bytes <:+: (observe level byte schedule).samples.tail) :
    Latches level byte signature schedule := by
  induction schedule using List.reverseRecOn with
  | nil => simp [observe, signature.nonempty] at sampled
  | append_singleton past event inductionHypothesis =>
      have earlier : event ≠ .reset true →
          signature.bytes <:+: (observe level byte past).samples.tail →
          Latches level byte signature (past ++ [event]) := fun noReset before =>
        (latches_concat level byte past event).mpr (.inl ⟨noReset, inductionHypothesis before⟩)
      rw [Clocked.observe_concat] at sampled
      cases event with
      | clk edge =>
          simp only [Observed.after] at sampled
          split at sampled
          · rcases (infix_tail_concat signature.nonempty).mp sampled with before | armed
            · exact earlier (by simp) before
            · exact (latches_concat level byte past _).mpr
                (.inl ⟨by simp, latches_of_armed armed⟩)
          · exact earlier (by simp) sampled
      | reset high =>
          cases high with
          | true => simp [Observed.after, signature.nonempty] at sampled
          | false => exact earlier (by simp) sampled
      | data_in next => exact earlier (by simp) sampled

theorem latches_reset_low :
    Latches level byte signature (schedule ++ [.reset false]) ↔
      Latches level byte signature schedule := by
  apply latches_concat_of_unarmed (by simp)
  intro armed
  rw [Clocked.observe_concat] at armed
  exact latches_of_armed armed

theorem latches_clk {edge : Bool} (zero : (observe level byte schedule).data_in = 0) :
    Latches level byte signature (schedule ++ [.clk edge]) ↔
      Latches level byte signature schedule := by
  apply latches_concat_of_unarmed (by simp)
  intro armed
  rw [Clocked.observe_concat] at armed
  exact absurd armed (not_armed_of_zero zero)

theorem latches_zero :
    Latches level byte signature (schedule ++ [.data_in 0]) ↔
      Latches level byte signature schedule := by
  apply latches_concat_of_unarmed (by simp)
  intro armed
  rw [Clocked.observe_concat] at armed
  exact absurd armed (not_armed_of_zero rfl)

theorem idleEdges_eq : schedule ++ idleEdges = schedule ++ [.reset false] ++ [.data_in 0] ++
    [.clk false] ++ [.clk true] ++ [.clk false] ++ [.clk true] := by
  simp [idleEdges]

/-- Idle edges latch nothing new. -/
theorem latches_idleEdges :
    Latches level byte signature (schedule ++ idleEdges) ↔
      Latches level byte signature schedule := by
  rw [idleEdges_eq, latches_clk, latches_clk, latches_clk, latches_clk, latches_zero,
    latches_reset_low] <;> simp [observe, Observed.after]

/-- Idle edges complete no signature. -/
theorem infix_idleEdges :
    signature.bytes <:+: (observe level byte (schedule ++ idleEdges)).samples.tail.dropLast ↔
      signature.bytes <:+: (observe level byte schedule).samples.tail := by
  have samples : (observe level byte (schedule ++ idleEdges)).samples =
      (observe level byte schedule).samples ++ [0] ++ [0] := by
    simp [idleEdges, observe, Observed.after]
  have unarmed : ¬ Observed.Armed { observe level byte schedule with data_in := 0 } signature :=
    not_armed_of_zero rfl
  rw [samples, infix_tail_dropLast_concat, infix_tail_concat signature.nonempty, or_iff_left]
  exact unarmed

theorem outputs_agree_iff (powerUp clockedPowerUp : String → Value) (level : Bool) (byte : Byte)
    (schedule : List Event) :
    ∃ root clocked, detector = some root ∧ Clocked.Sample.detector = some clocked ∧
      ∃ final clockedFinal,
        root.Reaches powerUp
          (initialReset level byte :: List.map Event.inputs (schedule ++ idleEdges)) final ∧
        clocked.Reaches clockedPowerUp
          (initialReset level byte :: List.map Event.inputs (schedule ++ idleEdges))
          clockedFinal ∧
        ∀ i : Fin detected.length,
          final (outputName i) = clockedFinal (outputName i) ↔
            (Latches level byte detected[i] schedule →
              detected[i].bytes <:+: (observe level byte schedule).samples.tail) := by
  obtain ⟨root, found, runs⟩ := exists_run
  obtain ⟨clocked, clockedFound, clockedRuns⟩ := exists_sample_run
  obtain ⟨final, reaches, outputs⟩ := runs powerUp level byte (schedule ++ idleEdges)
  obtain ⟨clockedFinal, clockedReaches, clockedOutputs⟩ :=
    clockedRuns clockedPowerUp level byte (schedule ++ idleEdges)
  refine ⟨root, clocked, found, clockedFound, final, clockedFinal, reaches, clockedReaches, ?_⟩
  intro i
  rw [outputs i, clockedOutputs i, Value.bit_inj, decide_eq_decide, latches_idleEdges,
    infix_idleEdges]
  exact ⟨fun same => same.mp, fun latched => ⟨latched, latches_of_sampled⟩⟩

/-- `j` and `a` are sampled, `y` passes on `data_in` without an edge. -/
theorem transient_separates :
    ∃ root clocked, detector = some root ∧ Clocked.Sample.detector = some clocked ∧
      ∃ final clockedFinal,
        root.Reaches (fun _ => .bit false) (initialReset false 0 :: List.map Event.inputs
          ([.reset false, .clk true, .clk false, .data_in 0x6a, .clk true, .clk false,
            .data_in 0x61, .clk true, .data_in 0x79] ++ idleEdges)) final ∧
        clocked.Reaches (fun _ => .bit false) (initialReset false 0 :: List.map Event.inputs
          ([.reset false, .clk true, .clk false, .data_in 0x6a, .clk true, .clk false,
            .data_in 0x61, .clk true, .data_in 0x79] ++ idleEdges)) clockedFinal ∧
        final (outputName 0) = .logic .one ∧ clockedFinal (outputName 0) = .logic .zero := by
  obtain ⟨root, found, runs⟩ := exists_run
  obtain ⟨clocked, clockedFound, clockedRuns⟩ := exists_sample_run
  obtain ⟨final, reaches, outputs⟩ := runs (fun _ => .bit false) false 0
    ([.reset false, .clk true, .clk false, .data_in 0x6a, .clk true, .clk false,
      .data_in 0x61, .clk true, .data_in 0x79] ++ idleEdges)
  obtain ⟨clockedFinal, clockedReaches, clockedOutputs⟩ := clockedRuns (fun _ => .bit false) false 0
    ([.reset false, .clk true, .clk false, .data_in 0x6a, .clk true, .clk false,
      .data_in 0x61, .clk true, .data_in 0x79] ++ idleEdges)
  have output : final (outputName 0) = _ := outputs ⟨0, by decide⟩
  have clockedOutput : clockedFinal (outputName 0) = _ := clockedOutputs ⟨0, by decide⟩
  refine ⟨root, clocked, found, clockedFound, final, clockedFinal, reaches, clockedReaches, ?_, ?_⟩
  · rw [output]
    decide +kernel
  · rw [clockedOutput]
    decide +kernel

end SeqDetect.Root
