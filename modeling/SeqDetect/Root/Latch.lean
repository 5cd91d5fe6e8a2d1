import SeqDetect.Clocked.Netlist
import SeqDetect.Root.Source

/-!
# The root chains

The root design has the stages of the clocked one, but its output latches `isMatching` at
once, also between two clock edges.
-/

namespace SeqDetect.Root

open Delta Vhdl Script Pattern
open Clocked (Wire State Stages Settled Start Follows Event Observed observe firstReset feed
  loopWires observe_concat register stageChain stageIdent Numbered Connects nodup_driven driven_iff)

/-- What follows the stages of a chain. -/
inductive Ending where
  | output
  deriving DecidableEq

/-- How a comparator is connected. -/
def comparator {signature : Signature} (j : Fin signature.bytes.length) :
    Statement (Wire Ending signature.bytes.length) :=
  .instantiate "byte_compare" [("data_in", .signal .input),
    ("sig_in", .hex (hexPair (signature.byte j))), ("is_valid", .signal (.cmp j))]

/-- The latch. -/
def following {n : ℕ} : Ending → Statement (Wire Ending n)
  | .output => .instantiate "pull_up_module" [("reset", .signal .reset),
      ("isMatching", .signal .isMatching), ("out_isMatching", .signal (.ending .output))]

/-- The statement that drives each signal of a chain. -/
def chain (signature : Signature) : Wire Ending signature.bytes.length →
    Option (Statement (Wire Ending signature.bytes.length)) :=
  stageChain comparator following

def followingIdent (i : ℕ) : Ending → Ident
  | .output => .output i

/-- The identifier of a signal in the chain with index `i`. -/
def ident (i : ℕ) (signature : Signature) : Wire Ending signature.bytes.length → Ident :=
  stageIdent followingIdent i signature

theorem numbered : Numbered followingIdent where
  injective _ _ _ _ := rfl
  outside _ _ := .inr rfl

/-- The statements of `seq_detect.vhd`, chain by chain. -/
abbrev layout : Layout Signature where
  Wire signature := Wire Ending signature.bytes.length
  statementOf := chain
  name i signature wire := (ident i signature wire).name
  shared _ := [.input]
  loops := [fun signature => loopWires Ending signature.bytes.length, fun _ => [.ending .output]]
  sharedNames := ["input"]
  head := [.assign "input" (.copy (.signal "data_in"))]
  name_injective i signature :=
    Ident.name_injective.comp (numbered.ident_injective i signature)
  name_shared _ _ := rfl
  head_eq _ _ := rfl
  nodup _ := nodup_driven (by decide : [Ending.output].Nodup)
  driven _ := driven_iff (fun _ => List.mem_singleton.mpr rfl) comparator following
  apart := numbered.apart [.output]

theorem connects (signature : Signature) :
    Connects (@comparator signature) following library where
  ff := rfl
  compares _ := rfl
  follows _ := ⟨_, rfl⟩

/-- The circuit of one chain. -/
def chainCircuit (signature : Signature) : Circuit (Wire Ending signature.bytes.length) Value :=
  circuitOf library (chain signature)

/-- The signatures `jay`, `karri`, `steven` and `zhirong`. -/
def detected : List Signature :=
  [⟨[0x6a, 0x61, 0x79], by decide, by decide⟩,
    ⟨[0x6b, 0x61, 0x72, 0x72, 0x69], by decide, by decide⟩,
    ⟨[0x73, 0x74, 0x65, 0x76, 0x65, 0x6e], by decide, by decide⟩,
    ⟨[0x7a, 0x68, 0x69, 0x72, 0x6f, 0x6e, 0x67], by decide, by decide⟩]

theorem seq_detect_describes : statements seq_detect = layout.describes detected := by
  decide +kernel

theorem chain_stages (signature : Signature) : Stages (chainCircuit signature) :=
  (connects signature).stages

/-- What the latch assigns, as a function of the signals it reads. -/
def latched {signature : Signature} (state : State Ending signature) : Option Value :=
  if state .reset = .bit true then some (.bit false)
  else if state .isMatching = .bit true then some (.bit true)
  else none

theorem chainCircuit_output (signature : Signature) :
    chainCircuit signature (.ending .output) =
      some ⟨[.reset, .isMatching], fun shown => latched shown.now⟩ := rfl

section Waves

variable {signature : Signature} {shown : Snapshot (Wire Ending signature.bytes.length) Value}

theorem wave_output
    (start : shown.now (.ending .output) =
      (latched shown.last).getD (shown.last (.ending .output))) (k : ℕ) :
    wave (chainCircuit signature) shown (k + 1) (.ending .output) =
      (latched (wave (chainCircuit signature) shown k)).getD
        (wave (chainCircuit signature) shown k (.ending .output)) := by
  refine wave_level (chainCircuit_output signature) ⟨fun _ => rfl, ?_⟩ start k
  intro before after same
  simp [latched, same .reset (by simp), same .isMatching (by simp)]

/-- Once `reset` and `isMatching` are stable, the latch is so one delta cycle later. -/
theorem wave_output_late (stageStart : Start shown)
    (start : shown.now (.ending .output) =
      (latched shown.last).getD (shown.last (.ending .output))) (k : ℕ) :
    wave (chainCircuit signature) shown (k + 6) (.ending .output) =
      (latched (wave (chainCircuit signature) shown 5)).getD
        (wave (chainCircuit signature) shown 5 (.ending .output)) := by
  have same : ∀ k, latched (wave (chainCircuit signature) shown (k + 5)) =
      latched (wave (chainCircuit signature) shown 5) := by
    intro k
    have reset : wave (chainCircuit signature) shown (k + 5) .reset = _ :=
      (chain_stages signature).stable stageStart (Nat.le_add_left 5 k) (by simp)
    have isMatching : wave (chainCircuit signature) shown (k + 5) .isMatching = _ :=
      (chain_stages signature).stable stageStart (Nat.le_add_left 5 k) (by simp)
    simp only [latched, reset, isMatching]
  induction k with
  | zero => exact wave_output start 5
  | succ k inductionHypothesis =>
      rw [wave_output start, inductionHypothesis, same (k + 1)]
      cases latched (wave (chainCircuit signature) shown 5) <;> rfl

theorem chain_stable (stageStart : Start shown)
    (start : shown.now (.ending .output) =
      (latched shown.last).getD (shown.last (.ending .output))) :
    Stable (chainCircuit signature) shown 6 := by
  intro k late wire
  by_cases stage : ∀ signal, wire ≠ .ending signal
  · rw [(chain_stages signature).stable stageStart (by omega) stage,
      (chain_stages signature).stable stageStart (by omega : 5 ≤ 6) stage]
  · push Not at stage
    obtain ⟨signal, rfl⟩ := stage
    cases signal
    obtain ⟨k, rfl⟩ := Nat.exists_eq_add_of_le' late
    rw [wave_output_late stageStart start, ← wave_output_late stageStart start 0]

/-- A latch that agrees with the signals it reads. -/
def Consistent (state : State Ending signature) : Prop :=
  state (.ending .output) = (latched state).getD (state (.ending .output))

theorem consistent_wave (stageStart : Start shown)
    (start : shown.now (.ending .output) =
      (latched shown.last).getD (shown.last (.ending .output))) :
    Consistent (wave (chainCircuit signature) shown 6) := by
  have next := wave_output start 6
  rwa [chain_stable stageStart start 7 (by omega)] at next

end Waves

section Steps

variable {signature : Signature} {seen : Observed} {state : State Ending signature}

/-- The match signal changes at most once while an update settles: a clock edge or a reset
changes the flip-flops, a new byte the comparators, but no event does both. -/
theorem isMatching_waves (follows : Follows seen state) (event : Event) :
    let shown : Snapshot (Wire Ending signature.bytes.length) Value :=
      ⟨state, Netlist.poke state event.stimulus⟩
    let matching := fun k => wave (chainCircuit signature) shown k .isMatching
    matching 1 = state .isMatching ∧ matching 2 = state .isMatching ∧
      matching 3 = state .isMatching ∧
      (matching 4 = state .isMatching ∨ matching 4 = matching 5) := by
  intro shown matching
  have stages := chain_stages signature
  have start := follows.start event
  have second : matching 2 = state .isMatching := by
    simp only [matching]
    rw [stages.wave_isMatching start, wave_one]
    cases event <;> simp [Event.stimulus, follows.isMatching]
  have third : matching 3 = state .isMatching := by
    simp only [matching]
    rw [stages.wave_isMatching start, stages.wave_out_and start, wave_one]
    cases event <;> simp [Event.stimulus, follows.isMatching, follows.out_and]
  have verdict : wave (chainCircuit signature) shown 2 (.cmp signature.last) =
      state (.cmp signature.last) := by
    rw [wave_function (fun state => .bit (state .input = .byte (signature.byte signature.last)))
      (stages.cmp signature.last) (by simp +contextual) (start.cmp signature.last), wave_one,
      follows.cmp, ← follows.input]
    cases event <;> simp [shown, Event.stimulus]
  refine ⟨?_, second, third, ?_⟩
  · cases event <;> simp [matching, shown, Event.stimulus]
  simp only [matching]
  rw [stages.wave_isMatching start, stages.wave_isMatching start, stages.wave_gate start,
    stages.wave_out_and start, stages.wave_ff start, verdict]
  cases event with
  | clk level =>
      right
      rw [follows.cmp]
      simp [Event.stimulus]
  | reset level =>
      right
      rw [follows.cmp]
      simp [Event.stimulus]
  | data_in byte =>
      left
      have kept : register shown (feed shown.now signature.last) (shown.now (.ff signature.last)) =
          state (.ff signature.last) := by
        by_cases high : state .reset = .bit true
        · simp [register, shown, Event.stimulus, high, follows.cleared high]
        · simp [register, shown, Event.stimulus, high]
      rw [kept, follows.isMatching, follows.out_and]

/-- An update clears, sets or keeps the output, according to the settled `reset` and match
signal. -/
theorem output_step (follows : Follows seen state) (consistent : Consistent state)
    (event : Event) :
    wave (chainCircuit signature) ⟨state, Netlist.poke state event.stimulus⟩ 6
        (.ending .output) =
      (latched (wave (chainCircuit signature) ⟨state, Netlist.poke state event.stimulus⟩ 5)).getD
        (state (.ending .output)) := by
  obtain ⟨first, second, third, fourth⟩ := isMatching_waves follows event
  have kept : Netlist.poke state event.stimulus (.ending .output) = state (.ending .output) := by
    cases event <;> simp [Event.stimulus]
  have set_before : state .isMatching = .bit true → state (.ending .output) = .bit true := by
    intro matching
    have low : state .reset ≠ .bit true := by
      intro high
      have empty := follows.samples (Value.bit_inj.mp (follows.reset.symm.trans high))
      rw [follows.isMatching_eq, Value.bit_inj, decide_eq_true_eq] at matching
      simp [Observed.Armed, empty, signature.nonempty] at matching
    rw [consistent, latched, if_neg low, if_pos matching]
    rfl
  rw [wave_output (kept.trans consistent), wave_output (kept.trans consistent),
    wave_output (kept.trans consistent), wave_output (kept.trans consistent),
    wave_output (kept.trans consistent)]
  rw [show wave (chainCircuit signature) ⟨state, Netlist.poke state event.stimulus⟩ (0 + 1)
    (.ending .output) = state (.ending .output) from kept]
  have resetKept : ∀ k, wave (chainCircuit signature)
      ⟨state, Netlist.poke state event.stimulus⟩ (k + 1) .reset =
      Netlist.poke state event.stimulus .reset :=
    wave_undriven rfl
  dsimp only at first second third fourth
  by_cases high : Netlist.poke state event.stimulus .reset = .bit true
  · simp [latched, resetKept, high]
  · simp only [latched, resetKept, high, if_false, first, second, third]
    by_cases matching : state .isMatching = .bit true
    · rw [set_before matching]
      split <;> split <;> simp
    · simp only [matching, if_false, Option.getD_none]
      rcases fourth with same | same
      · simp [same, matching]
      · rw [same]
        split <;> rfl

/-- At some moment since the last reset, the byte then on `data_in` would have completed the
signature. -/
def Latches (clk : Bool) (data_in : Byte) (signature : Signature) (past : List Event) : Prop :=
  ∃ k ≤ past.length, (∀ event ∈ past.drop k, event ≠ .reset true) ∧
    (observe clk data_in (past.take k)).Armed signature

instance (clk : Bool) (data_in : Byte) (signature : Signature) :
    DecidablePred (Latches clk data_in signature) :=
  fun past => inferInstanceAs (Decidable (∃ k ≤ past.length, _))

theorem latches_concat (clk : Bool) (data_in : Byte) (past : List Event) (event : Event) :
    Latches clk data_in signature (past ++ [event]) ↔
      event ≠ .reset true ∧ Latches clk data_in signature past ∨
        (observe clk data_in (past ++ [event])).Armed signature := by
  constructor
  · rintro ⟨k, bound, quiet, armed⟩
    rw [List.length_append, List.length_singleton] at bound
    by_cases whole : k = past.length + 1
    · right
      rwa [List.take_of_length_le (by simp [whole])] at armed
    · left
      have inside : k ≤ past.length := by omega
      rw [List.drop_append_of_le_length inside] at quiet
      rw [List.take_append_of_le_length inside] at armed
      refine ⟨quiet event (by simp), k, inside, ?_, armed⟩
      exact fun other membership => quiet other (by simp [membership])
  · rintro (⟨noReset, k, bound, quiet, armed⟩ | armed)
    · refine ⟨k, by simp; omega, ?_, ?_⟩
      · rw [List.drop_append_of_le_length bound]
        intro other membership
        rcases List.mem_append.mp membership with earlier | last
        · exact quiet other earlier
        · rwa [List.mem_singleton.mp last]
      · rwa [List.take_append_of_le_length bound]
    · exact ⟨(past ++ [event]).length, le_rfl, by simp, by rwa [List.take_length]⟩

theorem not_armed_of_reset {seen : Observed} (empty : seen.samples = []) :
    ¬ seen.Armed signature := by
  simp [Observed.Armed, empty, signature.nonempty]

theorem not_latches_of_reset {clk : Bool} {data_in : Byte} {past : List Event}
    (high : (observe clk data_in past).reset = true) :
    ¬ Latches clk data_in signature past := by
  induction past using List.reverseRecOn with
  | nil =>
      rintro ⟨k, -, -, armed⟩
      rw [List.take_nil] at armed
      exact not_armed_of_reset rfl armed
  | append_singleton past event inductionHypothesis =>
      rw [latches_concat]
      rintro (⟨noReset, before⟩ | armed)
      · refine inductionHypothesis ?_ before
        rw [observe_concat] at high
        cases event with
        | clk level => exact high
        | reset level =>
            have raised : level = true := high
            exact absurd (by rw [raised]) noReset
        | data_in byte => exact high
      · exact not_armed_of_reset (Clocked.observe_restarts high) armed

/-- The schedule determines the stages and the output. -/
structure Tracks (level : Bool) (byte : Byte) (past : List Event)
    (state : State Ending signature) : Prop extends Follows (observe level byte past) state where
  consistent : Consistent state
  output : state (.ending .output) = .bit (Latches level byte signature past)

/-- The step lemma of the latch. -/
theorem Tracks.output_after {level : Bool} {byte : Byte} {past : List Event}
    (tracks : Tracks level byte past state) (event : Event) :
    wave (chainCircuit signature) ⟨state, Netlist.poke state event.stimulus⟩ 6
        (.ending .output) = .bit (Latches level byte signature (past ++ [event])) := by
  have follows := (chain_stages signature).follows_step tracks.toFollows event 0
  rw [← observe_concat] at follows
  rw [output_step tracks.toFollows tracks.consistent, latched, follows.reset,
    follows.isMatching_eq, tracks.output]
  by_cases high : (observe level byte (past ++ [event])).reset = true
  · simp [high, not_latches_of_reset high]
  · have noReset : event ≠ .reset true := by
      rintro rfl
      simp [observe_concat, Observed.after] at high
    simp only [latches_concat, noReset, ne_eq, not_false_eq_true, true_and]
    by_cases armed : (observe level byte (past ++ [event])).Armed signature <;>
      simp [high, armed]

/-- A chain starts from any power-up values and latches through every schedule. -/
def latch (signature : Signature) (level : Bool) (byte : Byte) :
    Discipline (chainCircuit signature) (firstReset level byte) Event.stimulus where
  bound := 6
  Rests state := Settled state ∧ Consistent state
  Tracks := Tracks level byte
  initial state := by
    have start := (chain_stages signature).initial state
    exact ⟨chain_stable start rfl, (chain_stages signature).settled start 1,
      consistent_wave start rfl⟩
  start := by
    rintro state ⟨settled, consistent⟩
    have start := settled.firstReset_start level byte
    have kept : Netlist.poke state (firstReset level byte) (.ending .output) =
        (latched state).getD (state (.ending .output)) := by
      rw [← consistent]
      simp [firstReset]
    have follows := (chain_stages signature).follows_firstReset settled level byte 0
    refine ⟨chain_stable start kept,
      { (chain_stages signature).follows_firstReset settled level byte 1 with
        consistent := consistent_wave start kept
        output := ?_ }⟩
    have never : ¬ Latches level byte signature [] := not_latches_of_reset rfl
    have high : wave (chainCircuit signature) ⟨state, Netlist.poke state (firstReset level byte)⟩
        5 .reset = .bit true := follows.reset
    rw [wave_output_late start kept 0, latched, if_pos high]
    simp [never]
  step := by
    intro past state event tracks
    have start := tracks.toFollows.start event
    have kept : Netlist.poke state event.stimulus (.ending .output) =
        (latched state).getD (state (.ending .output)) := by
      rw [← tracks.consistent]
      cases event <;> simp [Event.stimulus]
    have follows := (chain_stages signature).follows_step tracks.toFollows event 1
    rw [← observe_concat] at follows
    exact ⟨chain_stable start kept, { follows with
      consistent := consistent_wave start kept
      output := tracks.output_after event }⟩

end Steps

end SeqDetect.Root
