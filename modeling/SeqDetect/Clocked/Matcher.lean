import SeqDetect.Clocked.Netlist

/-!
# The clocked matcher

The hold register of a chain remembers that the signature has occurred, and the output
register repeats it one edge later.  Together with the stages this makes every chain of
the emitted netlist a matcher for its signature.
-/

namespace SeqDetect.Clocked

open Delta Vhdl Script Pattern

section Chain

variable {signature : Signature}

theorem chainCircuit_hold : chainCircuit signature (.ending .hold) =
    some (registerProcess [.isMatching] fun state =>
      if state .isMatching = .bit true then some (.bit true) else none) := rfl

theorem chainCircuit_output : chainCircuit signature (.ending .output) =
    some (registerProcess [] fun state => some (state (.ending .hold))) := rfl

theorem chain_stages (signature : Signature) : Stages (chainCircuit signature) :=
  (connects signature).stages

/-- A chain at rest, its two registers cleared by `reset`. -/
structure Rests (state : State Ending signature) : Prop extends Settled state where
  endings : state .reset = .bit true → ∀ signal, state (.ending signal) = .bit false

/-- The observation determines the stages, the hold register and the output. -/
structure Matches (seen : Observed) (state : State Ending signature) : Prop extends
    Follows seen state where
  hold : state (.ending .hold) = .bit (signature.bytes <:+: seen.samples.tail)
  output : state (.ending .output) = .bit (signature.bytes <:+: seen.samples.tail.dropLast)

/-- What the hold register is loaded with on the next rising edge. -/
theorem Matches.loaded_hold {seen : Observed} {state : State Ending signature}
    (matched : Matches seen state) :
    (if state .isMatching = .bit true then .bit true else state (.ending .hold)) =
      .bit (signature.bytes <:+: (seen.samples ++ [seen.data_in]).tail) := by
  rw [matched.toFollows.isMatching_eq, matched.hold]
  by_cases armed : seen.Armed signature
  · have now : signature.bytes <:+: (seen.samples ++ [seen.data_in]).tail := armed.isInfix
    simp [armed, now]
  · have same : signature.bytes <:+: (seen.samples ++ [seen.data_in]).tail ↔
        signature.bytes <:+: seen.samples.tail := by
      rw [infix_tail_concat signature.nonempty, or_iff_left]
      exact armed
    simp [armed, same]

variable {shown : Snapshot (Wire Ending signature.bytes.length) Value}

theorem wave_hold (cleared : shown.last .reset = .bit true → shown.now .reset = .bit true →
      ∀ signal, shown.now (.ending signal) = .bit false) (k : ℕ) :
    wave (chainCircuit signature) shown (k + 2) (.ending .hold) = register shown
      (if shown.now .isMatching = .bit true then .bit true else shown.now (.ending .hold))
      (shown.now (.ending .hold)) := by
  rw [(chain_stages signature).wave_register chainCircuit_hold
    fun before after => cleared before after .hold]
  by_cases matching : shown.now .isMatching = .bit true <;> simp [matching]

theorem wave_output (cleared : shown.last .reset = .bit true → shown.now .reset = .bit true →
      ∀ signal, shown.now (.ending signal) = .bit false) (k : ℕ) :
    wave (chainCircuit signature) shown (k + 2) (.ending .output) =
      register shown (shown.now (.ending .hold)) (shown.now (.ending .output)) :=
  (chain_stages signature).wave_register chainCircuit_output
    (fun before after => cleared before after .output) k

theorem chain_stable (start : Start shown)
    (cleared : shown.last .reset = .bit true → shown.now .reset = .bit true →
      ∀ signal, shown.now (.ending signal) = .bit false) :
    Stable (chainCircuit signature) shown 5 := by
  intro k late wire
  by_cases stage : ∀ signal, wire ≠ .ending signal
  · exact (chain_stages signature).stable start late stage
  · push Not at stage
    obtain ⟨signal, rfl⟩ := stage
    obtain ⟨k, rfl⟩ := Nat.exists_eq_add_of_le' late
    cases signal with
    | hold => rw [wave_hold cleared, wave_hold cleared]
    | output => rw [wave_output cleared, wave_output cleared]

/-- A chain starts from any power-up values and keeps matching through every schedule. -/
def matcher (signature : Signature) (clk : Bool) (data_in : Byte) :
    Discipline (chainCircuit signature) (firstReset clk data_in) Event.stimulus where
  bound := 5
  Rests := Rests
  Tracks past := Matches (observe clk data_in past)
  initial state := by
    have start := (chain_stages signature).initial state
    have cleared : state .reset = .bit true → ∀ signal,
        (initialPhase (chainCircuit signature) state).now (.ending signal) = .bit false := by
      intro high signal
      cases signal <;>
        simp [initialPhase, chainCircuit_hold, chainCircuit_output, registerProcess, high]
    refine ⟨chain_stable start fun before _ => cleared before,
      { (chain_stages signature).settled start 0 with endings := ?_ }⟩
    intro high signal
    rw [wave_undriven (chain_stages signature).reset] at high
    cases signal with
    | hold => rw [wave_hold fun before _ => cleared before, register, if_pos high]
    | output => rw [wave_output fun before _ => cleared before, register, if_pos high]
  start := by
    intro state rests
    have start := rests.toSettled.firstReset_start clk data_in
    have cleared : state .reset = .bit true →
        Netlist.poke state (firstReset clk data_in) .reset = .bit true → ∀ signal,
        Netlist.poke state (firstReset clk data_in) (.ending signal) = .bit false := by
      intro before _ signal
      simpa [firstReset] using rests.endings before signal
    refine ⟨chain_stable start cleared,
      { (chain_stages signature).follows_firstReset rests.toSettled clk data_in 0 with
        hold := ?_
        output := ?_ }⟩
    · rw [wave_hold cleared]
      simp [register, firstReset, observe, signature.nonempty]
    · rw [wave_output cleared]
      simp [register, firstReset, observe, signature.nonempty]
  step := by
    intro past state event seen
    have start := seen.toFollows.start event
    have cleared : state .reset = .bit true →
        Netlist.poke state event.stimulus .reset = .bit true → ∀ signal,
        Netlist.poke state event.stimulus (.ending signal) = .bit false := by
      intro before _ signal
      have empty := seen.samples (Value.bit_inj.mp (seen.reset.symm.trans before))
      cases signal <;> cases event <;>
        simp [Event.stimulus, seen.hold, seen.output, empty, signature.nonempty]
    rw [observe_concat]
    refine ⟨chain_stable start cleared,
      { (chain_stages signature).follows_step seen.toFollows event 0 with
        hold := ?_
        output := ?_ }⟩
    · rw [wave_hold cleared]
      apply seen.toFollows.register_eq event fun samples => signature.bytes <:+: samples.tail
      · simp [signature.nonempty]
      · rw [← seen.loaded_hold]
        cases event <;> simp [Event.stimulus]
      · rw [← seen.hold]
        cases event <;> simp [Event.stimulus]
    · rw [wave_output cleared]
      apply seen.toFollows.register_eq event
        fun samples => signature.bytes <:+: samples.tail.dropLast
      · simp [signature.nonempty]
      · simp only [infix_tail_dropLast_concat, ← seen.hold]
        cases event <;> simp [Event.stimulus]
      · rw [← seen.output]
        cases event <;> simp [Event.stimulus]

end Chain

end SeqDetect.Clocked
