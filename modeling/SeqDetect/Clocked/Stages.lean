import SeqDetect.Delta.View
import SeqDetect.Pattern.Occurrence
import SeqDetect.Script.Hexify

/-!
# The stages of a clocked chain

Both clocked detectors pass `data_in` to comparators and gate their verdicts into a
chain of flip-flops; they differ in what follows `isMatching`.  This module settles
the common part and relates it to the bytes sampled since the last release of reset.
-/

namespace SeqDetect.Clocked

open Delta Script Pattern

/-- The signals of one chain of `n` stages, with those that all chains share and those
of what follows the chain. -/
inductive Wire (Ending : Type) (n : ℕ) where
  | clk | reset | data_in | input
  | cmp (j : Fin n)
  | ff (j : Fin n)
  | out_and (j : Fin n)
  | isMatching
  | ending (signal : Ending)
  deriving DecidableEq

variable {Ending : Type} {signature : Signature}

variable (Ending signature) in
/-- The state of one chain. -/
abbrev State := Wire Ending signature.bytes.length → Value

/-- The value a flip-flop is fed with: a constant in the first stage, the gate of the
stage before in every other one. -/
def feed (state : State Ending signature) (j : Fin signature.bytes.length) : Value :=
  if j.val = 0 then .logic .one
  else state (.out_and ⟨j.val - 1, lt_of_le_of_lt (Nat.sub_le _ _) j.isLt⟩)

/-- A process that `reset` clears and a rising edge of `clk` loads. -/
def registerProcess (others : List (Wire Ending signature.bytes.length))
    (load : State Ending signature → Option Value) :
    Process (Wire Ending signature.bytes.length) Value where
  sensitivity := .clk :: .reset :: others
  body shown :=
    if shown.now .reset = .bit true then some (.bit false)
    else if Value.rises (shown.last .clk) (shown.now .clk) then load shown.now
    else none

theorem registerProcess_body (others : List (Wire Ending signature.bytes.length))
    (load : State Ending signature → Option Value)
    (shown : Snapshot (Wire Ending signature.bytes.length) Value) :
    (registerProcess others load).body shown =
      if shown.now .reset = .bit true then some (.bit false)
      else if Value.rises (shown.last .clk) (shown.now .clk) then load shown.now
      else none := rfl

/-- A circuit whose common part is a chain of stages for the signature. -/
structure Stages (circuit : Circuit (Wire Ending signature.bytes.length) Value) : Prop where
  clk : circuit .clk = none
  reset : circuit .reset = none
  data_in : circuit .data_in = none
  input : circuit .input = some ⟨[.data_in], fun shown => some (shown.now .data_in)⟩
  cmp : ∀ j : Fin signature.bytes.length, circuit (.cmp j) =
    some ⟨[.input], fun shown => some (.bit (shown.now .input = .byte (signature.byte j)))⟩
  ff : ∀ j, circuit (.ff j) = some (registerProcess [] fun state => some (feed state j))
  out_and : ∀ j, circuit (.out_and j) =
    some ⟨[.ff j, .cmp j], fun shown => some ((shown.now (.ff j)).and (shown.now (.cmp j)))⟩
  isMatching : circuit .isMatching =
    some ⟨[.out_and signature.last], fun shown => some (shown.now (.out_and signature.last))⟩

/-- A chain at rest: the combinational signals are functions of the others, and
`reset` has cleared the flip-flops. -/
structure Settled (state : State Ending signature) : Prop where
  input : state .input = state .data_in
  cmp : ∀ j : Fin signature.bytes.length,
    state (.cmp j) = .bit (state .data_in = .byte (signature.byte j))
  out_and : ∀ j, state (.out_and j) = (state (.ff j)).and (state (.cmp j))
  isMatching : state .isMatching = state (.out_and signature.last)
  cleared : state .reset = .bit true → ∀ j, state (.ff j) = .bit false

/-- An update after which the combinational signals still have the values that the
state before it calls for. -/
structure Start (shown : Snapshot (Wire Ending signature.bytes.length) Value) : Prop where
  input : shown.now .input = shown.last .data_in
  cmp : ∀ j : Fin signature.bytes.length,
    shown.now (.cmp j) = .bit (shown.last .input = .byte (signature.byte j))
  out_and : ∀ j, shown.now (.out_and j) = (shown.last (.ff j)).and (shown.last (.cmp j))
  isMatching : shown.now .isMatching = shown.last (.out_and signature.last)
  cleared : shown.last .reset = .bit true → shown.now .reset = .bit true →
    ∀ j, shown.now (.ff j) = .bit false

/-- A register after an update: cleared, loaded or kept. -/
def register (shown : Snapshot (Wire Ending signature.bytes.length) Value)
    (loaded kept : Value) : Value :=
  if shown.now .reset = .bit true then .bit false
  else if Value.rises (shown.last .clk) (shown.now .clk) then loaded
  else kept

section Waves

variable {circuit : Circuit (Wire Ending signature.bytes.length) Value}
  {shown : Snapshot (Wire Ending signature.bytes.length) Value}

theorem Stages.wave_input (stages : Stages circuit) (start : Start shown) (k : ℕ) :
    wave circuit shown (k + 2) .input = shown.now .data_in := by
  rw [wave_function (fun state => state .data_in) stages.input (by simp) start.input,
    wave_undriven stages.data_in]

theorem Stages.wave_cmp (stages : Stages circuit) (start : Start shown)
    (j : Fin signature.bytes.length) (k : ℕ) :
    wave circuit shown (k + 3) (.cmp j) =
      .bit (shown.now .data_in = .byte (signature.byte j)) := by
  rw [wave_function (fun state => .bit (state .input = .byte (signature.byte j)))
    (stages.cmp j) (by simp +contextual) (start.cmp j), stages.wave_input start]

theorem Stages.wave_out_and (stages : Stages circuit) (start : Start shown)
    (j : Fin signature.bytes.length) (k : ℕ) :
    wave circuit shown (k + 1) (.out_and j) =
      (wave circuit shown k (.ff j)).and (wave circuit shown k (.cmp j)) :=
  wave_function (fun state : State Ending signature => (state (.ff j)).and (state (.cmp j)))
    (stages.out_and j) (by simp +contextual) (start.out_and j) k

theorem Stages.wave_isMatching (stages : Stages circuit) (start : Start shown) (k : ℕ) :
    wave circuit shown (k + 1) .isMatching = wave circuit shown k (.out_and signature.last) :=
  wave_function (fun state : State Ending signature => state (.out_and signature.last))
    stages.isMatching (by simp) start.isMatching k

/-- A register is loaded in the first delta cycle only: `clk` and `reset` have no event
in a later one, whatever else may resume the process. -/
theorem Stages.wave_register (stages : Stages circuit)
    {wire : Wire Ending signature.bytes.length}
    {others : List (Wire Ending signature.bytes.length)}
    {load : State Ending signature → Option Value}
    (driven : circuit wire = some (registerProcess others load))
    (cleared : shown.last .reset = .bit true → shown.now .reset = .bit true →
      shown.now wire = .bit false) (k : ℕ) :
    wave circuit shown (k + 2) wire =
      register shown ((load shown.now).getD (shown.now wire)) (shown.now wire) := by
  have resetKept : ∀ k, wave circuit shown (k + 1) .reset = shown.now .reset :=
    wave_undriven stages.reset
  have clkKept : ∀ k, wave circuit shown (k + 1) .clk = shown.now .clk :=
    wave_undriven stages.clk
  induction k with
  | zero =>
      rw [wave_driven driven, wave_zero, Nat.zero_add, wave_one, registerProcess_body, register]
      dsimp only
      by_cases reset : shown.now .reset = .bit true
      · rw [if_pos reset, if_pos reset]
        by_cases before : shown.last .reset = .bit true
        · rw [cleared before reset]
          split <;> rfl
        · have event : shown.last .reset ≠ shown.now .reset := by rwa [reset]
          rw [if_pos ⟨.reset, by simp [registerProcess], event⟩]
          rfl
      · rw [if_neg reset, if_neg reset]
        by_cases edge : Value.rises (shown.last .clk) (shown.now .clk) = true
        · have event : shown.last .clk ≠ shown.now .clk := by
            intro same
            simp [same] at edge
          rw [if_pos edge, if_pos edge, if_pos ⟨.clk, by simp [registerProcess], event⟩]
        · rw [if_neg edge, if_neg edge]
          split <;> rfl
  | succ k inductionHypothesis =>
      rw [wave_driven driven, inductionHypothesis, registerProcess_body]
      simp only [resetKept, clkKept, Value.rises_self]
      by_cases reset : shown.now .reset = .bit true <;> simp [register, reset]

theorem Stages.wave_ff (stages : Stages circuit) (start : Start shown)
    (j : Fin signature.bytes.length) (k : ℕ) :
    wave circuit shown (k + 2) (.ff j) =
      register shown (feed shown.now j) (shown.now (.ff j)) :=
  stages.wave_register (stages.ff j) (fun before after => start.cleared before after j) k

/-- The gate of a stage, once the comparator has seen the new byte. -/
theorem Stages.wave_gate (stages : Stages circuit) (start : Start shown)
    (j : Fin signature.bytes.length) (k : ℕ) :
    wave circuit shown (k + 4) (.out_and j) =
      (register shown (feed shown.now j) (shown.now (.ff j))).and
        (.bit (shown.now .data_in = .byte (signature.byte j))) := by
  rw [stages.wave_out_and start, stages.wave_ff start, stages.wave_cmp start]

/-- From the fifth delta cycle on, the common part does not change. -/
theorem Stages.stable (stages : Stages circuit) (start : Start shown) {k : ℕ} (late : 5 ≤ k)
    {wire : Wire Ending signature.bytes.length} (stage : ∀ signal, wire ≠ .ending signal) :
    wave circuit shown k wire = wave circuit shown 5 wire := by
  obtain ⟨k, rfl⟩ := Nat.exists_eq_add_of_le' late
  cases wire with
  | clk => rw [wave_undriven stages.clk, wave_undriven stages.clk]
  | reset => rw [wave_undriven stages.reset, wave_undriven stages.reset]
  | data_in => rw [wave_undriven stages.data_in, wave_undriven stages.data_in]
  | input => rw [stages.wave_input start, stages.wave_input start]
  | cmp j => rw [stages.wave_cmp start, stages.wave_cmp start]
  | ff j => rw [stages.wave_ff start, stages.wave_ff start]
  | out_and j => rw [stages.wave_gate start, stages.wave_gate start]
  | isMatching =>
      rw [stages.wave_isMatching start, stages.wave_isMatching start, stages.wave_gate start,
        stages.wave_gate start]
  | ending signal => exact absurd rfl (stage signal)

theorem Stages.settled (stages : Stages circuit) (start : Start shown) (k : ℕ) :
    Settled (wave circuit shown (k + 5)) where
  input := by rw [stages.wave_input start, wave_undriven stages.data_in]
  cmp j := by rw [stages.wave_cmp start, wave_undriven stages.data_in]
  out_and j := by rw [stages.wave_gate start, stages.wave_ff start, stages.wave_cmp start]
  isMatching := by
    rw [stages.wave_isMatching start, stages.wave_gate start, stages.wave_gate start]
  cleared := by
    rw [wave_undriven stages.reset]
    intro reset j
    rw [stages.wave_ff start, register, if_pos reset]

/-- A change of the input ports starts from a settled state. -/
theorem Settled.start {state changed : State Ending signature} (settled : Settled state)
    (input : changed .input = state .input) (cmp : ∀ j, changed (.cmp j) = state (.cmp j))
    (ff : ∀ j, changed (.ff j) = state (.ff j))
    (out_and : ∀ j, changed (.out_and j) = state (.out_and j))
    (isMatching : changed .isMatching = state .isMatching) : Start ⟨state, changed⟩ where
  input := by simp only [input, settled.input]
  cmp j := by simp only [cmp, settled.cmp, settled.input]
  out_and j := by simp only [out_and, settled.out_and]
  isMatching := by simp only [isMatching, settled.isMatching]
  cleared before _ j := by simp only [ff, settled.cleared before]

/-- The initialization phase executes the comparators and gates, and clears the
flip-flops when it finds `reset` high. -/
theorem Stages.initial (stages : Stages circuit) (state : State Ending signature) :
    Start (initialPhase circuit state) where
  input := by simp [initialPhase, stages.input]
  cmp j := by
    simp only [initialPhase, stages.cmp]
    rfl
  out_and j := by simp [initialPhase, stages.out_and]
  isMatching := by simp [initialPhase, stages.isMatching]
  cleared before _ j := by
    have high : state .reset = .bit true := before
    simp [initialPhase, stages.ff, registerProcess, high]

end Waves

/-- One change of an input port. -/
inductive Event where
  | clk (level : Bool)
  | reset (level : Bool)
  | data_in (byte : Byte)
  deriving DecidableEq

def Event.stimulus {n : ℕ} : Event → Netlist.Stimulus (Wire Ending n) Value
  | clk level => [(.clk, .bit level)]
  | reset level => [(.reset, .bit level)]
  | data_in byte => [(.data_in, .byte byte)]

/-- A first stimulus that raises `reset`, whatever the other ports show. -/
def firstReset {n : ℕ} (clk : Bool) (data_in : Byte) :
    Netlist.Stimulus (Wire Ending n) Value :=
  [(.clk, .bit clk), (.reset, .bit true), (.data_in, .byte data_in)]

/-- What the ports show, and the bytes `b_1, b_2, …` that the rising edges since the
last release of reset have sampled. -/
structure Observed where
  clk : Bool
  reset : Bool
  data_in : Byte
  samples : List Byte
  deriving DecidableEq

def Observed.after (seen : Observed) : Event → Observed
  | .clk level =>
      { seen with
        clk := level
        samples :=
          if !seen.reset && (!seen.clk && level) then seen.samples ++ [seen.data_in]
          else seen.samples }
  | .reset level =>
      { seen with reset := level, samples := if level then [] else seen.samples }
  | .data_in byte => { seen with data_in := byte }

/-- The observation of a schedule that follows a first reset. -/
def observe (clk : Bool) (data_in : Byte) (events : List Event) : Observed :=
  events.foldl Observed.after ⟨clk, true, data_in, []⟩

theorem observe_concat (clk : Bool) (data_in : Byte) (past : List Event) (event : Event) :
    observe clk data_in (past ++ [event]) = (observe clk data_in past).after event := by
  simp [observe]

/-- While `reset` is high there are no samples. -/
theorem observe_restarts {clk : Bool} {data_in : Byte} {events : List Event}
    (high : (observe clk data_in events).reset = true) :
    (observe clk data_in events).samples = [] := by
  induction events using List.reverseRecOn with
  | nil => rfl
  | append_singleton past event inductionHypothesis =>
      rw [observe_concat] at high ⊢
      cases event with
      | clk level =>
          have before : (observe clk data_in past).reset = true := high
          simp [Observed.after, before, inductionHypothesis before]
      | reset level =>
          have raised : level = true := high
          simp [Observed.after, raised]
      | data_in byte => exact inductionHypothesis high

/-- The byte on `data_in`, as the next sample, would complete the signature. -/
def Observed.Armed (seen : Observed) (signature : Signature) : Prop :=
  signature.bytes <:+ (seen.samples ++ [seen.data_in]).tail

instance (seen : Observed) (signature : Signature) : Decidable (seen.Armed signature) :=
  inferInstanceAs (Decidable (_ <:+ _))

/-- The stages hold what the observation says. -/
structure Follows (seen : Observed) (state : State Ending signature) : Prop extends
    Settled state where
  clk : state .clk = .bit seen.clk
  reset : state .reset = .bit seen.reset
  data_in : state .data_in = .byte seen.data_in
  samples : seen.reset = true → seen.samples = []
  ff : ∀ j : Fin signature.bytes.length,
    state (.ff j) = .bit (Progress signature.bytes j seen.samples)

section Steps

variable {seen : Observed} {state : State Ending signature}

theorem Follows.feed_eq (follows : Follows seen state) (j : Fin signature.bytes.length) :
    feed state j = .bit (Progress signature.bytes j (seen.samples ++ [seen.data_in])) := by
  obtain ⟨_ | j, bound⟩ := j
  · simp [feed, progress_zero_concat, Value.bit]
  · have earlier : j < signature.bytes.length := by omega
    have gate : feed state ⟨j + 1, bound⟩ = state (.out_and ⟨j, earlier⟩) := rfl
    rw [gate, follows.out_and, follows.cmp, follows.ff, follows.data_in, Value.bit_and,
      ← Bool.decide_and, Value.bit_inj, decide_eq_decide, Value.byte_inj,
      progress_succ_concat earlier, eq_comm]
    rfl

/-- The match signal is high while the byte on `data_in` would complete the signature. -/
theorem Follows.isMatching_eq (follows : Follows seen state) :
    state .isMatching = .bit (seen.Armed signature) := by
  rw [follows.isMatching, follows.out_and, follows.cmp, follows.ff, follows.data_in,
    Value.bit_and, ← Bool.decide_and, Value.bit_inj, decide_eq_decide, Value.byte_inj,
    Observed.Armed, suffix_tail_concat signature.last.isLt, eq_comm]
  rfl

variable [DecidableEq Ending]

theorem Follows.start (follows : Follows seen state) (event : Event) :
    Start ⟨state, Netlist.poke state event.stimulus⟩ := by
  cases event <;>
    exact follows.toSettled.start (by simp [Event.stimulus])
      (by simp [Event.stimulus]) (by simp [Event.stimulus])
      (by simp [Event.stimulus]) (by simp [Event.stimulus])

/-- A register that shows a property of the samples keeps doing so if it is loaded with
that property of the samples and the next one. -/
theorem Follows.register_eq (follows : Follows seen state) (event : Event)
    (property : List Byte → Prop) [DecidablePred property] (empty : ¬ property [])
    {loaded kept : Value}
    (loaded_eq : loaded = .bit (property (seen.samples ++ [seen.data_in])))
    (kept_eq : kept = .bit (property seen.samples)) :
    register ⟨state, Netlist.poke state event.stimulus⟩ loaded kept =
      .bit (property (seen.after event).samples) := by
  rw [loaded_eq, kept_eq]
  cases event with
  | clk level =>
      simp only [register, Event.stimulus, Observed.after]
      by_cases high : seen.reset = true
      · simp [follows.reset, high, follows.samples high, empty]
      · by_cases edge : (!seen.clk && level) = true <;>
          simp [follows.reset, follows.clk, high, edge]
  | reset level =>
      cases level <;> simp [register, Event.stimulus, Observed.after, empty]
  | data_in byte =>
      simp only [register, Event.stimulus, Observed.after]
      by_cases high : seen.reset = true
      · simp [follows.reset, high, follows.samples high, empty]
      · simp [follows.reset, high]
        rfl

variable {circuit : Circuit (Wire Ending signature.bytes.length) Value}

/-- The step lemma of the stages. -/
theorem Stages.follows_step (stages : Stages circuit) (follows : Follows seen state)
    (event : Event) (k : ℕ) :
    Follows (seen.after event)
      (wave circuit ⟨state, Netlist.poke state event.stimulus⟩ (k + 5)) where
  toSettled := stages.settled (follows.start event) k
  clk := by
    rw [wave_undriven stages.clk]
    cases event <;> simp [Event.stimulus, Observed.after, follows.clk]
  reset := by
    rw [wave_undriven stages.reset]
    cases event <;> simp [Event.stimulus, Observed.after, follows.reset]
  data_in := by
    rw [wave_undriven stages.data_in]
    cases event <;> simp [Event.stimulus, Observed.after, follows.data_in]
  samples := by
    cases event with
    | clk level =>
        intro high
        have before : seen.reset = true := high
        simp [Observed.after, before, follows.samples before]
    | reset level =>
        intro high
        have raised : level = true := high
        simp [Observed.after, raised]
    | data_in byte => exact follows.samples
  ff j := by
    rw [stages.wave_ff (follows.start event)]
    apply follows.register_eq event (Progress signature.bytes j)
    · exact not_progress_nil _
    · rw [← follows.feed_eq]
      cases event <;> simp [feed, Event.stimulus]
    · rw [← follows.ff]
      cases event <;> simp [Event.stimulus]

/-- A first reset puts the stages into a known state. -/
theorem Settled.firstReset_start (settled : Settled state) (clk : Bool) (data_in : Byte) :
    Start ⟨state, Netlist.poke state (firstReset clk data_in)⟩ :=
  settled.start (by simp [firstReset]) (by simp [firstReset])
    (by simp [firstReset]) (by simp [firstReset])
    (by simp [firstReset])

theorem Stages.follows_firstReset (stages : Stages circuit) (settled : Settled state)
    (clk : Bool) (data_in : Byte) (k : ℕ) :
    Follows (observe clk data_in [])
      (wave circuit ⟨state, Netlist.poke state (firstReset clk data_in)⟩ (k + 5)) where
  toSettled := stages.settled (settled.firstReset_start clk data_in) k
  clk := by simp [wave_undriven stages.clk, firstReset, observe]
  reset := by simp [wave_undriven stages.reset, firstReset, observe]
  data_in := by simp [wave_undriven stages.data_in, firstReset, observe]
  samples _ := rfl
  ff j := by
    rw [stages.wave_ff (settled.firstReset_start clk data_in)]
    simp [register, firstReset, observe, not_progress_nil]

end Steps

end SeqDetect.Clocked
