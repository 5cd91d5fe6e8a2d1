import SeqDetect.Triggered.Netlist

/-!
# The gates of a data-triggered chain

Everything but the comparators is sensitive to all the signals it reads, so it follows
them with one delta cycle of delay each.  Once the comparators of a chain are stable, so
is the chain two delta cycles later.
-/

namespace SeqDetect.Triggered

open Delta Vhdl Script

variable (signature : Signature) in
/-- The state of one chain. -/
abbrev State := Wire signature.bytes.length → Value

variable {signature : Signature}

/-- The design is enabled by every byte other than `x"00"`. -/
def enables (data : Value) : Value := .bit (data ≠ .byte 0)

/-- The match signal is gated by `reset`. -/
def gated (reset verdict : Value) : Value := if reset = .bit false then verdict else .bit false

/-- What the output latch assigns. -/
def latched (state : State signature) : Option Value :=
  if state .reset = .bit true then some (.bit false)
  else if state .enable = .bit true then
    if state .isMatching = .bit true then some (.bit true) else none
  else none

/-- What comparator `j` assigns. -/
def compares (j : Fin signature.bytes.length) (state : State signature) : Option Value :=
  if state .reset = .bit true then some (.bit false)
  else if state (enabling j) = .bit true then
    some (.bit (state .input = .byte (signature.byte j)))
  else none

/-- A circuit with the gates of a chain, whatever its comparators are sensitive to. -/
structure Gates (circuit : Circuit (Wire signature.bytes.length) Value) : Prop where
  reset : circuit .reset = none
  data_in : circuit .data_in = none
  enable : circuit .enable =
    some ⟨[.data_in], fun shown => some (enables (shown.now .data_in))⟩
  input : circuit .input = some ⟨[.data_in], fun shown => some (shown.now .data_in)⟩
  cmp : ∀ j, ∃ sensitivity, circuit (.cmp j) =
    some ⟨.reset :: sensitivity, fun shown => compares j shown.now⟩
  en_and_cmp : ∀ j, circuit (.en_and_cmp j) =
    some ⟨[.enable, .cmp j], fun shown => some ((shown.now .enable).and (shown.now (.cmp j)))⟩
  isMatching : circuit .isMatching = some ⟨[.reset, .cmp signature.last],
    fun shown => some (gated (shown.now .reset) (shown.now (.cmp signature.last)))⟩
  output : circuit .output =
    some ⟨[.enable, .reset, .isMatching], fun shown => latched shown.now⟩

/-- A chain at rest: every gate agrees with what it reads, and `reset` has cleared the
comparators. -/
structure Settled (state : State signature) : Prop where
  enable : state .enable = enables (state .data_in)
  input : state .input = state .data_in
  en_and_cmp : ∀ j, state (.en_and_cmp j) = (state .enable).and (state (.cmp j))
  isMatching : state .isMatching = gated (state .reset) (state (.cmp signature.last))
  output : state .output = (latched state).getD (state .output)
  cleared : state .reset = .bit true → ∀ j, state (.cmp j) = .bit false

/-- An update after which the gates still have the values that the state before it calls
for. -/
structure Start (shown : Snapshot (Wire signature.bytes.length) Value) : Prop where
  enable : shown.now .enable = enables (shown.last .data_in)
  input : shown.now .input = shown.last .data_in
  en_and_cmp : ∀ j, shown.now (.en_and_cmp j) = (shown.last .enable).and (shown.last (.cmp j))
  isMatching : shown.now .isMatching =
    gated (shown.last .reset) (shown.last (.cmp signature.last))
  output : shown.now .output = (latched shown.last).getD (shown.last .output)
  cleared : shown.last .reset = .bit true → shown.now .reset = .bit true →
    ∀ j, shown.now (.cmp j) = .bit false

section Waves

variable {circuit : Circuit (Wire signature.bytes.length) Value}
  {shown : Snapshot (Wire signature.bytes.length) Value}

theorem Gates.wave_enable (gates : Gates circuit) (start : Start shown) (k : ℕ) :
    wave circuit shown (k + 2) .enable = enables (shown.now .data_in) := by
  rw [wave_function (fun state => enables (state .data_in)) gates.enable (by simp +contextual)
    start.enable, wave_undriven gates.data_in]

theorem Gates.wave_input (gates : Gates circuit) (start : Start shown) (k : ℕ) :
    wave circuit shown (k + 2) .input = shown.now .data_in := by
  rw [wave_function (fun state => state .data_in) gates.input (by simp) start.input,
    wave_undriven gates.data_in]

theorem Gates.wave_en_and_cmp (gates : Gates circuit) (start : Start shown)
    (j : Fin signature.bytes.length) (k : ℕ) :
    wave circuit shown (k + 1) (.en_and_cmp j) =
      (wave circuit shown k .enable).and (wave circuit shown k (.cmp j)) :=
  wave_function (fun state : State signature => (state .enable).and (state (.cmp j)))
    (gates.en_and_cmp j) (by simp +contextual) (start.en_and_cmp j) k

theorem Gates.wave_isMatching (gates : Gates circuit) (start : Start shown) (k : ℕ) :
    wave circuit shown (k + 1) .isMatching =
      gated (wave circuit shown k .reset) (wave circuit shown k (.cmp signature.last)) :=
  wave_function (fun state : State signature => gated (state .reset) (state (.cmp signature.last)))
    gates.isMatching (by simp +contextual) start.isMatching k

theorem Gates.wave_output (gates : Gates circuit) (start : Start shown) (k : ℕ) :
    wave circuit shown (k + 1) .output =
      (latched (wave circuit shown k)).getD (wave circuit shown k .output) := by
  refine wave_level gates.output ⟨fun _ => rfl, ?_⟩ start.output k
  intro before after same
  simp [latched, same .reset (by simp), same .enable (by simp), same .isMatching (by simp)]

/-- `reset` clears the comparators at once and keeps them cleared. -/
theorem Gates.wave_cmp_of_reset (gates : Gates circuit) (start : Start shown)
    (high : shown.now .reset = .bit true) (j : Fin signature.bytes.length) (k : ℕ) :
    wave circuit shown (k + 2) (.cmp j) = .bit false := by
  obtain ⟨sensitivity, driven⟩ := gates.cmp j
  have kept : ∀ k, wave circuit shown (k + 1) .reset = .bit true := by
    intro k
    rw [wave_undriven gates.reset, high]
  have assigns : ∀ k, compares j (wave circuit shown (k + 1)) = some (.bit false) := by
    intro k
    rw [compares, if_pos (kept k)]
  induction k with
  | zero =>
      rw [wave_driven driven]
      dsimp only
      rw [assigns 0, Option.getD_some]
      by_cases before : shown.last .reset = .bit true
      · have cleared : wave circuit shown (0 + 1) (.cmp j) = .bit false :=
          start.cleared before high j
        rw [cleared]
        split <;> rfl
      · have event : wave circuit shown 0 .reset ≠ wave circuit shown (0 + 1) .reset := by
          rw [kept 0]
          exact before
        rw [if_pos ⟨.reset, by simp, event⟩]
  | succ k inductionHypothesis =>
      rw [wave_driven driven, inductionHypothesis]
      dsimp only
      rw [assigns (k + 1)]
      split <;> rfl

/-- Once the comparators are stable, the chain is so two delta cycles later. -/
theorem Gates.stable (gates : Gates circuit) (start : Start shown) (bound : ℕ)
    (comparators : ∀ k ≥ bound + 2, ∀ j,
      wave circuit shown k (.cmp j) = wave circuit shown (bound + 2) (.cmp j)) :
    Stable circuit shown (bound + 4) := by
  have resetKept : ∀ k, wave circuit shown (k + 1) .reset = shown.now .reset :=
    wave_undriven gates.reset
  have matching : ∀ k ≥ bound + 3, wave circuit shown k .isMatching =
      wave circuit shown (bound + 3) .isMatching := by
    intro k late
    obtain ⟨k, rfl⟩ := Nat.exists_eq_add_of_le' late
    rw [show k + (bound + 3) = k + bound + 1 + 1 + 1 by omega, gates.wave_isMatching start,
      gates.wave_isMatching start, resetKept, resetKept, comparators _ (by omega)]
  have assigns : ∀ k ≥ bound + 3, latched (wave circuit shown k) =
      latched (wave circuit shown (bound + 3)) := by
    intro k late
    rw [latched, latched, matching k late]
    obtain ⟨k, rfl⟩ := Nat.exists_eq_add_of_le' late
    rw [show k + (bound + 3) = k + bound + 1 + 2 by omega, gates.wave_enable start,
      gates.wave_enable start, resetKept, resetKept]
  have output : ∀ k, wave circuit shown (bound + 4 + k) .output =
      (latched (wave circuit shown (bound + 3))).getD
        (wave circuit shown (bound + 3) .output) := by
    intro k
    induction k with
    | zero => exact gates.wave_output start (bound + 3)
    | succ k inductionHypothesis =>
        rw [← Nat.add_assoc, gates.wave_output start, inductionHypothesis,
          assigns _ (by omega)]
        cases latched (wave circuit shown (bound + 3)) <;> rfl
  intro k late wire
  obtain ⟨k, rfl⟩ := Nat.exists_eq_add_of_le' late
  cases wire with
  | reset => rw [← Nat.add_assoc, resetKept, resetKept]
  | data_in =>
      rw [← Nat.add_assoc, wave_undriven gates.data_in, wave_undriven gates.data_in]
  | enable =>
      rw [show k + (bound + 4) = k + bound + 2 + 2 by omega, gates.wave_enable start,
        gates.wave_enable start]
  | input =>
      rw [show k + (bound + 4) = k + bound + 2 + 2 by omega, gates.wave_input start,
        gates.wave_input start]
  | cmp j => rw [comparators _ (by omega), comparators (bound + 4) (by omega)]
  | en_and_cmp j =>
      rw [show k + (bound + 4) = k + bound + 1 + 2 + 1 by omega, gates.wave_en_and_cmp start,
        gates.wave_en_and_cmp start, gates.wave_enable start, gates.wave_enable start,
        comparators _ (by omega), comparators (bound + 3) (by omega)]
  | isMatching => rw [matching _ (by omega), matching (bound + 4) (by omega)]
  | output => rw [Nat.add_comm k, output, ← output 0]

/-- A stable chain is at rest. -/
theorem Gates.settled (gates : Gates circuit) (start : Start shown) {bound : ℕ}
    (stable : Stable circuit shown (bound + 2)) : Settled (wave circuit shown (bound + 2)) where
  enable := by rw [gates.wave_enable start, wave_undriven gates.data_in]
  input := by rw [gates.wave_input start, wave_undriven gates.data_in]
  en_and_cmp j := by
    rw [← gates.wave_en_and_cmp start, stable (bound + 2 + 1) (by omega)]
  isMatching := by
    rw [← gates.wave_isMatching start, stable (bound + 2 + 1) (by omega)]
  output := by
    rw [← gates.wave_output start, stable (bound + 2 + 1) (by omega)]
  cleared := by
    rw [wave_undriven gates.reset]
    exact fun high j => gates.wave_cmp_of_reset start high j bound

/-- The initialization phase executes every gate. -/
theorem Gates.initial (gates : Gates circuit) (state : State signature) :
    Start (initialPhase circuit state) where
  enable := by simp [initialPhase, gates.enable]
  input := by simp [initialPhase, gates.input]
  en_and_cmp j := by simp [initialPhase, gates.en_and_cmp]
  isMatching := by simp [initialPhase, gates.isMatching]
  output := by simp [initialPhase, gates.output]
  cleared before _ j := by
    have high : state .reset = .bit true := before
    obtain ⟨sensitivity, driven⟩ := gates.cmp j
    simp [initialPhase, driven, compares, high]

end Waves

/-- New values of `reset` and `data_in`. -/
structure Event where
  reset : Bool
  data_in : Byte
  deriving DecidableEq

def Event.stimulus {n : ℕ} (event : Event) : Netlist.Stimulus (Wire n) Value :=
  [(.reset, .bit event.reset), (.data_in, .byte event.data_in)]

/-- An event finds the gates settled. -/
theorem Settled.start {state : State signature} (settled : Settled state) (event : Event) :
    Start ⟨state, Netlist.poke state event.stimulus⟩ where
  enable := by simp [Event.stimulus, settled.enable]
  input := by simp [Event.stimulus, settled.input]
  en_and_cmp j := by simp [Event.stimulus, settled.en_and_cmp]
  isMatching := by simp [Event.stimulus, settled.isMatching]
  output := by
    rw [← settled.output]
    simp [Event.stimulus]
  cleared before _ j := by simp [Event.stimulus, settled.cleared before]

end SeqDetect.Triggered
