import SeqDetect.Triggered.Gates

/-!
# What a data-triggered chain remembers

Between two events a chain remembers the verdicts of its comparators and its output.  One
event is one step of this memory, whatever happens in the delta cycles in between; the
steps of the two kinds of comparators differ in when a verdict is renewed.
-/

namespace SeqDetect.Triggered

open Delta Vhdl Script

/-- The state of a chain between two events. -/
structure Memory where
  reset : Bool
  data_in : Byte
  cmp : ℕ → Bool
  output : Bool

/-- The byte is data; `x"00"` is none. -/
def carries (b : Byte) : Bool := decide (b ≠ 0)

/-- Byte `j` of the signature is `b`. -/
def expects (signature : List Byte) (j : ℕ) (b : Byte) : Bool := signature[j]? = some b

namespace Memory

/-- Comparator `j` is enabled while the chain is at rest. -/
def enabled (memory : Memory) : ℕ → Bool
  | 0 => carries memory.data_in
  | j + 1 => carries memory.data_in && memory.cmp j

/-- The verdict once `reset` is low: its release resumes every comparator, while
`data_in` still shows the old byte to it. -/
def released (signature : List Byte) (memory : Memory) (j : ℕ) : Bool :=
  if memory.reset && memory.enabled j then expects signature j memory.data_in
  else memory.cmp j

/-- The verdict of a comparator that only a new byte resumes.  At that time the first one
has its new enable signal, every other one still has that of the old byte. -/
def compared (signature : List Byte) (memory : Memory) (data_in : Byte) : ℕ → Bool
  | 0 =>
      if data_in ≠ memory.data_in && carries data_in then expects signature 0 data_in
      else memory.released signature 0
  | j + 1 =>
      if data_in ≠ memory.data_in && memory.enabled (j + 1) then
        expects signature (j + 1) data_in
      else memory.released signature (j + 1)

/-- The verdict of a latch that is transparent while it is enabled: the enable signals of
the old byte, of the old verdict and of the new verdict of the stage before reach it in
turn. -/
def rippled (signature : List Byte) (memory : Memory) (data_in : Byte) : ℕ → Bool
  | 0 =>
      if carries data_in then expects signature 0 data_in
      else memory.released signature 0
  | j + 1 =>
      if memory.enabled (j + 1) || (carries data_in &&
          (memory.released signature j || memory.rippled signature data_in j)) then
        expects signature (j + 1) data_in
      else memory.released signature (j + 1)

/-- The step of a memory whose comparators end up with the given verdicts. -/
def next (signature : List Byte) (memory : Memory) (event : Event) (verdict : ℕ → Bool) :
    Memory where
  reset := event.reset
  data_in := event.data_in
  cmp j := !event.reset && verdict j
  output := !event.reset && (memory.output || (carries event.data_in &&
    (memory.cmp (signature.length - 1) || memory.released signature (signature.length - 1) ||
      verdict (signature.length - 1))))

/-- The step of the design as it is written. -/
def step (signature : List Byte) (memory : Memory) (event : Event) : Memory :=
  memory.next signature event (memory.compared signature event.data_in)

/-- The step of the synthesis view. -/
def stepLatch (signature : List Byte) (memory : Memory) (event : Event) : Memory :=
  memory.next signature event (memory.rippled signature event.data_in)

/-- The memory while `reset` is high. -/
def cleared (data_in : Byte) : Memory := ⟨true, data_in, fun _ => false, false⟩

end Memory

variable {signature : Signature}

/-- The chain is at rest and shows the memory. -/
structure Holds (memory : Memory) (state : State signature) : Prop extends Settled state where
  reset : state .reset = .bit memory.reset
  data_in : state .data_in = .byte memory.data_in
  cmp : ∀ j : Fin signature.bytes.length, state (.cmp j) = .bit (memory.cmp j)
  shows : state .output = .bit memory.output
  forgets : memory.reset = true → ∀ j, memory.cmp j = false

@[simp] theorem enables_byte (b : Byte) : enables (.byte b) = .bit (carries b) := by
  simp [enables, carries]

@[simp] theorem gated_low (verdict : Value) : gated (.bit false) verdict = verdict := by
  simp [gated]

theorem byte_eq_expects (j : Fin signature.bytes.length) (b : Byte) :
    decide (b = signature.byte j) = expects signature.bytes j b := by
  rw [expects, decide_eq_decide]
  simp [Signature.byte, eq_comm]

section Steps

variable {memory : Memory} {state : State signature}
  {circuit : Circuit (Wire signature.bytes.length) Value}

theorem Holds.enabling_eq (holds : Holds memory state) (j : Fin signature.bytes.length) :
    state (enabling j) = .bit (memory.enabled j) := by
  obtain ⟨_ | j, bound⟩ := j
  · simp [enabling, holds.enable, holds.data_in, Memory.enabled]
  · have earlier : enabling ⟨j + 1, bound⟩ =
        Wire.en_and_cmp (⟨j, by omega⟩ : Fin signature.bytes.length) := rfl
    rw [earlier, holds.en_and_cmp, holds.enable, holds.data_in, holds.cmp, enables_byte,
      Value.bit_and]
    rfl

/-- What comparator `j` finds in the first delta cycle of an event. -/
theorem Holds.compares_now (holds : Holds memory state) (event : Event)
    (low : event.reset = false) (j : Fin signature.bytes.length) :
    compares j (Netlist.poke state event.stimulus) =
      if memory.enabled j then some (.bit (expects signature.bytes j memory.data_in))
      else none := by
  have enabling : Netlist.poke state event.stimulus (enabling j) = .bit (memory.enabled j) := by
    rw [← holds.enabling_eq]
    obtain ⟨_ | j, bound⟩ := j <;> simp [Triggered.enabling, Event.stimulus]
  rw [compares, enabling, ← byte_eq_expects]
  simp [Event.stimulus, low, holds.input, holds.data_in]

/-- What enables a comparator in the second delta cycle of an event: the first one has its
new enable signal, every other one still has that of the old byte and verdict. -/
theorem Gates.wave_enabling_two (gates : Gates circuit) (holds : Holds memory state)
    (event : Event) (j : Fin signature.bytes.length) :
    wave circuit ⟨state, Netlist.poke state event.stimulus⟩ 2 (enabling j) =
      .bit (if j.val = 0 then carries event.data_in else memory.enabled j) := by
  have start := holds.toSettled.start event
  obtain ⟨_ | j, bound⟩ := j
  · have first : enabling ⟨0, bound⟩ = Wire.enable := rfl
    rw [first, gates.wave_enable start]
    simp [Event.stimulus]
  · have earlier : enabling ⟨j + 1, bound⟩ =
        Wire.en_and_cmp (⟨j, by omega⟩ : Fin signature.bytes.length) := rfl
    rw [earlier, gates.wave_en_and_cmp start, wave_one]
    simp [Event.stimulus, holds.enable, holds.data_in, holds.cmp, Memory.enabled]

/-- A match signal that is enabled has set the output before. -/
theorem Holds.output_of_match (holds : Holds memory state)
    (enabled : state .enable = .bit true) (matching : state .isMatching = .bit true) :
    memory.output = true := by
  have low : memory.reset = false := by
    by_contra high
    rw [Bool.not_eq_false] at high
    rw [holds.isMatching, holds.reset, high] at matching
    simp [gated] at matching
  have output := holds.output
  rw [latched, holds.reset, low, enabled, matching, holds.shows] at output
  simpa using output

/-- While an event settles, the output collects the verdicts of the last comparator. -/
theorem Gates.output_wave (gates : Gates circuit) (holds : Holds memory state) (event : Event)
    (low : event.reset = false) (verdict : ℕ → Bool)
    (verdicts : ∀ k, wave circuit ⟨state, Netlist.poke state event.stimulus⟩ (k + 1)
      (.cmp signature.last) = .bit (verdict k)) (k : ℕ) :
    wave circuit ⟨state, Netlist.poke state event.stimulus⟩ (k + 2) .output =
      .bit (memory.output || (carries event.data_in && (List.range k).any verdict)) := by
  have start := holds.toSettled.start event
  have resetLow : ∀ k, wave circuit ⟨state, Netlist.poke state event.stimulus⟩ (k + 1) .reset =
      .bit false := by
    intro k
    rw [wave_undriven gates.reset]
    simp [Event.stimulus, low]
  induction k with
  | zero =>
      rw [gates.wave_output start, latched, resetLow, wave_one]
      simp only [Event.stimulus, Netlist.poke_cons, Netlist.poke_nil, reduceCtorEq, if_false]
      by_cases matched : state .enable = .bit true ∧ state .isMatching = .bit true
      · simp [matched, holds.output_of_match matched.1 matched.2]
      · by_cases enabled : state .enable = .bit true
        · have quiet : state .isMatching ≠ .bit true := fun high => matched ⟨enabled, high⟩
          simp [enabled, quiet, holds.shows]
        · simp [enabled, holds.shows]
  | succ k inductionHypothesis =>
      rw [gates.wave_output start, inductionHypothesis, latched, resetLow,
        gates.wave_enable start, gates.wave_isMatching start, resetLow, verdicts, gated_low,
        List.range_succ, List.any_append]
      simp only [Event.stimulus, Netlist.poke_cons, reduceCtorEq, if_false, if_true,
        enables_byte]
      cases carries event.data_in <;> cases last : verdict k <;> simp [last]

/-- A chain that ends up with the given verdicts has made the step of its memory. -/
theorem Gates.holds_next (gates : Gates circuit) (holds : Holds memory state) (event : Event)
    {bound : ℕ} (stable : Stable circuit ⟨state, Netlist.poke state event.stimulus⟩ (bound + 2))
    (verdict : ℕ → Bool)
    (comparators : event.reset = false → ∀ j : Fin signature.bytes.length,
      wave circuit ⟨state, Netlist.poke state event.stimulus⟩ (bound + 2) (.cmp j) =
        .bit (verdict j))
    (collected : event.reset = false →
      wave circuit ⟨state, Netlist.poke state event.stimulus⟩ (bound + 2) .output =
        .bit (memory.output || (carries event.data_in &&
          (memory.cmp (signature.bytes.length - 1) ||
            memory.released signature.bytes (signature.bytes.length - 1) ||
            verdict (signature.bytes.length - 1))))) :
    Holds (memory.next signature.bytes event verdict)
      (wave circuit ⟨state, Netlist.poke state event.stimulus⟩ (bound + 2)) := by
  have start := holds.toSettled.start event
  have settled := gates.settled start stable
  have reset : wave circuit ⟨state, Netlist.poke state event.stimulus⟩ (bound + 2) .reset =
      .bit event.reset := by
    rw [wave_undriven gates.reset]
    simp [Event.stimulus]
  refine { settled with reset := reset, data_in := ?_, cmp := ?_, shows := ?_, forgets := ?_ }
  · rw [wave_undriven gates.data_in]
    simp [Event.stimulus, Memory.next]
  · intro j
    cases high : event.reset with
    | true =>
        rw [settled.cleared (by rw [reset, high])]
        simp [Memory.next, high]
    | false =>
        rw [comparators high]
        simp [Memory.next, high]
  · cases high : event.reset with
    | true =>
        rw [settled.output, latched, reset, high]
        simp [Memory.next, high]
    | false =>
        rw [collected high]
        simp [Memory.next, high]
  · intro high j
    have raised : event.reset = true := high
    simp [Memory.next, raised]

/-- A first reset puts the chain into a known state. -/
theorem Gates.holds_cleared (gates : Gates circuit) (settled : Settled state) (data_in : Byte)
    {bound : ℕ} (stable : Stable circuit
      ⟨state, Netlist.poke state (Event.mk true data_in).stimulus⟩ (bound + 2)) :
    Holds (.cleared data_in)
      (wave circuit ⟨state, Netlist.poke state (Event.mk true data_in).stimulus⟩
        (bound + 2)) := by
  have start := settled.start ⟨true, data_in⟩
  have rest := gates.settled start stable
  have reset : wave circuit ⟨state, Netlist.poke state (Event.mk true data_in).stimulus⟩
      (bound + 2) .reset = .bit true := by
    rw [wave_undriven gates.reset]
    simp [Event.stimulus]
  refine { rest with reset := reset, data_in := ?_, cmp := ?_, shows := ?_, forgets := ?_ }
  · rw [wave_undriven gates.data_in]
    simp [Event.stimulus, Memory.cleared]
  · exact rest.cleared reset
  · rw [rest.output, latched, if_pos reset]
    rfl
  · exact fun _ _ => rfl

end Steps

end SeqDetect.Triggered
