import SeqDetect.Finder.Search

/-!
# What an observer of the finder expects

The history of the finder is split at a reset: before it, any values may have been on the ports;
after it, the sequence stays as it was presented.  From the clock edges since the reset an
observer can tell the registers, but for what the reset has left in `End_Of_Sequence`.
-/

namespace SeqDetect.Finder

open Delta Pattern

section Events

/-- A defined value on one port. -/
inductive Event where
  | SF_clk (level : Bool)
  | SF_Reset (level : Bool)
  | SF_User_Data (byte : Byte)
  deriving DecidableEq, Repr

def Event.apply (inputs : Inputs) : Event → Inputs
  | .SF_clk level => { inputs with SF_clk := .bit level }
  | .SF_Reset level => { inputs with SF_Reset := .bit level }
  | .SF_User_Data byte => { inputs with SF_User_Data := .byte byte }

/-- The successive values on all ports. -/
def updates : Inputs → List Event → List Inputs
  | _, [] => []
  | inputs, event :: events => event.apply inputs :: updates (event.apply inputs) events

/-- Defined values with the reset released, to be held when it is applied. -/
def presented (clk : Bool) (byte : Byte) (word : Word) : Inputs :=
  ⟨.bit clk, .bit false, .byte byte, word.value⟩

/-- Any history, then the word is presented, the reset applied, and the events follow. -/
def schedule (past : List Inputs) (clk : Bool) (byte : Byte) (word : Word)
    (events : List Event) : List Inputs :=
  past ++ presented clk byte word :: updates (presented clk byte word) (.SF_Reset true :: events)

end Events

section Observed

/-- What an observer of the ports sees: their values, and the bytes that were on
`SF_User_Data` at the clock edges since the last reset. -/
structure Observed where
  SF_clk : Bool
  SF_Reset : Bool
  SF_User_Data : Byte
  samples : List Byte
  deriving DecidableEq, Repr

def Observed.after (seen : Observed) : Event → Observed
  | .SF_clk level =>
      { seen with
        SF_clk := level
        samples :=
          if level && !seen.SF_clk && !seen.SF_Reset then seen.samples ++ [seen.SF_User_Data]
          else seen.samples }
  | .SF_Reset true => { seen with SF_Reset := true, samples := [] }
  | .SF_Reset false => { seen with SF_Reset := false }
  | .SF_User_Data byte => { seen with SF_User_Data := byte }

def observe (clk : Bool) (byte : Byte) (events : List Event) : Observed :=
  events.foldl Observed.after ⟨clk, true, byte, []⟩

theorem observe_append (clk : Bool) (byte : Byte) (past more : List Event) :
    observe clk byte (past ++ more) = more.foldl Observed.after (observe clk byte past) :=
  List.foldl_append

/-- Since the last reset `End_Of_Sequence` has held `earlier` until the first clock edge. -/
structure Expected extends Observed where
  earlier : Bool
  deriving DecidableEq, Repr

namespace Expected

variable (target : List Byte) (seen : Expected)

/-- `End_Of_Sequence` is set one edge after the last byte of an occurrence. -/
def ended : Bool :=
  if seen.samples = [] then seen.earlier else decide (Completes target seen.samples.dropLast)

/-- `SF_Sequence_Found` follows `End_Of_Sequence` one edge later. -/
def found : Bool :=
  if seen.samples = [] then false
  else ended target { seen with samples := seen.samples.dropLast }

/-- A reset does not clear `End_Of_Sequence`. -/
def after (event : Event) : Expected where
  toObserved := seen.toObserved.after event
  earlier := if event = .SF_Reset true then seen.ended target else seen.earlier

end Expected

def expect (target : List Byte) (clk : Bool) (byte : Byte) (earlier : Bool)
    (events : List Event) : Expected :=
  events.foldl (Expected.after target) ⟨⟨clk, true, byte, []⟩, earlier⟩

theorem expect_append (target : List Byte) (clk : Bool) (byte : Byte) (earlier : Bool)
    (past more : List Event) : expect target clk byte earlier (past ++ more) =
      more.foldl (Expected.after target) (expect target clk byte earlier past) :=
  List.foldl_append

theorem expect_toObserved (target : List Byte) (clk : Bool) (byte : Byte) (earlier : Bool)
    (events : List Event) :
    (expect target clk byte earlier events).toObserved = observe clk byte events := by
  induction events using List.reverseRecOn with
  | nil => rfl
  | append_singleton past event inductionHypothesis =>
      rw [expect_append, observe_append, ← inductionHypothesis]
      rfl

end Observed

section Steps

variable {before after : Inputs} {current : Registers}

/-- An update during a reset loads the sequence, and leaves `End_Of_Sequence` alone. -/
theorem Registers.step_reset (current : Registers) (touched : Touched before after)
    (reset : after.SF_Reset = .logic .one) :
    current.step before after =
      { Data := (current.step before after).Data
        Mismatch_Occurred := .bit false
        Previous_Data := current.Previous_Data
        Sequence := after.SF_User_Sequence
        SF_Sequence_Found := Finder.found false
        End_Of_Sequence := current.End_Of_Sequence } := by
  have taken : branch before after current = .reset := by simp [branch, reset]
  ext1 <;>
    simp [step, next, touched, taken, reset, Finder.Mismatch_Occurred, Finder.Previous_Data,
      Finder.Sequence, Finder.SF_Sequence_Found, Finder.End_Of_Sequence, Value.bit]

/-- Without a reset and without a clock edge the registers keep their values. -/
theorem Registers.step_idle (noReset : after.SF_Reset ≠ .logic .one)
    (noEdge : ¬ Edge before after) :
    current.step before after = { current with Data := (current.step before after).Data } := by
  have taken : branch before after current = .idle := by simp [branch, noReset, noEdge]
  ext1 <;>
    simp [step, next, taken, noReset, noEdge, Finder.Mismatch_Occurred, Finder.Previous_Data,
      Finder.Sequence, Finder.SF_Sequence_Found, Finder.End_Of_Sequence]

/-- At a clock edge the output takes the value of `End_Of_Sequence`. -/
theorem Samples.found {word : Word} {x : Byte} (samples : Samples word x before after current) :
    (current.step before after).SF_Sequence_Found =
      Finder.found (decide (current.End_Of_Sequence = .logic .one)) := by
  simp only [Registers.step, Registers.next, samples.touched, if_true, SF_Sequence_Found,
    samples.reset, samples.edge, if_false]
  split_ifs with ended <;> simp [ended]

/-- At a clock edge `End_Of_Sequence` tells whether the scan was through before. -/
theorem Samples.ended {word : Word} {x : Byte} {scan : Scan Byte}
    (samples : Samples word x before after current) (holds : Holds word current scan) :
    (current.step before after).End_Of_Sequence = .logic .one ↔
      scan = .run word.target.length ∨
        (∃ latest, scan = .lost latest) ∧ current.End_Of_Sequence = .logic .one := by
  have next : (current.step before after).End_Of_Sequence =
      (End_Of_Sequence (branch before after current)).getD current.End_Of_Sequence := by
    simp [Registers.step, Registers.next, samples.touched]
  rw [next]
  cases scan with
  | run matched =>
      rw [samples.branch_run holds]
      split_ifs with whole <;> simp [End_Of_Sequence, whole]
  | lost latest =>
      rw [samples.branch_lost holds]
      split_ifs <;> simp [End_Of_Sequence]

end Steps

section Following

variable {word : Word} {seen : Expected} {machine : Machine}

/-- The registers that the observer expects. -/
structure Follows (word : Word) (seen : Expected) (machine : Machine) : Prop where
  inputs : machine.inputs =
    ⟨.bit seen.SF_clk, .bit seen.SF_Reset, .byte seen.SF_User_Data, word.value⟩
  data : machine.registers.Data = .byte seen.SF_User_Data
  holds : Holds word machine.registers (scan word.target seen.samples)
  ended : machine.registers.End_Of_Sequence = .logic .one ↔ seen.ended word.target = true
  found : machine.registers.SF_Sequence_Found = Finder.found (seen.found word.target)
  idle : seen.SF_Reset = true → seen.samples = []

/-- A scan that has lost its way was not through before. -/
theorem Expected.not_ended_of_lost {target : List Byte} {latest : Byte}
    (lost : scan target seen.samples = .lost latest) : seen.ended target = false := by
  have some_symbol : seen.samples ≠ [] := by
    intro none
    simp [none] at lost
  rw [Expected.ended, if_neg some_symbol, decide_eq_false_iff_not]
  intro completes
  have still := completes.append [seen.samples.getLast some_symbol]
  rw [List.dropLast_append_getLast, Completes, lost] at still
  simp at still

theorem holds_loaded (current : Registers) (data ended : Value) :
    Holds word
      { Data := data
        Mismatch_Occurred := .bit false
        Previous_Data := current.Previous_Data
        Sequence := word.value
        SF_Sequence_Found := Finder.found false
        End_Of_Sequence := ended } (scan word.target []) :=
  ⟨Nat.zero_le _, rfl, word.shifted_zero.symm⟩

theorem Holds.data {scan : Scan Byte} {current : Registers} (holds : Holds word current scan)
    (data : Value) : Holds word { current with Data := data } scan := by
  cases scan <;> exact holds

/-- The registers keep what they hold; the update concerns only the ports. -/
theorem Follows.keep (follows : Follows word seen machine) {next : Expected} {after : Inputs}
    (inputs : after =
      ⟨.bit next.SF_clk, .bit next.SF_Reset, .byte next.SF_User_Data, word.value⟩)
    (kept : machine.registers.step machine.inputs after =
      { machine.registers with Data := (machine.registers.step machine.inputs after).Data })
    (samples : next.samples = seen.samples) (earlier : next.earlier = seen.earlier)
    (idle : next.SF_Reset = true → next.samples = []) :
    Follows word next (machine.update after) := by
  have data : (machine.registers.step machine.inputs after).Data = after.SF_User_Data :=
    Registers.next_data (by rw [follows.data, follows.inputs])
  have same : next.ended word.target = seen.ended word.target := by
    simp [Expected.ended, samples, earlier]
  have sameFound : next.found word.target = seen.found word.target := by
    simp [Expected.found, Expected.ended, samples, earlier]
  refine ⟨inputs, ?_, ?_, ?_, ?_, idle⟩ <;> simp only [Machine.update]
  · rw [data, inputs]
  · rw [kept, samples]
    exact follows.holds.data _
  · rw [kept, same]
    exact follows.ended
  · rw [kept, sameFound]
    exact follows.found

/-- An update during a reset, or one that applies it. -/
theorem Follows.load {after : Inputs} {next : Expected}
    (settled : machine.registers.Data = machine.inputs.SF_User_Data)
    (inputs : after =
      ⟨.bit next.SF_clk, .bit true, .byte next.SF_User_Data, word.value⟩)
    (touched : Touched machine.inputs after) (reset : next.SF_Reset = true)
    (samples : next.samples = [])
    (earlier : machine.registers.End_Of_Sequence = .logic .one ↔ next.earlier = true) :
    Follows word next (machine.update after) := by
  have data : (machine.registers.step machine.inputs after).Data = after.SF_User_Data :=
    Registers.next_data settled
  have loaded := machine.registers.step_reset touched
    (by rw [inputs]; rfl)
  refine ⟨inputs.trans (by rw [reset]), ?_, ?_, ?_, ?_, fun _ => samples⟩ <;>
    simp only [Machine.update]
  · rw [data, inputs]
  · rw [loaded, samples, inputs]
    exact holds_loaded machine.registers _ _
  · rw [loaded, Expected.ended, if_pos samples]
    exact earlier
  · rw [loaded, Expected.found, if_pos samples]

/-- A clock edge out of reset takes one more sample. -/
theorem Follows.sample (follows : Follows word seen machine) (low : seen.SF_clk = false)
    (running : seen.SF_Reset = false) :
    Follows word
      { seen with SF_clk := true, samples := seen.samples ++ [seen.SF_User_Data] }
      (machine.update { machine.inputs with SF_clk := .bit true }) := by
  have inputs := follows.inputs
  rw [low, running] at inputs
  have samples : Samples word seen.SF_User_Data machine.inputs
      { machine.inputs with SF_clk := .bit true } machine.registers := by
    refine ⟨⟨rfl, ?_⟩, ?_, ?_, ?_, follows.data⟩ <;> simp [inputs, Value.bit]
  have data : (machine.registers.step machine.inputs
      { machine.inputs with SF_clk := .bit true }).Data = machine.inputs.SF_User_Data :=
    Registers.next_data (by rw [follows.data, follows.inputs])
  refine ⟨by simp [Machine.update, inputs, running], ?_, ?_, ?_, ?_, ?_⟩ <;>
    simp only [Machine.update]
  · rw [data, inputs]
  · rw [scan_concat]
    exact follows.holds.edge samples
  · rw [samples.ended follows.holds, Expected.ended, if_neg (by simp)]
    simp only [List.dropLast_concat, decide_eq_true_eq]
    constructor
    · rintro (through | ⟨⟨latest, lost⟩, ended⟩)
      · exact through
      · rw [follows.ended, Expected.not_ended_of_lost lost] at ended
        exact absurd ended Bool.false_ne_true
    · exact Or.inl
  · rw [samples.found, Expected.found, if_neg (by simp)]
    simp only [List.dropLast_concat, follows.ended, Bool.decide_eq_true]
    rfl
  · simp [running]

/-- The register machine does what the observer expects, event by event. -/
theorem Follows.loaded (follows : Follows word seen machine) :
    machine.registers.Data = machine.inputs.SF_User_Data := by
  rw [follows.data, follows.inputs]

theorem Follows.clk (follows : Follows word seen machine) (level : Bool) :
    Follows word (seen.after word.target (.SF_clk level))
      (machine.update (Event.apply machine.inputs (.SF_clk level))) := by
  have inputs := follows.inputs
  rcases Bool.eq_false_or_eq_true seen.SF_Reset with high | running
  · have none := follows.idle high
    have next : seen.after word.target (.SF_clk level) = { seen with SF_clk := level } := by
      simp [Expected.after, Observed.after, high]
    rw [next]
    by_cases same : level = seen.SF_clk
    · subst same
      have still : Event.apply machine.inputs (.SF_clk seen.SF_clk) = machine.inputs := by
        simp [Event.apply, inputs]
      refine follows.keep (by rw [still, inputs]) ?_ rfl rfl follows.idle
      exact Registers.step_untouched (by rw [still]; simp [Touched])
    · refine Follows.load follows.loaded ?_ ?_ high none ?_
      · simp [Event.apply, inputs, high]
      · exact .inl (by simpa [Event.apply, inputs] using Ne.symm same)
      · rw [follows.ended, Expected.ended, if_pos none]
  · by_cases edge : level = true ∧ seen.SF_clk = false
    · obtain ⟨rfl, low⟩ := edge
      have next : seen.after word.target (.SF_clk true) =
          { seen with SF_clk := true, samples := seen.samples ++ [seen.SF_User_Data] } := by
        simp [Expected.after, Observed.after, low, running]
      rw [next]
      exact follows.sample low running
    · have next : seen.after word.target (.SF_clk level) = { seen with SF_clk := level } := by
        cases level <;> simp_all [Expected.after, Expected.after, Observed.after]
      rw [next]
      refine follows.keep ?_ ?_ rfl rfl follows.idle
      · simp [Event.apply, inputs]
      · apply Registers.step_idle
        · simp [Event.apply, inputs, running, Value.bit]
        · rintro ⟨high, change⟩
          apply edge
          simp only [Event.apply, inputs, Value.bit_eq_one, ne_eq, Value.bit_inj] at high change
          subst high
          exact ⟨rfl, by simpa using change⟩

theorem Follows.reset (follows : Follows word seen machine) (level : Bool) :
    Follows word (seen.after word.target (.SF_Reset level))
      (machine.update (Event.apply machine.inputs (.SF_Reset level))) := by
  have inputs := follows.inputs
  cases level with
  | true =>
      rcases Bool.eq_false_or_eq_true seen.SF_Reset with high | running
      · have none := follows.idle high
        have still : Event.apply machine.inputs (.SF_Reset true) = machine.inputs := by
          simp [Event.apply, inputs, high]
        refine follows.keep ?_ ?_ none.symm ?_ fun _ => rfl
        · rw [still, inputs, high]
          rfl
        · exact Registers.step_untouched (by rw [still]; simp [Touched])
        · simp [Expected.after, Observed.after, Expected.ended, none]
      · refine Follows.load follows.loaded ?_ ?_ rfl rfl follows.ended
        · simp [Event.apply, inputs, Expected.after, Observed.after]
        · exact .inr (by simp [Event.apply, inputs, running])
  | false =>
      refine follows.keep ?_ ?_ rfl rfl ?_
      · simp [Event.apply, inputs, Expected.after, Observed.after]
      · exact Registers.step_idle (by simp [Event.apply, Value.bit]) (by simp [Edge, Event.apply])
      · simp [Expected.after, Expected.after, Observed.after]

theorem Follows.update (follows : Follows word seen machine) (event : Event) :
    Follows word (seen.after word.target event)
      (machine.update (event.apply machine.inputs)) := by
  cases event with
  | SF_clk level => exact follows.clk level
  | SF_Reset level => exact follows.reset level
  | SF_User_Data byte =>
      refine follows.keep ?_ ?_ rfl rfl follows.idle
      · simp [Event.apply, follows.inputs, Expected.after, Observed.after]
      · exact Registers.step_untouched (by simp [Touched, Event.apply])

/-- The register machine receives an event. -/
def Machine.react (machine : Machine) (event : Event) : Machine :=
  machine.update (event.apply machine.inputs)

theorem Machine.foldl_updates (machine : Machine) (events : List Event) :
    (updates machine.inputs events).foldl Machine.update machine =
      events.foldl Machine.react machine := by
  induction events generalizing machine with
  | nil => rfl
  | cons event events inductionHypothesis => exact inductionHypothesis (machine.react event)

theorem Follows.foldl (follows : Follows word seen machine) (events : List Event) :
    Follows word (events.foldl (Expected.after word.target) seen)
      (events.foldl Machine.react machine) := by
  induction events generalizing seen machine with
  | nil => exact follows
  | cons event events inductionHypothesis => exact inductionHypothesis (follows.update event)

end Following

end SeqDetect.Finder
