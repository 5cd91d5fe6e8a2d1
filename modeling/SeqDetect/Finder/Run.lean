import SeqDetect.Finder.Registers

/-!
# Runs of the finder

The entity on its own settles after every update of its ports, whatever values they take, and
its registers then hold what the register machine holds.
-/

namespace SeqDetect.Finder

open Delta

section Machine

/-- What an update of the ports does to the settled registers. -/
def Registers.step (before after : Inputs) (settled : Registers) : Registers :=
  Registers.next before after settled settled

/-- Port values and registers between two updates. -/
@[ext] structure Machine where
  inputs : Inputs
  registers : Registers

def Machine.update (machine : Machine) (inputs : Inputs) : Machine :=
  ⟨inputs, machine.registers.step machine.inputs inputs⟩

def Machine.powerUp : Machine where
  inputs := ⟨.logic .U, .logic .U, undefined 8, undefined 64⟩
  registers :=
    { Data := undefined 8
      Mismatch_Occurred := .logic .U
      Previous_Data := undefined 8
      Sequence := undefined 64
      SF_Sequence_Found := undefined 32
      End_Of_Sequence := .logic .U }

/-- The register machine after a schedule of updates. -/
def Machine.run (updates : List Inputs) : Machine := updates.foldl Machine.update .powerUp

theorem Machine.run_append (past more : List Inputs) :
    run (past ++ more) = more.foldl Machine.update (run past) := List.foldl_append

theorem Machine.run_concat (past : List Inputs) (inputs : Inputs) :
    run (past ++ [inputs]) = (run past).update inputs := run_append past [inputs]

end Machine

section Settling

theorem Registers.next_data {before after : Inputs} {last now : Registers}
    (data : now.Data = before.SF_User_Data) :
    (Registers.next before after last now).Data = after.SF_User_Data := by
  simp only [next, data]
  split_ifs with event
  · rfl
  · exact not_not.mp event

/-- Without a clock edge or an event on the reset, an execution can only reload the sequence. -/
theorem branch_untouched {before after : Inputs} {current : Registers}
    (untouched : ¬ Touched before after) :
    branch before after current =
      if after.SF_Reset = .logic .one then .reset else .idle := by
  have noEdge : ¬ Edge before after := fun edge => untouched (.inl edge.2)
  rw [branch, if_neg noEdge]

/-- A change of `Mismatch_Occurred` under a reset comes with the load of the sequence. -/
theorem Registers.next_loads {before after : Inputs} {last now : Registers}
    (mismatch : now.Mismatch_Occurred ≠ (next before after last now).Mismatch_Occurred)
    (reset : after.SF_Reset = .logic .one) :
    (next before after last now).Sequence = after.SF_User_Sequence := by
  have touched : Touched before after := by
    by_contra untouched
    simp [next, untouched] at mismatch
  have loaded : branch before after now = .reset := by simp [branch, reset]
  simp [next, touched, loaded, Finder.Sequence]

/-- The change of `Mismatch_Occurred` in the cycle before, which resumes the third process once
more, is without effect when the reset has loaded the sequence in that cycle. -/
theorem Registers.next_eq_step {before after : Inputs} {last now : Registers}
    (loaded : last.Mismatch_Occurred ≠ now.Mismatch_Occurred → ¬ Touched before after →
      after.SF_Reset = .logic .one → now.Sequence = after.SF_User_Sequence) :
    next before after last now = now.step before after := by
  have sequence : (next before after last now).Sequence = (now.step before after).Sequence := by
    by_cases touched : Touched before after
    · simp [step, next, touched]
    · simp only [step, next, touched, false_or, ne_eq, not_true_eq_false, if_false,
        branch_untouched touched]
      split_ifs with same reset
      · rfl
      · exact (loaded same touched reset).symm
      · rfl
  ext1
  · rfl
  · rfl
  · rfl
  · exact sequence
  · rfl
  · rfl

theorem Registers.step_untouched {before after : Inputs} {current : Registers}
    (untouched : ¬ Touched before after) :
    current.step before after = { current with Data := (current.step before after).Data } := by
  ext1 <;> simp [step, next, untouched]

@[simp] theorem Registers.step_self (inputs : Inputs) (current : Registers) :
    current.step inputs inputs = current := by
  rw [step_untouched (by simp [Touched])]
  simp [step, next]

/-- Once the ports are still, so are the registers. -/
theorem Registers.next_still {before after : Inputs} {last now : Registers} :
    next after after now (next before after last now) = next before after last now := by
  rw [next_eq_step fun mismatch _ reset => next_loads mismatch reset, step_self]

/-- What holds in a machine between two updates. -/
structure Machine.Settled (machine : Machine) : Prop where
  data : machine.registers.Data = machine.inputs.SF_User_Data
  mismatch : machine.inputs.SF_Reset = .logic .one →
    machine.registers.Mismatch_Occurred = .logic .zero

theorem Machine.Settled.update {machine : Machine} (settled : machine.Settled)
    (inputs : Inputs) : (machine.update inputs).Settled where
  data := Registers.next_data settled.data
  mismatch := by
    intro reset
    change inputs.SF_Reset = .logic .one at reset
    by_cases touched : Touched machine.inputs inputs
    · have loaded : branch machine.inputs inputs machine.registers = .reset := by
        simp [branch, reset]
      simp [Machine.update, Registers.step, Registers.next, touched, loaded,
        Finder.Mismatch_Occurred]
    · have before : machine.inputs.SF_Reset = .logic .one := by
        by_contra low
        exact touched (.inr fun same => low (same.trans reset))
      rw [Machine.update, Registers.step_untouched touched]
      exact settled.mismatch before

theorem Machine.settled_powerUp : Machine.powerUp.Settled := ⟨rfl, by simp [Machine.powerUp]⟩

theorem Machine.settled_run (updates : List Inputs) : (run updates).Settled := by
  induction updates using List.reverseRecOn with
  | nil => exact settled_powerUp
  | append_singleton past inputs inductionHypothesis =>
      rw [run_concat]
      exact inductionHypothesis.update inputs

end Settling

section Netlist

theorem contains : Contains SequenceFinder.circuit ports := by
  intro entry membership
  exact Netlist.circuit_of_mem (by decide) membership

theorem undriven (name : Port) : SequenceFinder.circuit (.port name) = none := by
  cases name <;> decide

theorem inputs_eq {first second : State Port}
    (same : ∀ name, first (.port name) = second (.port name)) :
    ports.inputs first = ports.inputs second := by
  simp [Ports.inputs, ports, gather, same]

theorem inputs_poke (state : State Port) (inputs : Inputs) :
    ports.inputs (Netlist.poke state inputs.stimulus) = inputs := by
  ext <;> simp [Ports.inputs, ports, gather, Inputs.stimulus]

theorem poke_internal (state : State Port) (inputs : Inputs) {wire : Wire Port}
    (internal : ∀ name, wire ≠ .port name) :
    Netlist.poke state inputs.stimulus wire = state wire := by
  simp [Inputs.stimulus, internal]

theorem registers_poke (state : State Port) (inputs : Inputs) :
    registers (Netlist.poke state inputs.stimulus) = registers state := by
  simp [registers, Inputs.stimulus]

theorem agree_poke {state : State Port} (agree : Agree state) (inputs : Inputs) :
    Agree (Netlist.poke state inputs.stimulus) := by
  obtain ⟨level, defined, same⟩ := agree
  exact ⟨level, defined, fun driver => (poke_internal _ _ (by simp)).trans (same driver)⟩

theorem state_ext {first second : State Port} (inputs : ports.inputs first = ports.inputs second)
    (same : registers first = registers second) (agreeFirst : Agree first)
    (agreeSecond : Agree second) : first = second := by
  simp only [Ports.inputs, ports, gather, List.map_cons, List.map_nil, Inputs.mk.injEq] at inputs
  obtain ⟨clk, reset, data, sequence⟩ := inputs
  funext wire
  cases wire with
  | port name => cases name <;> assumption
  | Data => exact congrArg Registers.Data same
  | Mismatch_Occurred => exact congrArg Registers.Mismatch_Occurred same
  | Previous_Data => exact congrArg Registers.Previous_Data same
  | Sequence => exact congrArg Registers.Sequence same
  | SF_Sequence_Found => exact congrArg Registers.SF_Sequence_Found same
  | End_Of_Sequence driver => rw [agreeFirst.eq, agreeSecond.eq, same]

/-- The settled netlist shows the register machine. -/
structure Shows (machine : Machine) (state : State Port) : Prop where
  inputs : ports.inputs state = machine.inputs
  registers : registers state = machine.registers
  agree : Agree state
  settled : machine.Settled

theorem shows_powerUp : Shows .powerUp powerUp where
  inputs := rfl
  registers := rfl
  agree := ⟨.U, by simp, fun _ => rfl⟩
  settled := Machine.settled_powerUp

/-- The initialization phase changes nothing. -/
theorem initialPhase_powerUp :
    initialPhase SequenceFinder.circuit powerUp = ⟨powerUp, powerUp⟩ := by
  ext wire
  · rfl
  · rcases wire with name | _ | _ | _ | _ | _ | driver
    · cases name <;> rfl
    all_goals first | rfl | cases driver <;> rfl

/-- An update settles within two delta cycles, in the next state of the register machine. -/
theorem Shows.update {machine : Machine} {state : State Port} (shows : Shows machine state)
    (inputs : Inputs) :
    ∃ next, SequenceFinder.Settles 2 ⟨state, Netlist.poke state inputs.stimulus⟩ next ∧
      Shows (machine.update inputs) next := by
  let shown : Snapshot (Wire Port) Value := ⟨state, Netlist.poke state inputs.stimulus⟩
  have agree : ∀ k, Agree (wave SequenceFinder.circuit shown k) :=
    contains.agree_wave shows.agree (agree_poke shows.agree inputs)
  have later : ∀ k, ports.inputs (wave SequenceFinder.circuit shown (k + 1)) = inputs := by
    intro k
    rw [← inputs_poke state inputs]
    exact inputs_eq fun name => wave_undriven (undriven name) k
  have second : Finder.registers (wave SequenceFinder.circuit shown 2) =
      machine.registers.step machine.inputs inputs := by
    rw [contains.registers_wave shows.agree (agree_poke shows.agree inputs) 0, later, wave_zero,
      shows.inputs, wave_one, registers_poke, shows.registers]
    rfl
  have third : Finder.registers (wave SequenceFinder.circuit shown 3) =
      Finder.registers (wave SequenceFinder.circuit shown 2) := by
    rw [contains.registers_wave shows.agree (agree_poke shows.agree inputs) 1, later, later,
      second, wave_one, registers_poke, shows.registers]
    exact Registers.next_still
  have fixed : wave SequenceFinder.circuit shown 3 = wave SequenceFinder.circuit shown 2 :=
    state_ext ((later 2).trans (later 1).symm) third (agree 3) (agree 2)
  exact ⟨_, Netlist.settles_of_fixed fixed, later 1, second, agree 2,
    shows.settled.update inputs⟩

/-- The finder refines the register machine: it settles after every schedule of updates, to the
values that the machine computes. -/
theorem reaches_machine (updates : List Inputs) :
    ∃ final, SequenceFinder.Reaches powerUp (updates.map Inputs.stimulus) final ∧
      Shows (.run updates) final := by
  have still : wave SequenceFinder.circuit ⟨powerUp, powerUp⟩ 1 =
      wave SequenceFinder.circuit ⟨powerUp, powerUp⟩ 0 := rfl
  refine Netlist.reaches_of_steps 2 (fun past state => Shows (.run past) state)
    ?_ shows_powerUp ?_ updates
  · rw [initialPhase_powerUp]
    exact fun limit enough => Netlist.settles_of_fixed still limit (Nat.zero_le _)
  · intro past inputs state shows
    rw [Machine.run_concat]
    exact shows.update inputs

/-- In every run, an update settles within two delta cycles, in the next state of the register
machine. -/
theorem update_settles_in_two (updates : List Inputs) (inputs : Inputs) :
    ∃ before after, SequenceFinder.Reaches powerUp (updates.map Inputs.stimulus) before ∧
      SequenceFinder.Settles 2 ⟨before, Netlist.poke before inputs.stimulus⟩ after ∧
      Shows (.run updates) before ∧ Shows ((Machine.run updates).update inputs) after := by
  obtain ⟨before, reaches, shows⟩ := reaches_machine updates
  obtain ⟨after, settles, shown⟩ := shows.update inputs
  exact ⟨before, after, reaches, settles, shows, shown⟩

/-- In every delta cycle of every run the three drivers of `End_Of_Sequence` drive the same
level, and that level is what the resolution function yields. -/
theorem drivers_agree {shown : Snapshot (Wire Port) Value}
    (visits : SequenceFinder.Visits Inputs.stimulus powerUp shown) :
    ∃ level ∈ [StdLogic.U, .zero, .one],
      (∀ driver, shown.now (.End_Of_Sequence driver) = .logic level) ∧
        ended shown.now = .logic level := by
  have agree : Agree shown.now := by
    induction visits with
    | initial =>
        rw [initialPhase_powerUp]
        exact shows_powerUp.agree
    | delta _ inductionHypothesis => exact contains.agree_drive inductionHypothesis
    | stimulus inputs _ _ inductionHypothesis => exact agree_poke inductionHypothesis inputs
  obtain ⟨level, defined, same⟩ := agree
  exact ⟨level, defined, same,
    (Agree.ended ⟨level, defined, same⟩).trans (same .Mismatch_Occurred_Register)⟩

/-- After a reset, two clock edges find the sequence `a` and its end. -/
theorem drivers_agree_ended :
    ∃ shown : Snapshot (Wire Port) Value,
      SequenceFinder.Visits Inputs.stimulus powerUp shown ∧
        shown.now (.port .SF_clk) = .bit true ∧ shown.now (.port .SF_Reset) = .bit false ∧
        shown.now (.End_Of_Sequence .Sequence_Register) = .logic .one ∧
        ∃ level ∈ [StdLogic.U, .zero, .one],
          (∀ driver, shown.now (.End_Of_Sequence driver) = .logic level) ∧
            ended shown.now = .logic level := by
  let values (clk reset : Bool) : Inputs :=
    ⟨.bit clk, .bit reset, .byte 0x61, .word [0x61, 0, 0, 0, 0, 0, 0, 0]⟩
  obtain ⟨final, ⟨limit, runs⟩, shows⟩ := reaches_machine
    [values false true, values false false, values true false, values false false,
      values true false]
  obtain ⟨shown, visits, -, rfl⟩ := Netlist.Visits.of_run (runs limit le_rfl)
  have inputs : ports.inputs shown.now = values true false := shows.inputs
  have ends : (registers shown.now).End_Of_Sequence = .logic .one := by
    rw [shows.registers]
    decide
  obtain ⟨level, defined, same, resolved⟩ := drivers_agree visits
  refine ⟨shown, visits, congrArg Inputs.SF_clk inputs, congrArg Inputs.SF_Reset inputs, ?_,
    level, defined, same, resolved⟩
  rw [same, ← ends]
  exact (same .Mismatch_Occurred_Register).symm

end Netlist

end SeqDetect.Finder
