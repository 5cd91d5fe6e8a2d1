import SeqDetect.Controller.Source

/-!
# Runs of the controller

Whatever happens on the ports of the controller, simultaneous changes included, its netlist
settles within four delta cycles.  The finder inside goes through the port values that the
latches present to it, one after the other, as it would on its own.
-/

namespace SeqDetect.Controller

open Delta
open Finder (Wire State Inputs Registers Machine undefined)

section Latches

/-- The ports of the controller, and the signals that its processes for the two registers
drive. -/
@[ext] structure Latches where
  controls : Controls
  SFC_User_Data : Value
  SFC_User_Sequence_63_32 : Value
  SFC_User_Sequence_31_0 : Value
  SFC_Trigger : Value
  deriving DecidableEq, Repr

namespace Latches

/-- A register is latched when it changes, by the mode that is set at that moment. -/
def update (latches : Latches) (controls : Controls) : Latches where
  controls := controls
  SFC_User_Data :=
    if latches.controls.SFC_Register_Zero ≠ controls.SFC_Register_Zero ∧
        controls.SFC_Mode ≠ .logic .zero then
      controls.SFC_Register_Zero.slice 31 31 24
    else latches.SFC_User_Data
  SFC_User_Sequence_63_32 :=
    if latches.controls.SFC_Register_Zero ≠ controls.SFC_Register_Zero ∧
        controls.SFC_Mode = .logic .zero then
      controls.SFC_Register_Zero
    else latches.SFC_User_Sequence_63_32
  SFC_User_Sequence_31_0 :=
    if latches.controls.SFC_Register_One ≠ controls.SFC_Register_One ∧
        controls.SFC_Mode = .logic .zero then
      controls.SFC_Register_One
    else latches.SFC_User_Sequence_31_0
  SFC_Trigger :=
    if latches.controls.SFC_Register_One ≠ controls.SFC_Register_One then
      if controls.SFC_Mode = .logic .zero then .logic .one else .logic .zero
    else latches.SFC_Trigger

/-- The latches once the initialization phase is over. -/
def powerUp : Latches where
  controls := ⟨.logic .U, undefined 32, undefined 32, .logic .U⟩
  SFC_User_Data := undefined 8
  SFC_User_Sequence_63_32 := undefined 32
  SFC_User_Sequence_31_0 := undefined 32
  SFC_Trigger := .logic .zero

/-- What the latches present to the finder. -/
def inputs (latches : Latches) : Inputs where
  SF_clk := latches.controls.SFC_clk
  SF_Reset := resets latches.controls.SFC_Mode latches.SFC_Trigger
  SF_User_Data := latches.SFC_User_Data
  SF_User_Sequence := .join [latches.SFC_User_Sequence_63_32, latches.SFC_User_Sequence_31_0]

/-- The port values of the finder during one update: first the clock changes, then the latches
and, by the mode, the reset, and last the reset again, by the trigger. -/
def presents (latches : Latches) (controls : Controls) : List Inputs :=
  [{ latches.inputs with SF_clk := controls.SFC_clk },
    { (latches.update controls).inputs with
      SF_Reset := resets controls.SFC_Mode latches.SFC_Trigger },
    (latches.update controls).inputs]

def run (updates : List Controls) : Latches := updates.foldl update powerUp

/-- The port values of the finder during a schedule of updates. -/
def trace : Latches → List Controls → List Inputs
  | _, [] => []
  | latches, controls :: rest => latches.presents controls ++ (latches.update controls).trace rest

theorem trace_append (latches : Latches) (past more : List Controls) :
    latches.trace (past ++ more) =
      latches.trace past ++ (past.foldl update latches).trace more := by
  induction past generalizing latches with
  | nil => rfl
  | cons controls past inductionHypothesis =>
      rw [List.cons_append, trace, trace, inductionHypothesis, List.append_assoc]
      rfl

theorem trace_concat (latches : Latches) (past : List Controls) (controls : Controls) :
    latches.trace (past ++ [controls]) =
      latches.trace past ++ (past.foldl update latches).presents controls := by
  rw [trace_append, trace, trace, List.append_nil]

end Latches

/-- The finder in a schedule of the controller. -/
def finder (updates : List Controls) : Machine :=
  Machine.run (Latches.powerUp.inputs :: Latches.powerUp.trace updates)

theorem finder_concat (past : List Controls) (controls : Controls) :
    finder (past ++ [controls]) =
      ((Latches.run past).presents controls).foldl Machine.update (finder past) := by
  rw [finder, Latches.trace_concat, ← List.cons_append, Machine.run_append]
  rfl

end Latches

section Netlist

theorem contains : Finder.Contains SequenceFinderController.circuit ports := by
  intro entry membership
  exact Netlist.circuit_of_mem (by decide) (List.mem_append_left _ membership)

def latches (state : State Signal) : Latches where
  controls := ⟨state (.port .SFC_clk), state (.port .SFC_Register_Zero),
    state (.port .SFC_Register_One), state (.port .SFC_Mode)⟩
  SFC_User_Data := state (.port .SFC_User_Data)
  SFC_User_Sequence_63_32 := state (.port .SFC_User_Sequence_63_32)
  SFC_User_Sequence_31_0 := state (.port .SFC_User_Sequence_31_0)
  SFC_Trigger := state (.port .SFC_Trigger)

/-- The port values of the finder, with the reset as it is driven. -/
theorem inputs_eq (state : State Signal) :
    ports.inputs state =
      { (latches state).inputs with SF_Reset := state (.port .SFC_Reset) } := rfl

/-- The settled netlist shows the latches, and a finder that runs on what they present. -/
structure Shows (held : Latches) (machine : Machine) (state : State Signal) : Prop where
  latches : latches state = held
  reset : state (.port .SFC_Reset) = resets held.controls.SFC_Mode held.SFC_Trigger
  registers : Finder.registers state = machine.registers
  inputs : machine.inputs = held.inputs
  agree : Finder.Agree state
  settled : machine.Settled

theorem state_ext {first second : State Signal} (same : latches first = latches second)
    (reset : first (.port .SFC_Reset) = second (.port .SFC_Reset))
    (registers : Finder.registers first = Finder.registers second)
    (agreeFirst : Finder.Agree first) (agreeSecond : Finder.Agree second) : first = second := by
  simp only [latches, Latches.mk.injEq, Controls.mk.injEq] at same
  obtain ⟨⟨clk, zero, one, mode⟩, data, high, low, trigger⟩ := same
  funext wire
  cases wire with
  | port name => cases name <;> assumption
  | Data => exact congrArg Registers.Data registers
  | Mismatch_Occurred => exact congrArg Registers.Mismatch_Occurred registers
  | Previous_Data => exact congrArg Registers.Previous_Data registers
  | Sequence => exact congrArg Registers.Sequence registers
  | SF_Sequence_Found => exact congrArg Registers.SF_Sequence_Found registers
  | End_Of_Sequence driver => rw [agreeFirst.eq, agreeSecond.eq, registers]

/-- The initialization phase clears the trigger and the reset. -/
def started : State Signal
  | .port .SFC_Trigger | .port .SFC_Reset => .logic .zero
  | wire => powerUp wire

theorem initialPhase_powerUp :
    initialPhase SequenceFinderController.circuit powerUp = ⟨powerUp, started⟩ := by
  ext wire
  · rfl
  · rcases wire with name | _ | _ | _ | _ | _ | driver
    · cases name <;> decide
    all_goals first | decide | cases driver <;> decide

theorem wave_started :
    wave SequenceFinderController.circuit ⟨powerUp, started⟩ 2 =
      wave SequenceFinderController.circuit ⟨powerUp, started⟩ 1 := by
  rw [wave_add_two]
  funext wire
  rcases wire with name | _ | _ | _ | _ | _ | driver
  · cases name <;> decide
  all_goals first | decide | cases driver <;> decide

theorem shows_started : Shows .powerUp (finder []) started where
  latches := rfl
  reset := rfl
  registers := by decide
  inputs := rfl
  agree := ⟨.U, by simp, fun _ => rfl⟩
  settled := Machine.settled_run _

end Netlist

section Waves

/-- The values in the `k`-th delta cycle after new values on the ports of the controller. -/
def after (state : State Signal) (controls : Controls) : ℕ → State Signal :=
  wave SequenceFinderController.circuit ⟨state, Netlist.poke state controls.stimulus⟩

variable (state : State Signal) (controls : Controls)

theorem after_ports (k : ℕ) :
    after state controls (k + 1) (.port .SFC_clk) = controls.SFC_clk ∧
      after state controls (k + 1) (.port .SFC_Register_Zero) = controls.SFC_Register_Zero ∧
      after state controls (k + 1) (.port .SFC_Register_One) = controls.SFC_Register_One ∧
      after state controls (k + 1) (.port .SFC_Mode) = controls.SFC_Mode := by
  refine ⟨(wave_undriven rfl k).trans ?_, (wave_undriven rfl k).trans ?_,
    (wave_undriven rfl k).trans ?_, (wave_undriven rfl k).trans ?_⟩ <;>
    simp [Controls.stimulus]

/-- A latch follows its process in the second delta cycle, and only then. -/
theorem after_latch {name : Signal} (register : Signal)
    {body : Snapshot (Wire Signal) Value → Option Value}
    (driven : SequenceFinderController.circuit (.port name) = some ⟨[.port register], body⟩)
    (read : register = .SFC_Register_Zero ∨ register = .SFC_Register_One) (k : ℕ) :
    after state controls (k + 2) (.port name) =
      if state (.port register) ≠ after state controls 1 (.port register) then
        (body ⟨state, after state controls 1⟩).getD (after state controls 1 (.port name))
      else after state controls 1 (.port name) := by
  have second : after state controls (k + 2) (.port name) =
      after state controls 2 (.port name) := by
    rw [Nat.add_comm]
    refine wave_idle driven 1 ?_ k
    intro k late wire listed
    obtain ⟨k, rfl⟩ := Nat.exists_eq_add_of_le' late
    obtain rfl := List.mem_singleton.mp listed
    rcases read with rfl | rfl
    · exact (after_ports state controls k).2.1.trans
        (after_ports state controls (k + 1)).2.1.symm
    · exact (after_ports state controls k).2.2.1.trans
        (after_ports state controls (k + 1)).2.2.1.symm
  rw [second]
  refine (wave_driven driven 0).trans ?_
  simp only [Process.Resumed, List.mem_singleton, exists_eq_left]
  rfl

theorem latches_after_one :
    latches (after state controls 1) = { latches state with controls := controls } := by
  simp [latches, after, Controls.stimulus]

/-- From the second delta cycle on the latches hold what they are going to hold. -/
theorem latches_after (k : ℕ) :
    latches (after state controls (k + 2)) = (latches state).update controls := by
  obtain ⟨clk, zero, one, mode⟩ := after_ports state controls (k + 1)
  obtain ⟨-, zeroNow, oneNow, modeNow⟩ := after_ports state controls 0
  have kept := latches_after_one state controls
  simp only [latches, Latches.mk.injEq] at kept
  obtain ⟨-, data, high, low, trigger⟩ := kept
  ext1
  · exact Controls.ext clk zero one mode
  · refine (after_latch state controls .SFC_Register_Zero rfl (.inl rfl) k).trans ?_
    simp only [zeroNow, modeNow, data, latches, Latches.update]
    split_ifs <;> simp_all
  · refine (after_latch state controls .SFC_Register_Zero rfl (.inl rfl) k).trans ?_
    simp only [zeroNow, modeNow, high, latches, Latches.update]
    split_ifs <;> simp_all
  · refine (after_latch state controls .SFC_Register_One rfl (.inr rfl) k).trans ?_
    simp only [oneNow, modeNow, low, latches, Latches.update]
    split_ifs <;> simp_all
  · refine (after_latch state controls .SFC_Register_One rfl (.inr rfl) k).trans ?_
    simp only [oneNow, modeNow, trigger, latches, Latches.update]
    split_ifs <;> simp_all

/-- The reset follows the mode at once and the trigger one delta cycle later. -/
theorem reset_after (settled : state (.port .SFC_Reset) =
      resets (state (.port .SFC_Mode)) (state (.port .SFC_Trigger))) (k : ℕ) :
    after state controls (k + 1) (.port .SFC_Reset) =
      resets (after state controls k (.port .SFC_Mode))
        (after state controls k (.port .SFC_Trigger)) := by
  refine wave_function
    (fun state : State Signal => resets (state (.port .SFC_Mode)) (state (.port .SFC_Trigger)))
    rfl ?_ ?_ k
  · intro before after same
    simp only [same (.port .SFC_Mode) (by simp), same (.port .SFC_Trigger) (by simp)]
  · simpa [Controls.stimulus] using settled

end Waves

section Steps

variable {held : Latches} {machine : Machine} {state : State Signal}

/-- What the finder sees in the delta cycles of an update. -/
theorem Shows.presents (shows : Shows held machine state) (controls : Controls) :
    ports.inputs (after state controls 0) = held.inputs ∧
      ports.inputs (after state controls 1) =
        { held.inputs with SF_clk := controls.SFC_clk } ∧
      ports.inputs (after state controls 2) =
        { (held.update controls).inputs with
          SF_Reset := resets controls.SFC_Mode held.SFC_Trigger } ∧
      ∀ k, ports.inputs (after state controls (k + 3)) = (held.update controls).inputs := by
  obtain ⟨latches, reset, -, -, -, -⟩ := shows
  have mode : state (.port .SFC_Mode) = held.controls.SFC_Mode := by rw [← latches]; rfl
  have trigger : state (.port .SFC_Trigger) = held.SFC_Trigger := by rw [← latches]; rfl
  have follows := reset_after state controls (by rw [reset, mode, trigger])
  refine ⟨?_, ?_, ?_, fun k => ?_⟩
  · rw [inputs_eq]
    change { (Controller.latches state).inputs with SF_Reset := state (.port .SFC_Reset) } = _
    rw [latches, reset]
    rfl
  · have before : after state controls 0 = state := rfl
    rw [inputs_eq, follows 0, latches_after_one, latches, before, mode, trigger]
    rfl
  · have kept : after state controls 1 (.port .SFC_Trigger) = held.SFC_Trigger := by
      rw [← trigger]
      simp [after, Controls.stimulus]
    rw [inputs_eq, follows 1, latches_after state controls 0, latches, kept,
      (after_ports state controls 0).2.2.2]
  · have late := latches_after state controls k
    rw [latches] at late
    have mode : after state controls (k + 2) (.port .SFC_Mode) =
        (held.update controls).controls.SFC_Mode := by rw [← late]; rfl
    have trigger : after state controls (k + 2) (.port .SFC_Trigger) =
        (held.update controls).SFC_Trigger := by rw [← late]; rfl
    rw [inputs_eq, follows (k + 2), latches_after state controls (k + 1), latches, mode, trigger]
    rfl

/-- An update settles within four delta cycles, in the next state of the latches and with the
finder behind everything that they presented to it. -/
theorem Shows.update (shows : Shows held machine state) (controls : Controls) :
    ∃ next, SequenceFinderController.Settles 4
        ⟨state, Netlist.poke state controls.stimulus⟩ next ∧
      Shows (held.update controls) ((held.presents controls).foldl Machine.update machine)
        next := by
  let shown : Snapshot (Wire Signal) Value := ⟨state, Netlist.poke state controls.stimulus⟩
  obtain ⟨atStart, first, second, late⟩ := shows.presents controls
  have startRegisters : Finder.registers (after state controls 0) = machine.registers :=
    shows.registers
  have firstRegisters : Finder.registers (after state controls 1) = machine.registers := by
    rw [← shows.registers]
    simp [Finder.registers, after, Controls.stimulus]
  have agreeFirst : Finder.Agree shown.now := by
    obtain ⟨level, defined, same⟩ := shows.agree
    exact ⟨level, defined, fun driver => by simp [shown, Controls.stimulus, same]⟩
  have agree : ∀ k, Finder.Agree (after state controls k) :=
    contains.agree_wave shows.agree agreeFirst
  have registers : ∀ k, Finder.registers (after state controls (k + 2)) =
      Registers.next (ports.inputs (after state controls k))
        (ports.inputs (after state controls (k + 1)))
        (Finder.registers (after state controls k))
        (Finder.registers (after state controls (k + 1))) :=
    contains.registers_wave shows.agree agreeFirst
  -- the clock edge
  let clocked := machine.update { held.inputs with SF_clk := controls.SFC_clk }
  have settledClocked : clocked.Settled := shows.settled.update _
  have secondRegisters : Finder.registers (after state controls 2) = clocked.registers := by
    rw [registers 0, atStart, first, startRegisters, firstRegisters]
    exact congrArg (fun inputs => machine.registers.step inputs _) shows.inputs.symm
  -- the latches
  let latched := clocked.update { (held.update controls).inputs with
    SF_Reset := resets controls.SFC_Mode held.SFC_Trigger }
  have thirdRegisters : Finder.registers (after state controls 3) = latched.registers := by
    rw [registers 1, first, second, firstRegisters, secondRegisters, Registers.next_eq_step]
    · rfl
    · intro mismatch untouched reset
      have before : held.inputs.SF_Reset = .logic .one := by
        by_contra low
        exact untouched (.inr fun same => low (same.trans reset))
      have low := shows.settled.mismatch (by rw [shows.inputs, before])
      exact absurd (low.trans (settledClocked.mismatch before).symm) mismatch
  -- the trigger
  have fourthRegisters : Finder.registers (after state controls 4) =
      (latched.update (held.update controls).inputs).registers := by
    rw [registers 2, second, late 0, secondRegisters, thirdRegisters, Registers.next_eq_step]
    · rfl
    · intro mismatch untouched reset
      have before : resets controls.SFC_Mode held.SFC_Trigger = .logic .one := by
        by_contra low
        exact untouched (.inr fun same => low (same.trans reset))
      exact Registers.next_loads mismatch before
  have fifthRegisters : Finder.registers (after state controls 5) =
      Finder.registers (after state controls 4) := by
    rw [registers 3, late 0, late 1, registers 2, second, late 0]
    exact Registers.next_still
  have fixed : after state controls 5 = after state controls 4 := by
    apply state_ext _ _ fifthRegisters (agree 5) (agree 4)
    · rw [latches_after state controls 3, latches_after state controls 2]
    · exact congrArg Inputs.SF_Reset ((late 2).trans (late 1).symm)
  refine ⟨_, Netlist.settles_of_fixed fixed, ?_, ?_, fourthRegisters, rfl, agree 4, ?_⟩
  · rw [← shows.latches]
    exact latches_after state controls 2
  · exact congrArg Inputs.SF_Reset (late 1)
  · exact (settledClocked.update _).update _

end Steps

/-- The controller refines its latches and the register machine: it settles after every schedule
of updates, and the finder inside then holds what a finder on its own holds after the port values
that the latches have presented. -/
theorem reaches_finder (updates : List Controls) :
    ∃ final, SequenceFinderController.Reaches powerUp (updates.map Controls.stimulus) final ∧
      Shows (.run updates) (finder updates) final := by
  refine Netlist.reaches_of_steps 4
    (fun past state => Shows (.run past) (finder past) state) ?_ shows_started ?_ updates
  · rw [initialPhase_powerUp]
    intro limit enough
    exact Netlist.settles_of_fixed wave_started limit (by omega)
  · intro past controls state shows
    have next : Latches.run (past ++ [controls]) = (Latches.run past).update controls :=
      List.foldl_append
    rw [next, finder_concat]
    exact shows.update controls

/-- In every run, an update settles within four delta cycles, in which the latches follow the
ports and present three sets of port values to the finder inside. -/
theorem update_settles_in_four (past : List Controls) (controls : Controls) :
    ∃ before after,
      SequenceFinderController.Reaches powerUp (past.map Controls.stimulus) before ∧
      SequenceFinderController.Settles 4 ⟨before, Netlist.poke before controls.stimulus⟩ after ∧
      Shows (.run past) (finder past) before ∧
      Shows ((Latches.run past).update controls)
        (((Latches.run past).presents controls).foldl Machine.update (finder past)) after := by
  obtain ⟨before, reaches, shows⟩ := reaches_finder past
  obtain ⟨after, settles, shown⟩ := shows.update controls
  exact ⟨before, after, reaches, settles, shows, shown⟩

end SeqDetect.Controller
