import SeqDetect.Controller.Run
import SeqDetect.Finder.Observed

/-!
# Sessions with the controller

A session follows the instructions of the controller: in mode `0` the two registers are written
with the sequence, in mode `1` the bytes to be searched are written to the first of them.  A
register is latched only when it changes, which decides what a session searches for.
-/

namespace SeqDetect.Controller

open Delta Pattern
open Finder (Inputs Machine Registers Word Expected Follows Touched expect found)

section Events

/-- A value of `std_logic_vector(31 downto 0)` with four defined bytes. -/
structure Register where
  bytes : List Byte
  size : bytes.length = 4

namespace Register

@[ext] theorem ext {first second : Register} (same : first.bytes = second.bytes) :
    first = second := by
  cases first
  cases second
  subst same
  rfl

instance : DecidableEq Register := fun first second =>
  decidable_of_iff (first.bytes = second.bytes)
    ⟨Register.ext, fun same => congrArg Register.bytes same⟩

def value (register : Register) : Value := .word register.bytes

/-- `SFC_Register_Zero(31 downto 24)`. -/
def top (register : Register) : Byte := register.bytes[0]?.getD 0

theorem slice_top (register : Register) : register.value.slice 31 31 24 = .byte register.top := by
  rw [value, Value.slice_word 0 1 rfl rfl, List.drop_zero, List.take_one, top]
  obtain ⟨b, rest, cons⟩ := List.exists_cons_of_length_eq_add_one register.size
  rw [cons]
  rfl

theorem value_inj {first second : Register} :
    first.value = second.value ↔ first = second := by
  rw [value, value, Value.word_inj, Register.ext_iff]

end Register

/-- A defined value on one port of the controller. -/
inductive Event where
  | SFC_clk (level : Bool)
  | SFC_Register_Zero (register : Register)
  | SFC_Register_One (register : Register)
  | SFC_Mode (level : Bool)
  deriving DecidableEq

def Event.apply (controls : Controls) : Event → Controls
  | .SFC_clk level => { controls with SFC_clk := .bit level }
  | .SFC_Register_Zero register => { controls with SFC_Register_Zero := register.value }
  | .SFC_Register_One register => { controls with SFC_Register_One := register.value }
  | .SFC_Mode level => { controls with SFC_Mode := .bit level }

/-- The successive values on all ports. -/
def updates : Controls → List Event → List Controls
  | _, [] => []
  | controls, event :: events =>
      event.apply controls :: updates (event.apply controls) events

end Events

section Sessions

/-- The latches and the finder inside, which sees what they present. -/
structure Session where
  latches : Latches
  finder : Machine
  inputs_eq : finder.inputs = latches.inputs

namespace Session

def react (session : Session) (event : Event) : Session where
  latches := session.latches.update (event.apply session.latches.controls)
  finder := (session.latches.presents (event.apply session.latches.controls)).foldl
    Machine.update session.finder
  inputs_eq := rfl

/-- A schedule of the controller leads to a session. -/
def after (past : List Controls) : Session where
  latches := .run past
  finder := Controller.finder past
  inputs_eq := by
    obtain ⟨final, -, shows⟩ := reaches_finder past
    exact shows.inputs

variable (session : Session)

theorem react_latches (event : Event) :
    (session.react event).latches =
      session.latches.update (event.apply session.latches.controls) := rfl

theorem react_finder (event : Event) :
    (session.react event).finder =
      (session.latches.presents (event.apply session.latches.controls)).foldl Machine.update
        session.finder := rfl

@[simp] theorem update_inputs : session.finder.update session.latches.inputs = session.finder := by
  rw [← session.inputs_eq, Machine.update, Registers.step_self]

/-- An update that changes the ports of the finder at most once. -/
theorem react_of_presents {event : Event} {first inputs : Inputs}
    (presents : session.latches.presents (event.apply session.latches.controls) =
      [first, inputs, inputs])
    (still : first = session.latches.inputs ∨ first = inputs) :
    (session.react event).finder = session.finder.update inputs := by
  have idle : ∀ machine : Machine, (machine.update inputs).update inputs =
      machine.update inputs := fun machine => by
    rw [Machine.update, Machine.update, Registers.step_self]
  rw [react_finder, presents, List.foldl_cons, List.foldl_cons, List.foldl_cons, List.foldl_nil,
    idle]
  rcases still with rfl | rfl
  · rw [update_inputs]
  · rw [idle]

/-- A clock event reaches the finder as it is. -/
theorem react_clk (level : Bool) :
    (session.react (.SFC_clk level)).finder =
      session.finder.update { session.latches.inputs with SF_clk := .bit level } := by
  refine session.react_of_presents ?_ (.inr rfl)
  simp [Latches.presents, Latches.update, Latches.inputs, Event.apply]

/-- Mode `1` releases the reset. -/
theorem react_mode :
    (session.react (.SFC_Mode true)).finder =
      session.finder.update { session.latches.inputs with SF_Reset := .logic .zero } := by
  refine session.react_of_presents ?_ (.inl rfl)
  simp [Latches.presents, Latches.update, Latches.inputs, Event.apply, resets, Value.bit]

/-- In mode `1` the first register supplies the data, if it changes. -/
theorem react_zero (mode : session.latches.controls.SFC_Mode = .logic .one)
    (register : Register) :
    (session.react (.SFC_Register_Zero register)).finder =
      session.finder.update { session.latches.inputs with
        SF_User_Data :=
          if session.latches.controls.SFC_Register_Zero = register.value then
            session.latches.SFC_User_Data
          else .byte register.top } := by
  refine session.react_of_presents ?_ (.inl rfl)
  by_cases same : session.latches.controls.SFC_Register_Zero = register.value <;>
    simp [Latches.presents, Latches.update, Latches.inputs, Event.apply, resets, mode, same,
      Register.slice_top]

/-- In mode `1` the second register does not concern the finder. -/
theorem react_one (mode : session.latches.controls.SFC_Mode = .logic .one)
    (register : Register) :
    (session.react (.SFC_Register_One register)).finder = session.finder := by
  have presents : session.latches.presents (Event.apply session.latches.controls
      (.SFC_Register_One register)) =
      [session.latches.inputs, session.latches.inputs, session.latches.inputs] := by
    simp [Latches.presents, Latches.update, Latches.inputs, Event.apply, resets, mode]
  rw [session.react_of_presents presents (.inl rfl), update_inputs]

theorem settled_foldl {session : Session} (settled : session.finder.Settled)
    (events : List Event) : (events.foldl react session).finder.Settled := by
  induction events generalizing session with
  | nil => exact settled
  | cons event events inductionHypothesis =>
      apply inductionHypothesis
      exact ((settled.update _).update _).update _

/-- The schedule of a session. -/
theorem foldl_react (past : List Controls) (events : List Event) :
    events.foldl react (after past) =
      after (past ++ updates (Latches.run past).controls events) := by
  induction events generalizing past with
  | nil => simp [updates]
  | cons event events inductionHypothesis =>
      have next : (after past).react event =
          after (past ++ [event.apply (Latches.run past).controls]) := by
        have latches : Latches.run (past ++ [event.apply (Latches.run past).controls]) =
            (Latches.run past).update (event.apply (Latches.run past).controls) :=
          List.foldl_append
        simp only [react, after, finder_concat, latches]
      have controls : (Latches.run (past ++ [event.apply (Latches.run past).controls])).controls =
          event.apply (Latches.run past).controls := by
        rw [Latches.run, List.foldl_append]
        rfl
      rw [List.foldl_cons, next, inductionHypothesis, controls, updates, List.append_assoc,
        List.singleton_append]

end Session

end Sessions

section Loading

/-- The instructions of the controller, with one clock cycle in mode `0`. -/
def loading (zero one : Register) : List Event :=
  [.SFC_Mode false, .SFC_Register_Zero zero, .SFC_Register_One one, .SFC_clk false, .SFC_clk true]

/-- Loading takes effect when each register changes, or need not change: the second one also
triggers the reset. -/
def Loads (zero one : Register) (before : Latches) : Prop :=
  (before.controls.SFC_Register_Zero = zero.value →
      before.SFC_User_Sequence_63_32 = zero.value) ∧
    (before.controls.SFC_Register_One = one.value →
      before.SFC_User_Sequence_31_0 = one.value ∧ before.SFC_Trigger = .logic .one)

instance (zero one : Register) (before : Latches) : Decidable (Loads zero one before) :=
  inferInstanceAs (Decidable (_ ∧ _))

/-- The sequence as it is loaded. -/
def sequence (zero one : Register) : Word where
  bytes := zero.bytes ++ one.bytes
  size := by rw [List.length_append, zero.size, one.size]

theorem join_registers (zero one : Register) :
    .join [zero.value, one.value] = (sequence zero one).value := by
  have joined := Value.join_word [zero.bytes, one.bytes]
  rw [List.map_cons, List.map_cons, List.map_nil] at joined
  rw [Register.value, Register.value, joined, Word.value, sequence]
  simp

variable (zero one : Register) (session : Session)

/-- The latches behind the instructions. -/
theorem loading_latches :
    ((loading zero one).foldl Session.react session).latches =
      { controls := ⟨.bit true, zero.value, one.value, .bit false⟩
        SFC_User_Data := session.latches.SFC_User_Data
        SFC_User_Sequence_63_32 :=
          if session.latches.controls.SFC_Register_Zero = zero.value then
            session.latches.SFC_User_Sequence_63_32
          else zero.value
        SFC_User_Sequence_31_0 :=
          if session.latches.controls.SFC_Register_One = one.value then
            session.latches.SFC_User_Sequence_31_0
          else one.value
        SFC_Trigger :=
          if session.latches.controls.SFC_Register_One = one.value then
            session.latches.SFC_Trigger
          else .logic .one } := by
  simp [loading, Session.react_latches, Latches.update, Event.apply, Value.bit]

/-- The sequence is presented and the reset applied exactly when loading takes effect. -/
theorem loads_iff_presented :
    ((loading zero one).foldl Session.react session).latches.SFC_User_Sequence_63_32 =
          zero.value ∧
        ((loading zero one).foldl Session.react session).latches.SFC_User_Sequence_31_0 =
          one.value ∧
        ((loading zero one).foldl Session.react session).latches.inputs.SF_Reset = .logic .one ↔
      Loads zero one session.latches := by
  rw [loading_latches, Loads]
  by_cases same : session.latches.controls.SFC_Register_Zero = zero.value <;>
    by_cases sameOne : session.latches.controls.SFC_Register_One = one.value <;>
    simp [Latches.inputs, resets, same, sameOne, Value.bit]

variable {zero one session}

/-- Once loading takes effect, the finder holds the sequence. -/
theorem Loads.finder (loads : Loads zero one session.latches) :
    ((loading zero one).foldl Session.react session).finder.inputs =
        { SF_clk := .bit true
          SF_Reset := .bit true
          SF_User_Data := session.latches.SFC_User_Data
          SF_User_Sequence := (sequence zero one).value } ∧
      ∃ data previous ended,
        ((loading zero one).foldl Session.react session).finder.registers =
          { Data := data
            Mismatch_Occurred := .bit false
            Previous_Data := previous
            Sequence := (sequence zero one).value
            SF_Sequence_Found := found false
            End_Of_Sequence := ended } := by
  obtain ⟨high, low, reset⟩ := (loads_iff_presented zero one session).mpr loads
  have inputs := ((loading zero one).foldl Session.react session).inputs_eq
  have presented : ((loading zero one).foldl Session.react session).latches.inputs =
      { SF_clk := .bit true
        SF_Reset := .bit true
        SF_User_Data := session.latches.SFC_User_Data
        SF_User_Sequence := (sequence zero one).value } := by
    ext1
    · rw [loading_latches]
      rfl
    · exact reset
    · rw [loading_latches]
      rfl
    · rw [← join_registers, ← high, ← low]
      rfl
  refine ⟨inputs.trans presented, ?_⟩
  -- the rising edge is an event on the clock while the reset is high
  let waiting := [Event.SFC_Mode false, .SFC_Register_Zero zero, .SFC_Register_One one,
    .SFC_clk false].foldl Session.react session
  have clocked : ((loading zero one).foldl Session.react session).finder =
      waiting.finder.update { waiting.latches.inputs with SF_clk := .bit true } :=
    waiting.react_clk true
  have last : { waiting.latches.inputs with SF_clk := .bit true } =
      { SF_clk := .bit true
        SF_Reset := .bit true
        SF_User_Data := session.latches.SFC_User_Data
        SF_User_Sequence := (sequence zero one).value } :=
    (congrArg Machine.inputs clocked).symm.trans (inputs.trans presented)
  have low : waiting.finder.inputs.SF_clk = .bit false := by
    rw [waiting.inputs_eq]
    rfl
  rw [clocked, last, Machine.update,
    Registers.step_reset _ (.inl (by rw [low]; simp)) rfl]
  exact ⟨_, _, _, rfl⟩

end Loading

section Searching

/-- What the finder sees of the events in mode `1`, with `held` in the first register. -/
def toFinder : Register → List Event → List Finder.Event
  | _, [] => []
  | held, .SFC_clk level :: events => .SF_clk level :: toFinder held events
  | held, .SFC_Register_Zero register :: events =>
      (if held = register then [] else [.SF_User_Data register.top]) ++ toFinder register events
  | held, .SFC_Register_One _ :: events => toFinder held events
  | held, .SFC_Mode _ :: events => toFinder held events

/-- In mode `1` the controller passes its events on. -/
theorem foldl_toFinder {session : Session} {held : Register} {events : List Event}
    (mode : session.latches.controls.SFC_Mode = .logic .one)
    (holds : session.latches.controls.SFC_Register_Zero = held.value)
    (noMode : ∀ level, .SFC_Mode level ∉ events) :
    (events.foldl Session.react session).finder =
      (toFinder held events).foldl Machine.react session.finder := by
  induction events generalizing session held with
  | nil => rfl
  | cons event events inductionHypothesis =>
      have later : ∀ level, .SFC_Mode level ∉ events :=
        fun level membership => noMode level (List.mem_cons_of_mem _ membership)
      cases event with
      | SFC_clk level =>
          have rest : (events.foldl Session.react (session.react (.SFC_clk level))).finder = _ :=
            inductionHypothesis mode holds later
          rw [List.foldl_cons, toFinder, List.foldl_cons, rest, session.react_clk,
            ← session.inputs_eq]
          rfl
      | SFC_Register_Zero register =>
          have rest : (events.foldl Session.react
              (session.react (.SFC_Register_Zero register))).finder = _ :=
            inductionHypothesis mode rfl later
          rw [List.foldl_cons, toFinder, List.foldl_append, rest, session.react_zero mode, holds,
            ← session.inputs_eq]
          by_cases same : held = register
          · have data : session.latches.SFC_User_Data = session.finder.inputs.SF_User_Data := by
              rw [session.inputs_eq]
              rfl
            simp [same, data, Machine.update]
          · simp [same, Register.value_inj, Machine.react, Finder.Event.apply]
      | SFC_Register_One register =>
          have rest : (events.foldl Session.react
              (session.react (.SFC_Register_One register))).finder = _ :=
            inductionHypothesis mode holds later
          rw [List.foldl_cons, toFinder, rest, session.react_one mode]
      | SFC_Mode level => exact absurd List.mem_cons_self (noMode level)

variable {zero one first : Register} {session : Session}

/-- Mode `1` is set and the first byte is written. -/
def searching (first : Register) : List Event := [.SFC_Mode true, .SFC_Register_Zero first]

/-- The first byte is latched when it changes the first register, or is latched already. -/
def Starts (zero first : Register) (before : Latches) : Prop :=
  zero = first → before.SFC_User_Data = .byte first.top

/-- Behind the instructions, the finder is about to search for the sequence. -/
theorem Loads.started (loads : Loads zero one session.latches)
    (starts : Starts zero first session.latches) (settled : session.finder.Settled) :
    ∃ previous ended,
      ((loading zero one ++ searching first).foldl Session.react session).finder =
        { inputs :=
            { SF_clk := .bit true
              SF_Reset := .bit false
              SF_User_Data := .byte first.top
              SF_User_Sequence := (sequence zero one).value }
          registers :=
            { Data := .byte first.top
              Mismatch_Occurred := .bit false
              Previous_Data := previous
              Sequence := (sequence zero one).value
              SF_Sequence_Found := found false
              End_Of_Sequence := ended } } := by
  obtain ⟨inputs, data, previous, ended, registers⟩ := loads.finder
  let loaded := (loading zero one).foldl Session.react session
  let released := loaded.react (.SFC_Mode true)
  have presented : loaded.latches.inputs = _ := loaded.inputs_eq.symm.trans inputs
  have releasedFinder : released.finder =
      loaded.finder.update { loaded.latches.inputs with SF_Reset := .bit false } :=
    loaded.react_mode
  have releasedInputs : released.latches.inputs =
      { loaded.latches.inputs with SF_Reset := .bit false } := by
    rw [← released.inputs_eq, releasedFinder]
    rfl
  have zeroHeld : released.latches.controls.SFC_Register_Zero = zero.value := by
    simp only [released, Session.react_latches, loaded, loading_latches]
    rfl
  have dataHeld : released.latches.SFC_User_Data = session.latches.SFC_User_Data := by
    simp [released, Session.react_latches, loaded, loading_latches, Latches.update, Event.apply]
  have latched : (if released.latches.controls.SFC_Register_Zero = first.value then
      released.latches.SFC_User_Data else .byte first.top) = .byte first.top := by
    rw [zeroHeld, dataHeld]
    split_ifs with same
    · exact starts (Register.value_inj.mp same)
    · rfl
  have startedFinder :
      ((loading zero one ++ searching first).foldl Session.react session).finder =
        released.finder.update { released.latches.inputs with
          SF_User_Data := .byte first.top } := by
    rw [List.foldl_append]
    refine (released.react_zero rfl first).trans ?_
    rw [latched]
  have settledReleased : released.finder.Settled :=
    Session.settled_foldl (Session.settled_foldl settled (loading zero one)) [.SFC_Mode true]
  have releasedRegisters : released.finder.registers =
      { loaded.finder.registers with Data := released.finder.registers.Data } := by
    rw [releasedFinder]
    apply Registers.step_idle
    · simp [Value.bit]
    · rintro ⟨-, change⟩
      exact change (by rw [loaded.inputs_eq])
  have untouched : ¬ Touched released.finder.inputs { released.latches.inputs with
      SF_User_Data := .byte first.top } := by
    rw [released.inputs_eq]
    simp [Touched]
  have data : (released.finder.registers.step released.finder.inputs
      { released.latches.inputs with SF_User_Data := .byte first.top }).Data =
        .byte first.top := Registers.next_data settledReleased.data
  refine ⟨previous, ended, ?_⟩
  rw [startedFinder]
  ext1
  · simp only [Machine.update, releasedInputs, presented]
  · rw [Machine.update, Registers.step_untouched untouched, data, releasedRegisters]
    simp only [loaded, registers]

/-- The register machine behind the instructions does what an observer expects who has seen
no clock edge since the reset. -/
theorem Loads.follows (loads : Loads zero one session.latches)
    (starts : Starts zero first session.latches) (settled : session.finder.Settled) :
    ∃ earlier, Follows (sequence zero one) ⟨⟨true, false, first.top, []⟩, earlier⟩
      ((loading zero one ++ searching first).foldl Session.react session).finder := by
  obtain ⟨previous, ended, started⟩ := loads.started starts settled
  refine ⟨decide (ended = .logic .one), ?_⟩
  rw [started]
  refine ⟨rfl, rfl, ⟨Nat.zero_le _, rfl, (Word.shifted_zero _).symm⟩, ?_, rfl, by simp⟩
  simp [Expected.ended]

/-- What a session shows: for every history, sequence and first byte, and for every course of
clock cycles and register writes in mode `1`, the output is the one of the finder on the bytes
that have changed the first register. -/
theorem session_output (past : List Controls) (zero one first : Register)
    (loads : Loads zero one (Latches.run past)) (starts : Starts zero first (Latches.run past)) :
    ∃ earlier : Bool, ∀ events : List Event, (∀ level, .SFC_Mode level ∉ events) →
      ∃ final, SequenceFinderController.Reaches powerUp
          ((past ++ updates (Latches.run past).controls
            (loading zero one ++ searching first ++ events)).map Controls.stimulus) final ∧
        final .SF_Sequence_Found =
          found ((expect (sequence zero one).target true first.top earlier
            (.SF_Reset false :: toFinder first events)).found (sequence zero one).target) := by
  have loadsAfter : Loads zero one (Session.after past).latches := loads
  obtain ⟨earlier, follows⟩ := loadsAfter.follows starts (Machine.settled_run _)
  refine ⟨earlier, fun events noMode => ?_⟩
  obtain ⟨final, reaches, shows⟩ := reaches_finder (past ++ updates (Latches.run past).controls
    (loading zero one ++ searching first ++ events))
  refine ⟨final, reaches, ?_⟩
  let started := (loading zero one ++ searching first).foldl Session.react (.after past)
  have finder : Controller.finder (past ++ updates (Latches.run past).controls
      (loading zero one ++ searching first ++ events)) =
        (toFinder first events).foldl Machine.react started.finder := by
    have whole := congrArg Session.finder
      (Session.foldl_react past (loading zero one ++ searching first ++ events))
    rw [List.foldl_append] at whole
    refine whole.symm.trans (foldl_toFinder ?_ ?_ noMode)
    · rfl
    · rfl
  have output := congrArg Registers.SF_Sequence_Found shows.registers
  rw [finder] at output
  exact output.trans (follows.foldl (toFinder first events)).found

/-- `ab`, followed by a clock cycle for each byte and two more. -/
theorem session_output_ab :
    ∃ final, SequenceFinderController.Reaches powerUp
        ((updates Latches.powerUp.controls
          (loading ⟨[0x61, 0x62, 0, 0], rfl⟩ ⟨[0, 0, 0, 0], rfl⟩ ++
            searching ⟨[0x61, 0, 0, 0], rfl⟩ ++
            [.SFC_clk false, .SFC_clk true, .SFC_Register_Zero ⟨[0x62, 0, 0, 0], rfl⟩,
              .SFC_clk false, .SFC_clk true, .SFC_clk false, .SFC_clk true, .SFC_clk false,
              .SFC_clk true])).map Controls.stimulus) final ∧
      final .SF_Sequence_Found = found true := by
  obtain ⟨earlier, outputs⟩ := session_output [] ⟨[0x61, 0x62, 0, 0], rfl⟩ ⟨[0, 0, 0, 0], rfl⟩
    ⟨[0x61, 0, 0, 0], rfl⟩ (by decide) (fun same => absurd same (by decide))
  obtain ⟨final, reaches, output⟩ := outputs [.SFC_clk false, .SFC_clk true,
    .SFC_Register_Zero ⟨[0x62, 0, 0, 0], rfl⟩, .SFC_clk false, .SFC_clk true, .SFC_clk false,
    .SFC_clk true, .SFC_clk false, .SFC_clk true] (by simp)
  refine ⟨final, reaches, output.trans ?_⟩
  cases earlier <;> decide

end Searching

end SeqDetect.Controller
