import SeqDetect.Finder.Source

/-!
# The registers of the finder

A netlist that contains the finder changes the values of its registers as one function of the
port values before and after an update.  The three drivers of `End_Of_Sequence` agree in every
delta cycle, so that the resolved value is the one that each of them drives.
-/

namespace SeqDetect.Finder

open Delta

/-- The clock or the reset has an event, which resumes every register process. -/
def Touched (before after : Inputs) : Prop :=
  before.SF_clk ≠ after.SF_clk ∨ before.SF_Reset ≠ after.SF_Reset

instance (before after : Inputs) : Decidable (Touched before after) :=
  inferInstanceAs (Decidable (_ ∨ _))

/-- The registers in the next delta cycle. -/
def Registers.next (before after : Inputs) (last now : Registers) : Registers where
  Data := if before.SF_User_Data ≠ after.SF_User_Data then after.SF_User_Data else now.Data
  Mismatch_Occurred :=
    if Touched before after then
      (Finder.Mismatch_Occurred (branch before after now)).getD now.Mismatch_Occurred
    else now.Mismatch_Occurred
  Previous_Data :=
    if Touched before after then
      (Finder.Previous_Data after now (branch before after now)).getD now.Previous_Data
    else now.Previous_Data
  Sequence :=
    if Touched before after ∨ last.Mismatch_Occurred ≠ now.Mismatch_Occurred then
      (Finder.Sequence after now (branch before after now)).getD now.Sequence
    else now.Sequence
  SF_Sequence_Found :=
    if Touched before after then
      (Finder.SF_Sequence_Found before after now.End_Of_Sequence).getD now.SF_Sequence_Found
    else now.SF_Sequence_Found
  End_Of_Sequence :=
    if Touched before after then
      (Finder.End_Of_Sequence (branch before after now)).getD now.End_Of_Sequence
    else now.End_Of_Sequence

/-- The drivers of `End_Of_Sequence` drive one level, `'0'` or `'1'` once it is defined. -/
def Agree {Port : Type} (state : State Port) : Prop :=
  ∃ level ∈ [StdLogic.U, .zero, .one], ∀ driver, state (.End_Of_Sequence driver) = .logic level

theorem Agree.eq {Port : Type} {state : State Port} (agree : Agree state) (driver : Driver) :
    state (.End_Of_Sequence driver) = (registers state).End_Of_Sequence := by
  obtain ⟨level, -, same⟩ := agree
  rw [same driver, registers, same]

theorem Agree.ended {Port : Type} {state : State Port} (agree : Agree state) :
    ended state = (registers state).End_Of_Sequence := by
  obtain ⟨level, defined, same⟩ := agree
  have weak : level ≠ .dash := by
    rintro rfl
    simp at defined
  rw [Finder.ended, registers, same, same, same, Value.resolved_same weak]

section Circuits

variable {Port : Type} {ports : Ports Port}

/-- A circuit that contains the finder. -/
def Contains (circuit : Circuit (Wire Port) Value) (ports : Ports Port) : Prop :=
  ∀ entry ∈ ports.architecture, circuit entry.1 = some entry.2

variable {circuit : Circuit (Wire Port) Value} {shown : Snapshot (Wire Port) Value}

theorem Contains.endProcess (contains : Contains circuit ports) (driver : Driver) :
    circuit (.End_Of_Sequence driver) = some (ports.endProcess driver) := by
  cases driver <;> exact contains ⟨_, _⟩ (by simp [Ports.architecture]; rfl)

theorem resumed_pair (ports : Ports Port) (process : Process (Wire Port) Value)
    (sensitivity : process.sensitivity = [.port ports.SF_clk, .port ports.SF_Reset]) :
    process.Resumed shown ↔ Touched (ports.inputs shown.last) (ports.inputs shown.now) := by
  simp [Process.Resumed, sensitivity, Touched, Ports.inputs]

theorem resumed_triple (ports : Ports Port) (process : Process (Wire Port) Value)
    (sensitivity : process.sensitivity =
      [.port ports.SF_clk, .port ports.SF_Reset, .Mismatch_Occurred]) :
    process.Resumed shown ↔ Touched (ports.inputs shown.last) (ports.inputs shown.now) ∨
      (registers shown.last).Mismatch_Occurred ≠ (registers shown.now).Mismatch_Occurred := by
  simp [Process.Resumed, sensitivity, Touched, Ports.inputs, registers, or_assoc]

/-- Without an event on the clock or the reset, no path assigns `End_Of_Sequence`. -/
theorem end_of_untouched {before after : Inputs} {current : Registers}
    (untouched : ¬ Touched before after) :
    Finder.End_Of_Sequence (branch before after current) = none := by
  have noEdge : ¬ Edge before after := fun edge => untouched (.inl edge.2)
  rw [branch, if_neg noEdge]
  split <;> rfl

/-- All drivers do the same, although one of the processes is resumed more often. -/
theorem Contains.drive_end (contains : Contains circuit ports) (driver : Driver) :
    drive circuit shown (.End_Of_Sequence driver) =
      if Touched (ports.inputs shown.last) (ports.inputs shown.now) then
        (Finder.End_Of_Sequence (ports.branch shown)).getD (shown.now (.End_Of_Sequence driver))
      else shown.now (.End_Of_Sequence driver) := by
  rw [drive, contains.endProcess driver]
  by_cases touched : Touched (ports.inputs shown.last) (ports.inputs shown.now)
  · have resumed : (ports.endProcess driver).Resumed shown := by
      cases driver with
      | Sequence_Register => exact (resumed_triple ports _ rfl).mpr (.inl touched)
      | Mismatch_Occurred_Register => exact (resumed_pair ports _ rfl).mpr touched
      | Previous_Data_Register => exact (resumed_pair ports _ rfl).mpr touched
    simp only [resumed, touched, if_true]
    rfl
  · have kept : (ports.endProcess driver).body shown = none := end_of_untouched touched
    simp [touched, kept]

/-- What one of the drivers holds after a delta cycle, they all hold. -/
theorem Contains.agree_drive (contains : Contains circuit ports) (agree : Agree shown.now) :
    Agree (drive circuit shown) := by
  obtain ⟨level, defined, same⟩ := agree
  simp only [Agree, contains.drive_end, same]
  by_cases touched : Touched (ports.inputs shown.last) (ports.inputs shown.now)
  · simp only [touched, if_true]
    cases ports.branch shown with
    | ended => exact ⟨.one, by simp, fun _ => rfl⟩
    | normal hit => exact ⟨.zero, by simp, fun _ => rfl⟩
    | reset => exact ⟨level, defined, fun _ => rfl⟩
    | single hit => exact ⟨level, defined, fun _ => rfl⟩
    | pair hit => exact ⟨level, defined, fun _ => rfl⟩
    | idle => exact ⟨level, defined, fun _ => rfl⟩
  · simp only [touched, if_false]
    exact ⟨level, defined, fun _ => rfl⟩

/-- One delta cycle of the finder. -/
theorem Contains.registers_drive (contains : Contains circuit ports) (agree : Agree shown.now) :
    registers (drive circuit shown) = Registers.next (ports.inputs shown.last)
      (ports.inputs shown.now) (registers shown.last) (registers shown.now) := by
  have data : circuit .Data = some ports.dataProcess :=
    contains ⟨_, _⟩ (by simp [Ports.architecture]; rfl)
  have mismatch : circuit .Mismatch_Occurred = some ports.mismatchProcess :=
    contains ⟨_, _⟩ (by simp [Ports.architecture]; rfl)
  have previous : circuit .Previous_Data = some ports.previousProcess :=
    contains ⟨_, _⟩ (by simp [Ports.architecture]; rfl)
  have sequence : circuit .Sequence = some ports.sequenceProcess :=
    contains ⟨_, _⟩ (by simp [Ports.architecture]; rfl)
  have found : circuit .SF_Sequence_Found = some ports.foundProcess :=
    contains ⟨_, _⟩ (by simp [Ports.architecture]; rfl)
  ext1
  · by_cases event : shown.last (.port ports.SF_User_Data) =
        shown.now (.port ports.SF_User_Data) <;>
      simp [registers, drive, data, Registers.next, Ports.inputs, Process.Resumed,
        Ports.dataProcess, event]
  · simp only [registers, drive, mismatch, Registers.next]
    simp only [resumed_pair ports ports.mismatchProcess rfl]
    rfl
  · simp only [registers, drive, previous, Registers.next]
    simp only [resumed_pair ports ports.previousProcess rfl]
    rfl
  · simp only [registers, drive, sequence, Registers.next]
    simp only [resumed_triple ports ports.sequenceProcess rfl]
    rfl
  · simp only [registers, drive, found, Registers.next]
    simp only [resumed_pair ports ports.foundProcess rfl]
    simp only [Ports.foundProcess, SF_Sequence_Found, agree.ended]
    rfl
  · exact contains.drive_end _

theorem Contains.agree_wave (contains : Contains circuit ports) (first : Agree shown.last)
    (second : Agree shown.now) (k : ℕ) : Agree (wave circuit shown k) := by
  induction k using Nat.twoStepInduction with
  | zero => exact first
  | one => exact second
  | more k _ later =>
      rw [wave_add_two]
      exact contains.agree_drive later

/-- The waves of the registers. -/
theorem Contains.registers_wave (contains : Contains circuit ports) (first : Agree shown.last)
    (second : Agree shown.now) (k : ℕ) :
    registers (wave circuit shown (k + 2)) =
      Registers.next (ports.inputs (wave circuit shown k))
        (ports.inputs (wave circuit shown (k + 1))) (registers (wave circuit shown k))
        (registers (wave circuit shown (k + 1))) := by
  rw [wave_add_two]
  exact contains.registers_drive (contains.agree_wave first second (k + 1))

end Circuits

end SeqDetect.Finder
