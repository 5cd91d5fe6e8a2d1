import SeqDetect.Finder.Run

/-!
# The controller of the finder

`SequenceFinderController.vhd` with the finder that it instantiates.  The two halves of
`SFC_User_Sequence` are driven by different processes and are kept apart.  The processes for the
two registers wait for the registers only, not for `SFC_Mode`, so they act as latches.
-/

namespace SeqDetect.Controller

open Delta
open Finder (Wire State Inputs Registers Machine undefined)

/-- The signals that the finder does not drive. -/
inductive Signal where
  | SFC_clk
  | SFC_Register_Zero
  | SFC_Register_One
  | SFC_Mode
  | SFC_User_Data
  | SFC_User_Sequence_63_32
  | SFC_User_Sequence_31_0
  | SFC_Trigger
  | SFC_Reset
  deriving DecidableEq, Repr

/-- The port map of `Inst_SequenceFinder`. -/
def ports : Finder.Ports Signal :=
  ⟨.SFC_clk, .SFC_Reset, .SFC_User_Data, [.SFC_User_Sequence_63_32, .SFC_User_Sequence_31_0]⟩

section Processes

/-- `Process(SFC_Register_Zero)`, first branch. -/
def SFC_User_Sequence_63_32 : Process (Wire Signal) Value :=
  ⟨[.port .SFC_Register_Zero], fun shown =>
    if shown.now (.port .SFC_Mode) = .logic .zero then
      some (shown.now (.port .SFC_Register_Zero))
    else none⟩

/-- `Process(SFC_Register_Zero)`, second branch. -/
def SFC_User_Data : Process (Wire Signal) Value :=
  ⟨[.port .SFC_Register_Zero], fun shown =>
    if shown.now (.port .SFC_Mode) = .logic .zero then none
    else some ((shown.now (.port .SFC_Register_Zero)).slice 31 31 24)⟩

/-- `Process(SFC_Register_One)`, its first signal. -/
def SFC_User_Sequence_31_0 : Process (Wire Signal) Value :=
  ⟨[.port .SFC_Register_One], fun shown =>
    if shown.now (.port .SFC_Mode) = .logic .zero then
      some (shown.now (.port .SFC_Register_One))
    else none⟩

/-- `Process(SFC_Register_One)`, its second signal. -/
def SFC_Trigger : Process (Wire Signal) Value :=
  ⟨[.port .SFC_Register_One], fun shown =>
    if shown.now (.port .SFC_Mode) = .logic .zero then some (.logic .one)
    else some (.logic .zero)⟩

/-- `SFC_Reset` as a function of `SFC_Mode` and `SFC_Trigger`. -/
def resets (mode trigger : Value) : Value :=
  if mode = .logic .zero ∧ trigger = .logic .one then .logic .one else .logic .zero

def SFC_Reset : Process (Wire Signal) Value :=
  ⟨[.port .SFC_Mode, .port .SFC_Trigger], fun shown =>
    some (resets (shown.now (.port .SFC_Mode)) (shown.now (.port .SFC_Trigger)))⟩

/-- The architecture `SFC`. -/
def SequenceFinderController : Netlist (Wire Signal) Value :=
  ports.architecture ++
    [(.port .SFC_User_Sequence_63_32, SFC_User_Sequence_63_32),
      (.port .SFC_User_Data, SFC_User_Data),
      (.port .SFC_User_Sequence_31_0, SFC_User_Sequence_31_0),
      (.port .SFC_Trigger, SFC_Trigger),
      (.port .SFC_Reset, SFC_Reset)]

end Processes

section Environment

/-- Every signal starts at the leftmost value of its type. -/
def powerUp : State Signal
  | .port .SFC_clk | .port .SFC_Mode | .port .SFC_Trigger | .port .SFC_Reset => .logic .U
  | .port .SFC_Register_Zero | .port .SFC_Register_One => undefined 32
  | .port .SFC_User_Sequence_63_32 | .port .SFC_User_Sequence_31_0 => undefined 32
  | .port .SFC_User_Data | .Data | .Previous_Data => undefined 8
  | .Sequence => undefined 64
  | .SF_Sequence_Found => undefined 32
  | .Mismatch_Occurred | .End_Of_Sequence _ => .logic .U

/-- The values on the input ports of the controller. -/
@[ext] structure Controls where
  SFC_clk : Value
  SFC_Register_Zero : Value
  SFC_Register_One : Value
  SFC_Mode : Value
  deriving DecidableEq, Repr

def Controls.stimulus (controls : Controls) : Netlist.Stimulus (Wire Signal) Value :=
  [(.port .SFC_clk, controls.SFC_clk),
    (.port .SFC_Register_Zero, controls.SFC_Register_Zero),
    (.port .SFC_Register_One, controls.SFC_Register_One),
    (.port .SFC_Mode, controls.SFC_Mode)]

end Environment

end SeqDetect.Controller
