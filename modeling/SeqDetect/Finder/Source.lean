import SeqDetect.Delta.Resolved
import SeqDetect.Delta.Visits

/-!
# The sequence finder

`SequenceFinder.vhd`.  A process that assigns two signals is listed once for each of them, with
the same sensitivity list.  Three processes assign `End_Of_Sequence`, which therefore has three
drivers; no process waits for it, so that reading the resolved value of the drivers is exact.
-/

namespace SeqDetect.Finder

open Delta

/-- The processes that assign `End_Of_Sequence`. -/
inductive Driver where
  | Mismatch_Occurred_Register
  | Previous_Data_Register
  | Sequence_Register
  deriving DecidableEq, Repr

/-- The signals of a design with one finder: the ports that the finder reads, and its own. -/
inductive Wire (Port : Type) where
  | port (name : Port)
  | Data
  | Mismatch_Occurred
  | Previous_Data
  | Sequence
  | SF_Sequence_Found
  | End_Of_Sequence (driver : Driver)
  deriving DecidableEq

abbrev State (Port : Type) := Wire Port → Value

/-- The signals that are connected to the input ports.  Parts of `SF_User_Sequence` may be
driven apart; they are listed from the leftmost on. -/
structure Ports (Port : Type) where
  SF_clk : Port
  SF_Reset : Port
  SF_User_Data : Port
  SF_User_Sequence : List Port

/-- The values on the input ports. -/
@[ext] structure Inputs where
  SF_clk : Value
  SF_Reset : Value
  SF_User_Data : Value
  SF_User_Sequence : Value
  deriving DecidableEq, Repr

/-- The values of the internal signals, as long as the drivers of `End_Of_Sequence` agree. -/
@[ext] structure Registers where
  Data : Value
  Mismatch_Occurred : Value
  Previous_Data : Value
  Sequence : Value
  SF_Sequence_Found : Value
  End_Of_Sequence : Value
  deriving DecidableEq, Repr

/-- A port of several parts reads them as one vector. -/
def gather : List Value → Value
  | [value] => value
  | values => .join values

def Ports.inputs {Port : Type} (ports : Ports Port) (state : State Port) : Inputs where
  SF_clk := state (.port ports.SF_clk)
  SF_Reset := state (.port ports.SF_Reset)
  SF_User_Data := state (.port ports.SF_User_Data)
  SF_User_Sequence := gather (ports.SF_User_Sequence.map fun name => state (.port name))

def registers {Port : Type} (state : State Port) : Registers where
  Data := state .Data
  Mismatch_Occurred := state .Mismatch_Occurred
  Previous_Data := state .Previous_Data
  Sequence := state .Sequence
  SF_Sequence_Found := state .SF_Sequence_Found
  End_Of_Sequence := state (.End_Of_Sequence .Mismatch_Occurred_Register)

/-- The path that an execution takes through the conditions that the register processes share:
the special case for a sequence of one byte or of more, and the normal case. -/
inductive Branch where
  | idle
  | reset
  | single (hit : Bool)
  | pair (hit : Bool)
  | ended
  | normal (hit : Bool)
  deriving DecidableEq, Repr

/-- `SF_clk = '1' and SF_clk'event`. -/
def Edge (before after : Inputs) : Prop :=
  after.SF_clk = .logic .one ∧ before.SF_clk ≠ after.SF_clk

instance (before after : Inputs) : Decidable (Edge before after) :=
  inferInstanceAs (Decidable (_ ∧ _))

/-- The nested conditions, for the values that are current in this delta cycle. -/
def branch (before after : Inputs) (current : Registers) : Branch :=
  if after.SF_Reset = .logic .one then .reset
  else if Edge before after then
    if current.Mismatch_Occurred = .logic .one then
      if (after.SF_User_Sequence.slice 63 55 48).equals (.zeros 8) then
        .single (current.Data.equals (after.SF_User_Sequence.slice 63 63 56))
      else
        .pair (current.Previous_Data.equals (after.SF_User_Sequence.slice 63 63 56) &&
          current.Data.equals (after.SF_User_Sequence.slice 63 55 48))
    else if (current.Sequence.slice 63 63 56).equals (.zeros 8) then .ended
    else .normal (current.Data.equals (current.Sequence.slice 63 63 56))
  else .idle

section Assignments

/-- What the first process assigns to `Mismatch_Occurred`. -/
def Mismatch_Occurred : Branch → Option Value
  | .reset => some (.logic .zero)
  | .single hit | .pair hit | .normal hit =>
      if hit then some (.logic .zero) else some (.logic .one)
  | .ended | .idle => none

/-- What the second process assigns to `Previous_Data`. -/
def Previous_Data (after : Inputs) (current : Registers) : Branch → Option Value
  | .reset => some current.Previous_Data
  | .single hit | .pair hit | .normal hit =>
      if hit then some current.Previous_Data else some after.SF_User_Data
  | .ended | .idle => none

/-- What the third process assigns to `Sequence`. -/
def Sequence (after : Inputs) (current : Registers) : Branch → Option Value
  | .reset => some after.SF_User_Sequence
  | .single hit | .normal hit =>
      if hit then some (.join [current.Sequence.slice 63 55 0, .zeros 8])
      else some after.SF_User_Sequence
  | .pair hit =>
      if hit then some (.join [after.SF_User_Sequence.slice 63 47 0, .zeros 16])
      else some after.SF_User_Sequence
  | .ended | .idle => none

/-- What each of the three assigns to `End_Of_Sequence`. -/
def End_Of_Sequence : Branch → Option Value
  | .ended => some (.logic .one)
  | .normal _ => some (.logic .zero)
  | .reset | .single _ | .pair _ | .idle => none

/-- The words `"0001"` and `"0000"`, followed by 28 zeros. -/
def found (ended : Bool) : Value :=
  .vector ([.zero, .zero, .zero, .ofBool ended] ++ List.replicate 28 .zero)

/-- What the fourth process assigns to `SF_Sequence_Found`. -/
def SF_Sequence_Found (before after : Inputs) (ended : Value) : Option Value :=
  if after.SF_Reset = .logic .one then some (found false)
  else if Edge before after then
    if ended = .logic .one then some (found true) else some (found false)
  else none

end Assignments

section Processes

variable {Port : Type} (ports : Ports Port)

def Ports.branch (shown : Snapshot (Wire Port) Value) : Branch :=
  Finder.branch (ports.inputs shown.last) (ports.inputs shown.now) (registers shown.now)

/-- The resolved value of the three drivers. -/
def ended (state : State Port) : Value :=
  .resolved [state (.End_Of_Sequence .Mismatch_Occurred_Register),
    state (.End_Of_Sequence .Previous_Data_Register),
    state (.End_Of_Sequence .Sequence_Register)]

/-- `SF_clk, SF_Reset`, and for the third process also `Mismatch_Occurred`. -/
def Ports.sensitivity : Driver → List (Wire Port)
  | .Mismatch_Occurred_Register | .Previous_Data_Register =>
      [.port ports.SF_clk, .port ports.SF_Reset]
  | .Sequence_Register => [.port ports.SF_clk, .port ports.SF_Reset, .Mismatch_Occurred]

def Ports.dataProcess : Process (Wire Port) Value :=
  ⟨[.port ports.SF_User_Data], fun shown => some (shown.now (.port ports.SF_User_Data))⟩

def Ports.mismatchProcess : Process (Wire Port) Value :=
  ⟨ports.sensitivity .Mismatch_Occurred_Register, fun shown =>
    Mismatch_Occurred (ports.branch shown)⟩

def Ports.previousProcess : Process (Wire Port) Value :=
  ⟨ports.sensitivity .Previous_Data_Register, fun shown =>
    Previous_Data (ports.inputs shown.now) (registers shown.now) (ports.branch shown)⟩

def Ports.sequenceProcess : Process (Wire Port) Value :=
  ⟨ports.sensitivity .Sequence_Register, fun shown =>
    Sequence (ports.inputs shown.now) (registers shown.now) (ports.branch shown)⟩

def Ports.endProcess (driver : Driver) : Process (Wire Port) Value :=
  ⟨ports.sensitivity driver, fun shown => End_Of_Sequence (ports.branch shown)⟩

def Ports.foundProcess : Process (Wire Port) Value :=
  ⟨[.port ports.SF_clk, .port ports.SF_Reset], fun shown =>
    SF_Sequence_Found (ports.inputs shown.last) (ports.inputs shown.now) (ended shown.now)⟩

/-- The architecture `SF`. -/
def Ports.architecture : Netlist (Wire Port) Value :=
  [(.Data, ports.dataProcess),
    (.Mismatch_Occurred, ports.mismatchProcess),
    (.End_Of_Sequence .Mismatch_Occurred_Register,
      ports.endProcess .Mismatch_Occurred_Register),
    (.Previous_Data, ports.previousProcess),
    (.End_Of_Sequence .Previous_Data_Register, ports.endProcess .Previous_Data_Register),
    (.Sequence, ports.sequenceProcess),
    (.End_Of_Sequence .Sequence_Register, ports.endProcess .Sequence_Register),
    (.SF_Sequence_Found, ports.foundProcess)]

end Processes

section Entity

/-- The ports of the entity `SequenceFinder`, but for its output. -/
inductive Port where
  | SF_clk
  | SF_Reset
  | SF_User_Data
  | SF_User_Sequence
  deriving DecidableEq, Repr

def ports : Ports Port := ⟨.SF_clk, .SF_Reset, .SF_User_Data, [.SF_User_Sequence]⟩

def SequenceFinder : Netlist (Wire Port) Value := ports.architecture

/-- A vector of `n` uninitialized elements. -/
def undefined (n : ℕ) : Value := .vector (List.replicate n .U)

/-- Every signal starts at the leftmost value of its type. -/
def powerUp : State Port
  | .port .SF_clk | .port .SF_Reset => .logic .U
  | .port .SF_User_Data | .Data | .Previous_Data => undefined 8
  | .port .SF_User_Sequence | .Sequence => undefined 64
  | .SF_Sequence_Found => undefined 32
  | .Mismatch_Occurred | .End_Of_Sequence _ => .logic .U

/-- New values on all input ports at once. -/
def Inputs.stimulus (inputs : Inputs) : Netlist.Stimulus (Wire Port) Value :=
  [(.port .SF_clk, inputs.SF_clk), (.port .SF_Reset, inputs.SF_Reset),
    (.port .SF_User_Data, inputs.SF_User_Data),
    (.port .SF_User_Sequence, inputs.SF_User_Sequence)]

end Entity

end SeqDetect.Finder
