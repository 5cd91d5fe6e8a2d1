import SeqDetect.Delta.View

/-!
# Designs and their elaboration

The part of VHDL that the two generators emit: an entity, component and signal
declarations, and an architecture body of concurrent statements.  Elaboration
turns each statement into the process it is equivalent to.  A component instance
is bound to the entity of that name, and its process is read through the port map.
-/

namespace SeqDetect.Vhdl

open Delta

/-- What an expression or an association names. -/
inductive Operand (Signal : Type) where
  | signal (name : Signal)
  /-- A character literal such as `'1'`. -/
  | logic (level : StdLogic)
  /-- A bit string literal such as `"00000000"`. -/
  | bits (literal : String)
  /-- A bit string literal with base specifier, such as `x"6a"`. -/
  | hex (literal : String)
  deriving DecidableEq

def hexDigitValue (c : Char) : BitVec 4 :=
  .ofNat 4 (if c.isDigit then c.toNat - '0'.toNat else c.toNat - 'a'.toNat + 10)

/-- A hexadecimal digit stands for four elements of the vector. -/
def hexDigitLevels (c : Char) : List StdLogic :=
  [.ofBool (hexDigitValue c)[3], .ofBool (hexDigitValue c)[2],
    .ofBool (hexDigitValue c)[1], .ofBool (hexDigitValue c)[0]]

namespace Operand

variable {Signal Renamed : Type}

def eval (state : Signal → Value) : Operand Signal → Value
  | signal name => state name
  | logic level => .logic level
  | bits literal => .vector (literal.toList.map .ofChar)
  | hex literal => .vector (literal.toList.flatMap hexDigitLevels)

def reads : Operand Signal → List Signal
  | signal name => [name]
  | _ => []

def map (names : Signal → Renamed) : Operand Signal → Operand Renamed
  | signal name => signal (names name)
  | logic level => logic level
  | bits literal => bits literal
  | hex literal => hex literal

@[simp] theorem eval_map (names : Signal → Renamed) (state : Renamed → Value)
    (operand : Operand Signal) :
    (operand.map names).eval state = operand.eval fun signal => state (names signal) := by
  cases operand <;> rfl

@[simp] theorem reads_map (names : Signal → Renamed) (operand : Operand Signal) :
    (operand.map names).reads = operand.reads.map names := by
  cases operand <;> rfl

end Operand

/-- The right-hand side of a concurrent signal assignment. -/
inductive Waveform (Signal : Type) where
  | copy (operand : Operand Signal)
  | and (left right : Operand Signal)
  deriving DecidableEq

/-- The mode and the type of a port; `in` is the mode of a port declared without one. -/
inductive Mode where
  | input | output
  deriving DecidableEq

inductive Subtype where
  | std_logic
  /-- `std_logic_vector(left downto right)`. -/
  | std_logic_vector (left right : ℕ)
  deriving DecidableEq

structure Port where
  name : String
  mode : Mode
  type : Subtype
  deriving DecidableEq

/-- An entity whose architecture is a single process driving one of its ports. -/
structure Entity where
  ports : List Port
  driven : String
  process : Process String Value

/-- The entities that component instances are bound to. -/
abbrev Library := String → Option Entity

/-- A concurrent statement. -/
inductive Statement (Signal : Type) where
  /-- `target <= waveform;` -/
  | assign (target : Signal) (waveform : Waveform Signal)
  /-- `with selector select target <= value when choice, …, otherwise when others;` -/
  | select (selector target : Signal) (choices : List (Operand Signal × Operand Signal))
      (otherwise : Operand Signal)
  /-- `label: component port map(formal => actual, …);` -/
  | instantiate (component : String) (portMap : List (String × Operand Signal))
  deriving DecidableEq

/-- The actual associated with a formal port; a port left open is never driven. -/
def actual {Signal : Type} (portMap : List (String × Operand Signal)) (formal : String) :
    Operand Signal :=
  (portMap.lookup formal).getD (.logic .U)

/-- A process over formal ports, read through the associations of an instance. -/
def instanceProcess {Signal : Type} (process : Process String Value)
    (portMap : List (String × Operand Signal)) : Process Signal Value where
  sensitivity := process.sensitivity.flatMap fun formal => (actual portMap formal).reads
  body shown := process.body
    ⟨fun formal => (actual portMap formal).eval shown.last,
      fun formal => (actual portMap formal).eval shown.now⟩

namespace Waveform

variable {Signal Renamed : Type}

def eval (state : Signal → Value) : Waveform Signal → Value
  | copy operand => operand.eval state
  | and left right => (left.eval state).and (right.eval state)

def reads : Waveform Signal → List Signal
  | copy operand => operand.reads
  | and left right => left.reads ++ right.reads

def map (names : Signal → Renamed) : Waveform Signal → Waveform Renamed
  | copy operand => copy (operand.map names)
  | and left right => and (left.map names) (right.map names)

@[simp] theorem reads_map (names : Signal → Renamed) (waveform : Waveform Signal) :
    (waveform.map names).reads = waveform.reads.map names := by
  cases waveform <;> simp [reads, map]

end Waveform

/-- The value a selected signal assignment picks: the first alternative whose choice
equals the selector. -/
def selected {Signal : Type} (state : Signal → Value) (selector : Signal)
    (otherwise : Operand Signal) : List (Operand Signal × Operand Signal) → Value
  | [] => otherwise.eval state
  | (value, choice) :: rest =>
      if state selector = choice.eval state then value.eval state
      else selected state selector otherwise rest

namespace Statement

variable {Signal Renamed : Type}

/-- The driven signal and the equivalent process. -/
def elaborate (library : Library) :
    Statement Signal → Option (Signal × Process Signal Value)
  | assign target waveform =>
      some (target, ⟨waveform.reads, fun shown => some (waveform.eval shown.now)⟩)
  | select selector target choices otherwise =>
      some (target,
        ⟨selector :: (choices.flatMap fun choice => choice.1.reads) ++ otherwise.reads,
          fun shown => some (selected shown.now selector otherwise choices)⟩)
  | instantiate component portMap => do
      let entity ← library component
      match actual portMap entity.driven with
      | .signal target => some (target, instanceProcess entity.process portMap)
      | _ => none

def map (names : Signal → Renamed) : Statement Signal → Statement Renamed
  | assign target waveform => assign (names target) (waveform.map names)
  | select selector target choices otherwise =>
      select (names selector) (names target)
        (choices.map fun choice => (choice.1.map names, choice.2.map names))
        (otherwise.map names)
  | instantiate component portMap =>
      instantiate component (portMap.map fun association =>
        (association.1, association.2.map names))

end Statement

/-- A statement with its label. -/
structure Labeled where
  label : Option String
  statement : Statement String
  deriving DecidableEq

structure ComponentDecl where
  name : String
  ports : List Port
  deriving DecidableEq

structure SignalDecl where
  name : String
  type : Subtype
  initial : Option StdLogic
  deriving DecidableEq

/-- One line of a generated file: a port of the entity, a declaration, a comment
or a concurrent statement. -/
inductive Item where
  | port (port : Port)
  | component (declaration : ComponentDecl)
  | signal (declaration : SignalDecl)
  | comment (text : List Byte)
  | statement (labeled : Labeled)
  deriving DecidableEq

/-- The concurrent statements of a file, in order. -/
def statements (file : List Item) : List (Statement String) :=
  file.filterMap fun
    | .statement labeled => some labeled.statement
    | _ => none

/-- The netlist that a file describes. -/
def netlist (library : Library) (file : List Item) : Option (Netlist String Value) :=
  (statements file).mapM (Statement.elaborate library)

end SeqDetect.Vhdl
