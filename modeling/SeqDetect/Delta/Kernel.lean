import SeqDetect.Delta.Logic

/-!
# Delta-cycle simulation

The simulation cycle of the VHDL language reference for netlists in which every
signal has at most one driver.  A process is resumed by an event on a signal of
its sensitivity list; what it assigns becomes visible in the next delta cycle.
Between two stimuli the cycle is repeated until no process is resumed.
-/

namespace SeqDetect.Delta

universe u v

variable {Signal : Type u} {Val : Type v}

/-- Every signal before and after the latest update.  A signal has an event in
this cycle when the two values differ. -/
@[ext] structure Snapshot (Signal : Type u) (Val : Type v) where
  last : Signal → Val
  now : Signal → Val

/-- A process with one driven signal.  Its body returns `none` on a path that
executes no assignment, and the driver then keeps its value. -/
structure Process (Signal : Type u) (Val : Type v) where
  sensitivity : List Signal
  body : Snapshot Signal Val → Option Val

def Process.Resumed (process : Process Signal Val) (shown : Snapshot Signal Val) : Prop :=
  ∃ signal ∈ process.sensitivity, shown.last signal ≠ shown.now signal

instance [DecidableEq Val] (process : Process Signal Val) (shown : Snapshot Signal Val) :
    Decidable (process.Resumed shown) :=
  inferInstanceAs (Decidable (∃ signal ∈ process.sensitivity, _))

/-- The process that drives each signal; input ports have none. -/
abbrev Circuit (Signal : Type u) (Val : Type v) := Signal → Option (Process Signal Val)

/-- The value a signal takes in the next delta cycle. -/
def drive [DecidableEq Val] (circuit : Circuit Signal Val) (shown : Snapshot Signal Val)
    (signal : Signal) : Val :=
  match circuit signal with
  | none => shown.now signal
  | some process =>
      if process.Resumed shown then
        (process.body shown).getD (shown.now signal)
      else
        shown.now signal

def cycle [DecidableEq Val] (circuit : Circuit Signal Val) (shown : Snapshot Signal Val) :
    Snapshot Signal Val :=
  ⟨shown.now, drive circuit shown⟩

/-- The initialization phase executes every process once, whatever its sensitivity
list. -/
def initialPhase (circuit : Circuit Signal Val) (state : Signal → Val) : Snapshot Signal Val where
  last := state
  now signal :=
    match circuit signal with
    | none => state signal
    | some process => (process.body ⟨state, state⟩).getD (state signal)

/-- The `k`-th value of every signal, counted in delta cycles: number `0` is before
the update that `shown` records and number `1` is after it. -/
def wave [DecidableEq Val] (circuit : Circuit Signal Val) (shown : Snapshot Signal Val)
    (k : ℕ) : Signal → Val :=
  ((cycle circuit)^[k] shown).last

/-- A netlist lists the driven signals, each with the process that drives it. -/
abbrev Netlist (Signal : Type u) (Val : Type v) := List (Signal × Process Signal Val)

namespace Netlist

def circuit [DecidableEq Signal] (net : Netlist Signal Val) : Circuit Signal Val :=
  fun signal => net.lookup signal

/-- No process is resumed, so simulation time may advance. -/
def Quiet (net : Netlist Signal Val) (shown : Snapshot Signal Val) : Prop :=
  ∀ entry ∈ net, ¬ entry.2.Resumed shown

instance [DecidableEq Val] (net : Netlist Signal Val) (shown : Snapshot Signal Val) :
    Decidable (net.Quiet shown) :=
  inferInstanceAs (Decidable (∀ entry ∈ net, _))

variable [DecidableEq Signal] [DecidableEq Val]

/-- Run delta cycles until the netlist is quiet, at most `limit` of them. -/
def settle (net : Netlist Signal Val) : ℕ → Snapshot Signal Val → Option (Signal → Val)
  | 0, shown => if net.Quiet shown then some shown.now else none
  | limit + 1, shown =>
      if net.Quiet shown then some shown.now
      else net.settle limit (cycle net.circuit shown)

/-- New values on some input ports. -/
abbrev Stimulus (Signal : Type u) (Val : Type v) := List (Signal × Val)

def poke (state : Signal → Val) (stimulus : Stimulus Signal Val) : Signal → Val :=
  fun signal => (stimulus.lookup signal).getD (state signal)

omit [DecidableEq Val] in
@[simp] theorem poke_nil (state : Signal → Val) : poke state [] = state := rfl

omit [DecidableEq Val] in
@[simp] theorem poke_cons (state : Signal → Val) (port signal : Signal) (value : Val)
    (rest : Stimulus Signal Val) :
    poke state ((port, value) :: rest) signal =
      if signal = port then value else poke state rest signal := by
  unfold poke
  rw [List.lookup_cons]
  by_cases here : signal = port
  · simp [here]
  · simp [here, beq_eq_false_iff_ne.mpr here]

/-- Apply the stimuli in turn, letting the netlist settle after each. -/
def simulate (net : Netlist Signal Val) (limit : ℕ) :
    (Signal → Val) → List (Stimulus Signal Val) → Option (Signal → Val)
  | state, [] => some state
  | state, stimulus :: rest =>
      (net.settle limit ⟨state, poke state stimulus⟩).bind fun settled =>
        net.simulate limit settled rest

/-- Initialize from the given power-up values, then apply the stimuli. -/
def run (net : Netlist Signal Val) (limit : ℕ) (powerUp : Signal → Val)
    (stimuli : List (Stimulus Signal Val)) : Option (Signal → Val) :=
  (net.settle limit (initialPhase net.circuit powerUp)).bind fun settled =>
    net.simulate limit settled stimuli

/-- The run settles after every stimulus, however large the limit on delta cycles,
and ends in `final`. -/
def Reaches (net : Netlist Signal Val) (powerUp : Signal → Val)
    (stimuli : List (Stimulus Signal Val)) (final : Signal → Val) : Prop :=
  ∃ limit, ∀ fuel ≥ limit, net.run fuel powerUp stimuli = some final

theorem Reaches.unique {net : Netlist Signal Val} {powerUp : Signal → Val}
    {stimuli : List (Stimulus Signal Val)} {first second : Signal → Val}
    (reachesFirst : net.Reaches powerUp stimuli first)
    (reachesSecond : net.Reaches powerUp stimuli second) : first = second := by
  obtain ⟨firstLimit, firstRun⟩ := reachesFirst
  obtain ⟨secondLimit, secondRun⟩ := reachesSecond
  have atFirst := firstRun (max firstLimit secondLimit) (le_max_left _ _)
  have atSecond := secondRun (max firstLimit secondLimit) (le_max_right _ _)
  exact Option.some.inj (atFirst.symm.trans atSecond)

end Netlist

end SeqDetect.Delta
