import SeqDetect.Delta.Wave

/-!
# Views of a netlist

A part of a netlist that reads only its own signals behaves as the same circuit
does on its own.  `View` says that the signals named by `names` are driven inside
a larger circuit exactly as the inner circuit drives them; then every wave of the
larger circuit restricts to a wave of the inner one.  A netlist covered by views
settles once each of the inner circuits is stable.
-/

namespace SeqDetect.Delta

universe u v w

variable {Inner : Type w} {Signal : Type u} {Val : Type v}

/-- What a snapshot shows on the named signals. -/
def Snapshot.pull (names : Inner → Signal) (shown : Snapshot Signal Val) :
    Snapshot Inner Val :=
  ⟨fun signal => shown.last (names signal), fun signal => shown.now (names signal)⟩

def Process.rename (names : Inner → Signal) (process : Process Inner Val) :
    Process Signal Val :=
  ⟨process.sensitivity.map names, fun shown => process.body (shown.pull names)⟩

theorem Process.resumed_rename (names : Inner → Signal) (process : Process Inner Val)
    (shown : Snapshot Signal Val) :
    (process.rename names).Resumed shown ↔ process.Resumed (shown.pull names) := by
  simp [Process.Resumed, Process.rename, Snapshot.pull]

/-- The named signals of `outer` are driven as `inner` drives them. -/
def View (inner : Circuit Inner Val) (outer : Circuit Signal Val) (names : Inner → Signal) :
    Prop :=
  ∀ signal, outer (names signal) = (inner signal).map (Process.rename names)

section Waves

variable [DecidableEq Val] {inner : Circuit Inner Val} {outer : Circuit Signal Val}
  {names : Inner → Signal}

theorem View.drive_eq (view : View inner outer names) (shown : Snapshot Signal Val)
    (signal : Inner) :
    drive outer shown (names signal) = drive inner (shown.pull names) signal := by
  unfold drive
  rw [view signal]
  cases inner signal with
  | none => rfl
  | some process =>
      simp only [Option.map_some, Process.resumed_rename]
      rfl

theorem View.wave_eq (view : View inner outer names) (shown : Snapshot Signal Val)
    (k : ℕ) (signal : Inner) :
    wave outer shown k (names signal) = wave inner (shown.pull names) k signal := by
  induction k using Nat.twoStepInduction generalizing signal with
  | zero => rfl
  | one => rfl
  | more k before after =>
      rw [wave_add_two, wave_add_two, view.drive_eq]
      congr 1
      ext inside
      · exact before inside
      · exact after inside

omit [DecidableEq Val] in
theorem View.initialPhase_eq (view : View inner outer names) (state : Signal → Val) :
    (initialPhase outer state).pull names =
      initialPhase inner fun signal => state (names signal) := by
  ext signal
  · rfl
  · simp only [initialPhase, Snapshot.pull, view signal]
    cases inner signal <;> rfl

end Waves

section Stimuli

variable [DecidableEq Inner] [DecidableEq Signal]

def Netlist.Stimulus.rename (names : Inner → Signal) (stimulus : Netlist.Stimulus Inner Val) :
    Netlist.Stimulus Signal Val :=
  stimulus.map fun entry => (names entry.1, entry.2)

theorem poke_rename {names : Inner → Signal} (injective : Function.Injective names)
    (state : Signal → Val) (stimulus : Netlist.Stimulus Inner Val) (signal : Inner) :
    Netlist.poke state (stimulus.rename names) (names signal) =
      Netlist.poke (fun inside => state (names inside)) stimulus signal := by
  unfold Netlist.poke
  congr 1
  induction stimulus with
  | nil => rfl
  | cons entry stimulus inductionHypothesis =>
      obtain ⟨port, value⟩ := entry
      simp only [Netlist.Stimulus.rename, List.map_cons, List.lookup_cons]
        at inductionHypothesis ⊢
      by_cases here : signal = port
      · simp [here]
      · have apart : names signal ≠ names port := fun same => here (injective same)
        rw [beq_eq_false_iff_ne.mpr here, beq_eq_false_iff_ne.mpr apart]
        exact inductionHypothesis

end Stimuli

section Disciplines

variable [DecidableEq Val]

/-- The update is stable after `bound` delta cycles, in a state with the property. -/
def Lands (circuit : Circuit Signal Val) (bound : ℕ) (shown : Snapshot Signal Val)
    (property : (Signal → Val) → Prop) : Prop :=
  Stable circuit shown bound ∧ property (wave circuit shown bound)

/-- An invariant of a circuit that is started by a first stimulus and then receives
one event at a time. -/
structure Discipline [DecidableEq Signal] {Event : Type*} (circuit : Circuit Signal Val)
    (first : Netlist.Stimulus Signal Val) (inputs : Event → Netlist.Stimulus Signal Val) where
  bound : ℕ
  Rests : (Signal → Val) → Prop
  Tracks : List Event → (Signal → Val) → Prop
  initial : ∀ state, Lands circuit bound (initialPhase circuit state) Rests
  start : ∀ {state}, Rests state → Lands circuit bound ⟨state, Netlist.poke state first⟩ (Tracks [])
  step : ∀ {past state} event, Tracks past state →
    Lands circuit bound ⟨state, Netlist.poke state (inputs event)⟩ (Tracks (past ++ [event]))

end Disciplines

namespace Netlist

variable [DecidableEq Signal] [DecidableEq Val]

/-- Every sufficiently long simulation of the pending update settles in `final`. -/
def Settles (net : Netlist Signal Val) (bound : ℕ) (shown : Snapshot Signal Val)
    (final : Signal → Val) : Prop :=
  ∀ limit ≥ bound, net.settle limit shown = some final

variable {net : Netlist Signal Val} {Index : Type*} {Part : Index → Type*}
  {inner : ∀ index, Circuit (Part index) Val} {names : ∀ index, Part index → Signal}

/-- A netlist covered by views of stable circuits settles, and each view shows the
values at which its circuit is stable. -/
theorem settles_of_views
    (views : ∀ index, View (inner index) net.circuit (names index))
    (covered : ∀ entry ∈ net, ∃ index signal, entry.1 = names index signal)
    {bound : Index → ℕ} {limit : ℕ} (enough : ∀ index, bound index ≤ limit)
    (shown : Snapshot Signal Val) (property : ∀ index, (Part index → Val) → Prop)
    (lands : ∀ index, Lands (inner index) (bound index) (shown.pull (names index))
      (property index)) :
    ∃ final, net.Settles (limit + 1) shown final ∧
      ∀ index, property index fun signal => final (names index signal) := by
  have netStable : Stable net.circuit shown (limit + 1) := by
    intro k late signal
    cases found : net.circuit signal with
    | none =>
        obtain ⟨k, rfl⟩ := Nat.exists_eq_add_of_le' late
        rw [← Nat.add_assoc, wave_undriven found, wave_undriven found]
    | some process =>
        obtain ⟨index, part, rfl⟩ := covered _ (mem_of_circuit found)
        have stable := (lands index).1
        have early := enough index
        rw [(views index).wave_eq, (views index).wave_eq, stable k (by omega),
          stable (limit + 1) (by omega)]
  refine ⟨wave net.circuit shown (limit + 1 + 1),
    fun fuel sufficient => settle_of_stable netStable sufficient, ?_⟩
  intro index
  have early := enough index
  have settled : (fun signal => wave net.circuit shown (limit + 1 + 1) (names index signal)) =
      wave (inner index) (shown.pull (names index)) (bound index) := by
    funext signal
    rw [(views index).wave_eq, (lands index).1 (limit + 1 + 1) (by omega)]
  rw [settled]
  exact (lands index).2

/-- Induction over a run: an invariant of the settled states that holds after the
first stimulus and is kept by every later one holds where the run ends. -/
theorem reaches_of_invariant {Event : Type*} {inputs : Event → Stimulus Signal Val}
    {bound : ℕ} (Invariant : List Event → (Signal → Val) → Prop)
    {powerUp initial started : Signal → Val} {first : Stimulus Signal Val}
    (initialSettles : net.Settles bound (initialPhase net.circuit powerUp) initial)
    (firstSettles : net.Settles bound ⟨initial, poke initial first⟩ started)
    (base : Invariant [] started)
    (step : ∀ past event state, Invariant past state →
      ∃ next, net.Settles bound ⟨state, poke state (inputs event)⟩ next ∧
        Invariant (past ++ [event]) next)
    (events : List Event) :
    ∃ final, net.Reaches powerUp (first :: events.map inputs) final ∧
      Invariant events final := by
  suffices later : ∀ (rest past : List Event) (state : Signal → Val), Invariant past state →
      ∃ final, (∀ limit ≥ bound, net.simulate limit state (rest.map inputs) = some final) ∧
        Invariant (past ++ rest) final by
    obtain ⟨final, simulates, holds⟩ := later events [] started base
    refine ⟨final, ⟨bound, fun limit enough => ?_⟩, by simpa using holds⟩
    simp [run, simulate, initialSettles limit enough, firstSettles limit enough,
      simulates limit enough]
  intro rest
  induction rest with
  | nil => exact fun past state holds => ⟨state, fun _ _ => rfl, by simpa using holds⟩
  | cons event rest inductionHypothesis =>
      intro past state holds
      obtain ⟨next, settles, holdsNext⟩ := step past event state holds
      obtain ⟨final, simulates, holdsFinal⟩ := inductionHypothesis _ next holdsNext
      refine ⟨final, fun limit enough => ?_, by simpa using holdsFinal⟩
      simp [simulate, settles limit enough, simulates limit enough]

/-- A netlist covered by views runs through every list of events, and each view keeps
to the discipline of its circuit. -/
theorem reaches_of_disciplines [Finite Index] [∀ index, DecidableEq (Part index)]
    (views : ∀ index, View (inner index) net.circuit (names index))
    (covered : ∀ entry ∈ net, ∃ index signal, entry.1 = names index signal)
    (injective : ∀ index, Function.Injective (names index))
    {Event : Type*} (first : Stimulus Signal Val) (inputs : Event → Stimulus Signal Val)
    {partFirst : ∀ index, Stimulus (Part index) Val}
    {partInputs : ∀ index, Event → Stimulus (Part index) Val}
    (first_eq : ∀ index, first = (partFirst index).rename (names index))
    (inputs_eq : ∀ index event, inputs event = (partInputs index event).rename (names index))
    (disciplines : ∀ index, Discipline (inner index) (partFirst index) (partInputs index))
    (powerUp : Signal → Val) (events : List Event) :
    ∃ final, net.Reaches powerUp (first :: events.map inputs) final ∧
      ∀ index, (disciplines index).Tracks events fun signal => final (names index signal) := by
  obtain ⟨limit, enough⟩ : ∃ limit, ∀ index, (disciplines index).bound ≤ limit := by
    obtain ⟨limit, bounds⟩ := (Set.finite_range fun index => (disciplines index).bound).bddAbove
    exact ⟨limit, fun index => bounds ⟨index, rfl⟩⟩
  have pulled : ∀ index state (stimulus : Stimulus (Part index) Val),
      (Snapshot.mk state (poke state (stimulus.rename (names index)))).pull (names index) =
        ⟨fun signal => state (names index signal),
          poke (fun signal => state (names index signal)) stimulus⟩ := by
    intro index state stimulus
    ext signal
    · rfl
    · exact poke_rename (injective index) state stimulus signal
  obtain ⟨initial, initialSettles, rests⟩ := settles_of_views views covered enough
    (initialPhase net.circuit powerUp) (fun index => (disciplines index).Rests) (fun index => by
      rw [(views index).initialPhase_eq]
      exact (disciplines index).initial _)
  obtain ⟨started, firstSettles, base⟩ := settles_of_views views covered enough
    ⟨initial, poke initial first⟩ (fun index => (disciplines index).Tracks []) (fun index => by
      rw [first_eq index, pulled]
      exact (disciplines index).start (rests index))
  refine reaches_of_invariant (fun past state => ∀ index,
    (disciplines index).Tracks past fun signal => state (names index signal))
    initialSettles firstSettles base ?_ events
  intro past event state tracks
  refine settles_of_views views covered enough _ _ fun index => ?_
  rw [inputs_eq index, pulled]
  exact (disciplines index).step event (tracks index)

end Netlist

end SeqDetect.Delta
