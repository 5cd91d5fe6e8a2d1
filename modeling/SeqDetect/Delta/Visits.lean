import SeqDetect.Delta.View

/-!
# Every delta cycle of a run

`Netlist.Visits` collects the snapshots of all delta cycles of all runs, also those between two
settled states.  A property of the initial phase that every delta cycle and every stimulus
keeps holds in each of them.
-/

namespace SeqDetect.Delta

universe u v

variable {Signal : Type u} {Val : Type v} [DecidableEq Val]

section Fixed

variable {circuit : Circuit Signal Val} {shown : Snapshot Signal Val}

theorem drive_of_still (state : Signal → Val) : drive circuit ⟨state, state⟩ = state := by
  funext signal
  unfold drive
  cases circuit signal with
  | none => rfl
  | some process => simp [Process.Resumed]

/-- A delta cycle without a change is the last one. -/
theorem stable_of_fixed {n : ℕ} (fixed : wave circuit shown (n + 1) = wave circuit shown n) :
    Stable circuit shown n := by
  have still : ∀ k, wave circuit shown (n + k) = wave circuit shown n ∧
      wave circuit shown (n + k + 1) = wave circuit shown n := by
    intro k
    induction k with
    | zero => exact ⟨rfl, fixed⟩
    | succ k inductionHypothesis =>
        obtain ⟨first, second⟩ := inductionHypothesis
        refine ⟨second, ?_⟩
        rw [← Nat.add_assoc, wave_add_two, first, second, drive_of_still]
  intro k late signal
  obtain ⟨k, rfl⟩ := Nat.exists_eq_add_of_le late
  rw [(still k).1]

end Fixed

namespace Netlist

variable [DecidableEq Signal] {net : Netlist Signal Val}

theorem settles_of_fixed {shown : Snapshot Signal Val} {n : ℕ}
    (fixed : wave net.circuit shown (n + 1) = wave net.circuit shown n) :
    net.Settles n shown (wave net.circuit shown n) := by
  intro limit enough
  rw [settle_of_stable (stable_of_fixed fixed) enough, fixed]

variable {Event : Type*} {inputs : Event → Stimulus Signal Val} {powerUp : Signal → Val}

/-- Induction over a run whose first stimulus is an event like any other. -/
theorem reaches_of_steps (bound : ℕ) (Invariant : List Event → (Signal → Val) → Prop)
    {initial : Signal → Val}
    (initialSettles : net.Settles bound (initialPhase net.circuit powerUp) initial)
    (base : Invariant [] initial)
    (step : ∀ past event state, Invariant past state →
      ∃ next, net.Settles bound ⟨state, poke state (inputs event)⟩ next ∧
        Invariant (past ++ [event]) next)
    (events : List Event) :
    ∃ final, net.Reaches powerUp (events.map inputs) final ∧ Invariant events final := by
  cases events with
  | nil =>
      refine ⟨initial, ⟨bound, fun limit enough => ?_⟩, base⟩
      simp [run, simulate, initialSettles limit enough]
  | cons event events =>
      obtain ⟨started, firstSettles, holds⟩ := step [] event initial base
      exact reaches_of_invariant (fun past state => Invariant (event :: past) state)
        initialSettles firstSettles holds (fun past next state => step (event :: past) next state)
        events

/-- The snapshot of some delta cycle of a run from the power-up values. -/
inductive Visits (net : Netlist Signal Val) (inputs : Event → Stimulus Signal Val)
    (powerUp : Signal → Val) : Snapshot Signal Val → Prop where
  | initial : Visits net inputs powerUp (initialPhase net.circuit powerUp)
  | delta {shown} : Visits net inputs powerUp shown →
      Visits net inputs powerUp (cycle net.circuit shown)
  | stimulus {shown} (event : Event) : Visits net inputs powerUp shown → net.Quiet shown →
      Visits net inputs powerUp ⟨shown.now, poke shown.now (inputs event)⟩

theorem Visits.settle {limit : ℕ} {shown : Snapshot Signal Val} {final : Signal → Val}
    (visits : net.Visits inputs powerUp shown) (settles : net.settle limit shown = some final) :
    ∃ quiet, net.Visits inputs powerUp quiet ∧ net.Quiet quiet ∧ quiet.now = final := by
  induction limit generalizing shown with
  | zero =>
      simp only [Netlist.settle, Option.ite_none_right_eq_some, Option.some.injEq] at settles
      exact ⟨shown, visits, settles⟩
  | succ limit inductionHypothesis =>
      by_cases quiet : net.Quiet shown
      · rw [Netlist.settle, if_pos quiet, Option.some.injEq] at settles
        exact ⟨shown, visits, quiet, settles⟩
      · rw [Netlist.settle, if_neg quiet] at settles
        exact inductionHypothesis visits.delta settles

/-- A run visits the state it ends in. -/
theorem Visits.of_run {limit : ℕ} {events : List Event} {final : Signal → Val}
    (runs : net.run limit powerUp (events.map inputs) = some final) :
    ∃ quiet, net.Visits inputs powerUp quiet ∧ net.Quiet quiet ∧ quiet.now = final := by
  obtain ⟨settled, initial, simulates⟩ := Option.bind_eq_some_iff.mp runs
  have start : net.Visits inputs powerUp (initialPhase net.circuit powerUp) := .initial
  obtain ⟨shown, visits, quiet, rfl⟩ := start.settle initial
  clear runs initial
  induction events generalizing shown with
  | nil =>
      rw [List.map_nil, simulate, Option.some.injEq] at simulates
      exact ⟨shown, visits, quiet, simulates⟩
  | cons event events inductionHypothesis =>
      rw [List.map_cons, simulate] at simulates
      obtain ⟨next, settles, later⟩ := Option.bind_eq_some_iff.mp simulates
      obtain ⟨nextShown, nextVisits, nextQuiet, rfl⟩ :=
        (visits.stimulus event quiet).settle settles
      exact inductionHypothesis nextShown nextVisits nextQuiet later

end Netlist

end SeqDetect.Delta
