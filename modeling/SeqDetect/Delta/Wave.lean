import SeqDetect.Delta.Kernel

/-!
# Waves of delta cycles

Rules for computing what a netlist settles to.  A process that lists every signal
it reads acts as a function of its inputs delayed by one delta cycle, so the
values of consecutive cycles are related without mentioning events.  Once no
signal changes from one cycle to the next, the netlist has settled.
-/

namespace SeqDetect.Delta

universe u v

variable {Signal : Type u} {Val : Type v} [DecidableEq Val]

section Waves

variable (circuit : Circuit Signal Val) (shown : Snapshot Signal Val)

@[simp] theorem wave_zero : wave circuit shown 0 = shown.last := rfl

@[simp] theorem wave_one : wave circuit shown 1 = shown.now := rfl

theorem cycle_iterate (k : ℕ) :
    (cycle circuit)^[k] shown = ⟨wave circuit shown k, wave circuit shown (k + 1)⟩ := by
  unfold wave
  rw [Function.iterate_succ_apply']
  rfl

theorem wave_add_two (k : ℕ) :
    wave circuit shown (k + 2) =
      drive circuit ⟨wave circuit shown k, wave circuit shown (k + 1)⟩ := by
  rw [wave, Function.iterate_succ_apply', Function.iterate_succ_apply', cycle_iterate]
  rfl

theorem wave_cycle (k : ℕ) :
    wave circuit (cycle circuit shown) k = wave circuit shown (k + 1) := by
  rw [wave, wave, Function.iterate_succ_apply]

variable {circuit shown}

/-- An undriven signal keeps the value the stimulus gave it. -/
theorem wave_undriven {signal : Signal} (undriven : circuit signal = none) (k : ℕ) :
    wave circuit shown (k + 1) signal = shown.now signal := by
  induction k with
  | zero => rfl
  | succ k inductionHypothesis =>
      rw [wave_add_two, drive, undriven]
      exact inductionHypothesis

theorem wave_driven {signal : Signal} {process : Process Signal Val}
    (driven : circuit signal = some process) (k : ℕ) :
    wave circuit shown (k + 2) signal =
      if process.Resumed ⟨wave circuit shown k, wave circuit shown (k + 1)⟩ then
        (process.body ⟨wave circuit shown k, wave circuit shown (k + 1)⟩).getD
          (wave circuit shown (k + 1) signal)
      else
        wave circuit shown (k + 1) signal := by
  rw [wave_add_two, drive, driven]

end Waves

/-- A level-sensitive process assigns a function of the current values, and its
sensitivity list names every signal that the function reads. -/
structure Process.Level (process : Process Signal Val)
    (assigns : (Signal → Val) → Option Val) : Prop where
  body_eq : ∀ shown, process.body shown = assigns shown.now
  complete : ∀ before after : Signal → Val,
    (∀ signal ∈ process.sensitivity, before signal = after signal) →
      assigns before = assigns after

section Level

variable {circuit : Circuit Signal Val} {shown : Snapshot Signal Val}
  {signal : Signal} {process : Process Signal Val} {assigns : (Signal → Val) → Option Val}

/-- A level-sensitive process delays its function by one delta cycle, provided it
does so in the first one. -/
theorem wave_level (driven : circuit signal = some process) (level : process.Level assigns)
    (start : shown.now signal = (assigns shown.last).getD (shown.last signal)) (k : ℕ) :
    wave circuit shown (k + 1) signal =
      (assigns (wave circuit shown k)).getD (wave circuit shown k signal) := by
  induction k with
  | zero => exact start
  | succ k inductionHypothesis =>
      rw [wave_driven driven, level.body_eq]
      split
      · rfl
      · rename_i notResumed
        have unchanged : ∀ read ∈ process.sensitivity,
            wave circuit shown k read = wave circuit shown (k + 1) read := by
          intro read membership
          by_contra changed
          exact notResumed ⟨read, membership, changed⟩
        have sameAssignment := level.complete _ _ unchanged
        rw [inductionHypothesis, sameAssignment]
        cases assigns (wave circuit shown (k + 1)) <;> rfl

/-- A combinational process delays its function by one delta cycle. -/
theorem wave_function {reads : List Signal} (function : (Signal → Val) → Val)
    (driven : circuit signal = some ⟨reads, fun shown => some (function shown.now)⟩)
    (complete : ∀ before after : Signal → Val,
      (∀ read ∈ reads, before read = after read) → function before = function after)
    (start : shown.now signal = function shown.last) (k : ℕ) :
    wave circuit shown (k + 1) signal = function (wave circuit shown k) :=
  wave_level driven
    ⟨fun _ => rfl, fun before after same => congrArg some (complete before after same)⟩ start k

/-- When no listed signal has an event from some cycle on, the driver is inert. -/
theorem wave_idle (driven : circuit signal = some process) (start : ℕ)
    (idle : ∀ k ≥ start, ∀ read ∈ process.sensitivity,
      wave circuit shown k read = wave circuit shown (k + 1) read) (k : ℕ) :
    wave circuit shown (start + 1 + k) signal = wave circuit shown (start + 1) signal := by
  induction k with
  | zero => rfl
  | succ k inductionHypothesis =>
      have notResumed : ¬ process.Resumed
          ⟨wave circuit shown (start + k), wave circuit shown (start + k + 1)⟩ := by
        rintro ⟨read, membership, changed⟩
        exact changed (idle _ (Nat.le_add_right start k) read membership)
      have kept : wave circuit shown (start + k + 2) signal =
          wave circuit shown (start + k + 1) signal := by
        rw [wave_driven driven, if_neg notResumed]
      rw [Nat.add_right_comm start k 1, inductionHypothesis] at kept
      rwa [show start + 1 + (k + 1) = start + k + 2 by omega]

end Level

/-- From cycle `bound` on, no signal changes. -/
def Stable (circuit : Circuit Signal Val) (shown : Snapshot Signal Val) (bound : ℕ) : Prop :=
  ∀ k ≥ bound, ∀ signal, wave circuit shown k signal = wave circuit shown bound signal

namespace Netlist

variable [DecidableEq Signal] {net : Netlist Signal Val} {shown : Snapshot Signal Val}

omit [DecidableEq Val] in
theorem mem_of_circuit {signal : Signal} {process : Process Signal Val}
    (driven : net.circuit signal = some process) : (signal, process) ∈ net := by
  obtain ⟨before, after, rfl, -⟩ := List.lookup_eq_some_iff.mp driven
  simp

omit [DecidableEq Val] in
/-- With one driver for each signal, membership finds the driver. -/
theorem circuit_of_mem (singleDriver : (net.map Prod.fst).Nodup) {signal : Signal}
    {process : Process Signal Val} (membership : (signal, process) ∈ net) :
    net.circuit signal = some process := by
  obtain ⟨before, after, rfl⟩ := List.append_of_mem membership
  apply List.lookup_eq_some_iff.mpr
  refine ⟨before, after, rfl, ?_⟩
  intro entry earlier
  simp only [List.map_append, List.map_cons] at singleDriver
  have distinct := List.disjoint_of_nodup_append singleDriver
    (List.mem_map_of_mem (f := Prod.fst) earlier)
  simp only [bne_iff_ne]
  rintro rfl
  exact distinct List.mem_cons_self

omit [DecidableEq Val] in
theorem circuit_eq_none {signal : Signal} (undriven : signal ∉ net.map Prod.fst) :
    net.circuit signal = none := by
  apply List.lookup_eq_none_iff.mpr
  intro entry membership
  simp only [bne_iff_ne]
  rintro rfl
  exact undriven (List.mem_map_of_mem membership)

theorem drive_of_quiet (quiet : net.Quiet shown) : drive net.circuit shown = shown.now := by
  funext signal
  unfold drive
  cases found : net.circuit signal with
  | none => rfl
  | some process =>
      simp [quiet _ (mem_of_circuit found)]

theorem wave_of_quiet (quiet : net.Quiet shown) (k : ℕ) :
    wave net.circuit shown (k + 1) = shown.now := by
  have first : cycle net.circuit shown = ⟨shown.now, shown.now⟩ := by
    rw [cycle, drive_of_quiet quiet]
  have quietAgain : net.Quiet ⟨shown.now, shown.now⟩ := by
    rintro entry - ⟨read, -, changed⟩
    exact changed rfl
  have fixed : cycle net.circuit ⟨shown.now, shown.now⟩ = ⟨shown.now, shown.now⟩ := by
    rw [cycle, drive_of_quiet quietAgain]
  rw [← wave_cycle, first, wave, Function.iterate_fixed fixed]

/-- A netlist that is stable from cycle `bound` on settles within `bound` cycles,
to the values of that cycle. -/
theorem settle_of_stable {bound : ℕ} (stable : Stable net.circuit shown bound) {limit : ℕ}
    (enough : bound ≤ limit) :
    net.settle limit shown = some (wave net.circuit shown (bound + 1)) := by
  induction limit generalizing shown bound with
  | zero =>
      obtain rfl : bound = 0 := Nat.le_zero.mp enough
      have quiet : net.Quiet shown := by
        rintro entry - ⟨read, -, changed⟩
        exact changed (stable 1 (Nat.zero_le 1) read).symm
      simp [settle, quiet]
  | succ limit inductionHypothesis =>
      by_cases quiet : net.Quiet shown
      · simp [settle, quiet, wave_of_quiet quiet]
      · have positive : bound ≠ 0 := by
          rintro rfl
          apply quiet
          rintro entry - ⟨read, -, changed⟩
          exact changed (stable 1 (Nat.zero_le 1) read).symm
        obtain ⟨bound, rfl⟩ := Nat.exists_eq_succ_of_ne_zero positive
        have later : Stable net.circuit (cycle net.circuit shown) bound := by
          intro k hk read
          rw [wave_cycle, wave_cycle]
          exact stable (k + 1) (by omega) read
        rw [settle, if_neg quiet, inductionHypothesis later (by omega), wave_cycle]

end Netlist

end SeqDetect.Delta
