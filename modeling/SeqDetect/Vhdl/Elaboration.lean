import SeqDetect.Vhdl.Design

/-!
# Elaboration and renaming

Elaboration commutes with renaming signals, so the statements of a file that come
from one description under different names give views of one circuit.
-/

namespace SeqDetect.Vhdl

open Delta

variable {Signal Renamed : Type}

theorem actual_map (names : Signal → Renamed) (portMap : List (String × Operand Signal))
    (formal : String) :
    actual (portMap.map fun association => (association.1, association.2.map names)) formal =
      (actual portMap formal).map names := by
  induction portMap with
  | nil => rfl
  | cons association portMap inductionHypothesis =>
      rcases association with ⟨name, operand⟩
      simp only [actual, List.map_cons, List.lookup_cons] at inductionHypothesis ⊢
      cases formal == name with
      | true => rfl
      | false => exact inductionHypothesis

theorem instanceProcess_map (names : Signal → Renamed) (process : Process String Value)
    (portMap : List (String × Operand Signal)) :
    instanceProcess process
        (portMap.map fun association => (association.1, association.2.map names)) =
      (instanceProcess process portMap).rename names := by
  simp only [instanceProcess, actual_map, Process.rename, Snapshot.pull, Operand.eval_map,
    Operand.reads_map, List.map_flatMap]

theorem Waveform.eval_map (names : Signal → Renamed) (state : Renamed → Value)
    (waveform : Waveform Signal) :
    (waveform.map names).eval state = waveform.eval fun signal => state (names signal) := by
  cases waveform <;> simp [Waveform.eval, Waveform.map]

theorem selected_map (names : Signal → Renamed) (state : Renamed → Value) (selector : Signal)
    (otherwise : Operand Signal) (choices : List (Operand Signal × Operand Signal)) :
    selected state (names selector) (otherwise.map names)
        (choices.map fun choice => (choice.1.map names, choice.2.map names)) =
      selected (fun signal => state (names signal)) selector otherwise choices := by
  induction choices with
  | nil => simp [selected]
  | cons choice choices inductionHypothesis => simp [selected, inductionHypothesis]

theorem Statement.elaborate_map (library : Library) (names : Signal → Renamed)
    (statement : Statement Signal) :
    (statement.map names).elaborate library =
      (statement.elaborate library).map fun driver =>
        (names driver.1, driver.2.rename names) := by
  cases statement with
  | assign target waveform =>
      simp [map, elaborate, Waveform.reads_map, Waveform.eval_map, Process.rename, Snapshot.pull]
  | select selector target choices otherwise =>
      simp [map, elaborate, selected_map, Process.rename, Snapshot.pull, List.flatMap_map,
        List.map_flatMap]
  | instantiate component portMap =>
      simp only [map, elaborate, instanceProcess_map, actual_map]
      cases library component with
      | none => rfl
      | some entity =>
          simp only [Option.bind_eq_bind, Option.bind_some]
          cases actual portMap entity.driven <;> rfl

/-- The circuit in which each signal is driven by the given statement. -/
def circuitOf (library : Library) (statementOf : Signal → Option (Statement Signal)) :
    Circuit Signal Value :=
  fun signal => (statementOf signal).bind fun statement =>
    (statement.elaborate library).map Prod.snd

section Netlist

variable {library : Library}

private theorem mapM_elaborate {statements : List (Statement String)}
    (elaborates : ∀ statement ∈ statements, (statement.elaborate library).isSome) :
    ∃ net, statements.mapM (Statement.elaborate library) = some net ∧
      statements.map (Statement.elaborate library) = net.map some := by
  induction statements with
  | nil => exact ⟨[], rfl, rfl⟩
  | cons statement statements inductionHypothesis =>
      obtain ⟨driver, found⟩ := Option.isSome_iff_exists.mp
        (elaborates statement List.mem_cons_self)
      obtain ⟨net, mapped, listed⟩ := inductionHypothesis fun other membership =>
        elaborates other (List.mem_cons_of_mem _ membership)
      exact ⟨driver :: net, by simp [found, mapped], by simp [found, listed]⟩

/-- A file whose statements all elaborate has a netlist with one driver for each. -/
theorem exists_netlist {file : List Item}
    (elaborates : ∀ statement ∈ statements file, (statement.elaborate library).isSome) :
    ∃ net, netlist library file = some net ∧
      (statements file).map (Statement.elaborate library) = net.map some :=
  mapM_elaborate elaborates

variable {file : List Item} {net : Netlist String Value}

theorem mem_net_iff
    (listed : (statements file).map (Statement.elaborate library) = net.map some)
    (driver : String × Process String Value) :
    driver ∈ net ↔ ∃ statement ∈ statements file,
      statement.elaborate library = some driver := by
  have memberships : some driver ∈ net.map some ↔ driver ∈ net := by simp
  rw [← memberships, ← listed, List.mem_map]

/-- The driven signals, in the order of the statements. -/
theorem map_fst_net
    (listed : (statements file).map (Statement.elaborate library) = net.map some)
    {targets : List String}
    (targeted : (statements file).map (fun statement =>
      (statement.elaborate library).map Prod.fst) = targets.map some) :
    net.map Prod.fst = targets := by
  have mapped : ((statements file).map (Statement.elaborate library)).map
      (Option.map Prod.fst) = targets.map some := by
    rw [List.map_map]
    exact targeted
  rw [listed, List.map_map] at mapped
  have injected : (net.map Prod.fst).map some = targets.map some := by
    rw [List.map_map]
    exact mapped
  exact List.map_injective_iff.mpr (Option.some_injective _) injected

/-- The statements that one description gives under `names` are a view of its circuit. -/
theorem view_of_statements
    (listed : (statements file).map (Statement.elaborate library) = net.map some)
    (singleDriver : (net.map Prod.fst).Nodup)
    {statementOf : Signal → Option (Statement Signal)} {names : Signal → String}
    (included : ∀ signal statement, statementOf signal = some statement →
      statement.map names ∈ statements file ∧
        ∃ process, statement.elaborate library = some (signal, process))
    (undriven : ∀ signal, statementOf signal = none → names signal ∉ net.map Prod.fst) :
    View (circuitOf library statementOf) net.circuit names := by
  intro signal
  cases found : statementOf signal with
  | none => simp [circuitOf, found, Netlist.circuit_eq_none (undriven signal found)]
  | some statement =>
      obtain ⟨membership, process, elaborated⟩ := included signal statement found
      simp only [circuitOf, found, Option.bind_some, elaborated, Option.map_some]
      apply Netlist.circuit_of_mem singleDriver
      apply (mem_net_iff listed _).mpr
      exact ⟨_, membership, by rw [Statement.elaborate_map, elaborated]; rfl⟩

end Netlist

end SeqDetect.Vhdl
