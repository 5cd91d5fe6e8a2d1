import SeqDetect.Triggered.Detector

/-!
# Reset erases all history

Whatever happened before it, a reset that has settled leaves a chain with the same memory.
So two runs that go on alike from a reset show the same outputs ever after.
-/

namespace SeqDetect.Triggered

open Delta Vhdl Script

section Chains

variable {signature : Signature} {state : State signature}

/-- Every event takes a chain at rest to a chain at rest. -/
theorem written_settles (settled : Settled state) (event : Event) :
    Lands (writtenCircuit signature) 5 ⟨state, Netlist.poke state event.stimulus⟩ Settled := by
  have gates := chain_gates ["data_in", "sig_in"] signature
  have start := settled.start event
  exact ⟨written_stable start, gates.settled start (written_stable start)⟩

/-- A reset clears a chain at rest. -/
theorem written_resets (settled : Settled state) (data_in : Byte) :
    Lands (writtenCircuit signature) 5 ⟨state, Netlist.poke state (Event.mk true data_in).stimulus⟩
      (Holds (.cleared data_in)) := by
  have stable := written_stable (settled.start ⟨true, data_in⟩)
  exact ⟨stable, (chain_gates ["data_in", "sig_in"] signature).holds_cleared settled data_in
    stable⟩

/-- After the whole `history` the chain is at rest, and it recalls what followed any of
the resets in it. -/
structure Recalls (signature : Signature) (history : List Event) (state : State signature) :
    Prop where
  settled : Settled state
  holds : ∀ prior data_in events, history = prior ++ ⟨true, data_in⟩ :: events →
    Holds (events.foldl (Memory.step signature.bytes) (.cleared data_in)) state

theorem recalls_nil (settled : Settled state) : Recalls signature [] state where
  settled := settled
  holds := by
    intro prior data_in events split
    simp at split

theorem Recalls.step {history : List Event} (recalls : Recalls signature history state)
    (event : Event) :
    Lands (writtenCircuit signature) 5 ⟨state, Netlist.poke state event.stimulus⟩
      (Recalls signature (history ++ [event])) := by
  have settles := written_settles recalls.settled event
  refine ⟨settles.1, settles.2, ?_⟩
  intro prior data_in events split
  induction events using List.reverseRecOn with
  | nil =>
      obtain ⟨-, rfl⟩ := List.append_singleton_inj.mp split
      exact (written_resets recalls.settled data_in).2
  | append_singleton events latest _ =>
      rw [← List.cons_append, ← List.append_assoc, List.append_singleton_inj] at split
      obtain ⟨earlier, rfl⟩ := split
      rw [List.foldl_append]
      exact (written_step (recalls.holds prior data_in events earlier) event).2

/-- A chain that starts with any event. -/
def writtenFrom (signature : Signature) (first : Event) :
    Discipline (writtenCircuit signature) first.stimulus Event.stimulus where
  bound := 5
  Rests := Settled
  Tracks past := Recalls signature (first :: past)
  initial state := (written signature 0).initial state
  start settled := (recalls_nil settled).step first
  step event recalls := recalls.step event

end Chains

/-- A run with a reset in it shows what the run from that reset on would show. -/
theorem exists_run_after {lines : List (List Byte)} (nonempty : lines ≠ [])
    (admissible : Admissible lines) :
    ∃ net, detector lines = some net ∧ ∀ powerUp prior data_in events, ∃ final,
      net.Reaches powerUp (List.map Event.inputs (prior ++ ⟨true, data_in⟩ :: events)) final ∧
      ∀ (i : ℕ) (bound : i < (signatures lines).length),
        final (outputName i) = .bit (fires (signatures lines)[i] data_in events) := by
  obtain ⟨chains, net, bytes, found, realizes⟩ :=
    exists_detector ["reset", "data_in", "sig_in"] nonempty admissible
  refine ⟨net, found, ?_⟩
  intro powerUp prior data_in events
  obtain ⟨first, rest, split⟩ := List.exists_cons_of_ne_nil
    (List.append_ne_nil_of_right_ne_nil prior (List.cons_ne_nil ⟨true, data_in⟩ events))
  obtain ⟨final, reaches, tracks⟩ := realizes.exists_run first.inputs Event.inputs
    (fun _ => rfl) (fun _ _ => rfl) (fun i => writtenFrom chains[i] first) powerUp rest
  rw [split]
  refine ⟨final, reaches, ?_⟩
  intro i bound
  obtain ⟨inChains, same⟩ := getElem_signatures bytes bound
  rw [same]
  exact ((tracks ⟨i, inChains⟩).holds prior data_in events split.symm).shows

/-- From a settled reset on, an output is the same in any two runs that receive the same
events from this reset on. -/
def ForgetsBeforeReset (net : Netlist String Value) (output : String) : Prop :=
  ∀ powerUp otherPowerUp prior otherPrior data_in events, ∃ final otherFinal,
    net.Reaches powerUp (List.map Event.inputs (prior ++ ⟨true, data_in⟩ :: events)) final ∧
    net.Reaches otherPowerUp (List.map Event.inputs (otherPrior ++ ⟨true, data_in⟩ :: events))
      otherFinal ∧
    final output = otherFinal output

theorem reset_erases_history {lines : List (List Byte)} (admissible : Admissible lines) :
    ∃ net, detector lines = some net ∧
      ∀ i < lines.length, ForgetsBeforeReset net (outputName i) := by
  by_cases nonempty : lines = []
  · subst nonempty
    exact ⟨_, rfl, fun i bound => absurd bound (Nat.not_lt_zero i)⟩
  · obtain ⟨net, found, runs⟩ := exists_run_after nonempty admissible
    refine ⟨net, found, ?_⟩
    intro i bound powerUp otherPowerUp prior otherPrior data_in events
    have inSignatures : i < (signatures lines).length := by
      simpa [signatures, sort] using bound
    obtain ⟨final, reaches, outputs⟩ := runs powerUp prior data_in events
    obtain ⟨otherFinal, otherReaches, otherOutputs⟩ := runs otherPowerUp otherPrior data_in events
    refine ⟨final, otherFinal, reaches, otherReaches, ?_⟩
    rw [outputs i inSignatures, otherOutputs i inSignatures]

theorem reset_erases_history_ab :
    ∃ net, detector [[0x61, 0x62, 0x0a], [0x62]] = some net ∧
      ∀ i < 2, ForgetsBeforeReset net (outputName i) :=
  reset_erases_history (by decide : Admissible [[0x61, 0x62, 0x0a], [0x62]])

end SeqDetect.Triggered
