import SeqDetect.Triggered.Ripple

/-!
# The data-triggered detector

Every schedule of changes of `reset` and `data_in` that follows a first reset runs through
the emitted netlist, in either view, and every output then shows the memory of its own
chain.  So one signature does not interfere with another.
-/

namespace SeqDetect.Triggered

open Delta Vhdl Script

/-- The stimulus that an event is for the whole design. -/
def Event.inputs (event : Event) : Netlist.Stimulus String Value :=
  [("reset", .bit event.reset), ("data_in", .byte event.data_in)]

/-- The output of a chain after a schedule that follows a first reset. -/
def fires (signature : List Byte) (data_in : Byte) (events : List Event) : Bool :=
  (events.foldl (Memory.step signature) (.cleared data_in)).output

/-- The same in the synthesis view. -/
def latchFires (signature : List Byte) (data_in : Byte) (events : List Event) : Bool :=
  (events.foldl (Memory.stepLatch signature) (.cleared data_in)).output

/-- After every schedule that follows a first reset, the outputs show `verdict`. -/
def Shows (net : Netlist String Value) (signatures : List (List Byte))
    (verdict : List Byte → Byte → List Event → Bool) : Prop :=
  ∀ powerUp data_in events, ∃ final,
    net.Reaches powerUp ((Event.mk true data_in).inputs :: List.map Event.inputs events) final ∧
      ∀ (i : ℕ) (bound : i < signatures.length),
        final (outputName i) = .bit (verdict signatures[i] data_in events)

theorem exists_run {lines : List (List Byte)} (nonempty : lines ≠ [])
    (admissible : Admissible lines) :
    ∃ net, detector lines = some net ∧ Shows net (signatures lines) fires := by
  obtain ⟨chains, net, bytes, found, realizes⟩ :=
    exists_detector ["reset", "data_in", "sig_in"] nonempty admissible
  refine ⟨net, found, ?_⟩
  intro powerUp data_in events
  obtain ⟨final, reaches, tracks⟩ := realizes.exists_run (Event.mk true data_in).inputs
    Event.inputs (fun _ => rfl) (fun _ _ => rfl) (fun i => written chains[i] data_in)
    powerUp events
  refine ⟨final, reaches, ?_⟩
  intro i bound
  obtain ⟨inChains, same⟩ := getElem_signatures bytes bound
  rw [same]
  exact (tracks ⟨i, inChains⟩).shows

theorem exists_latch_run {lines : List (List Byte)} (nonempty : lines ≠ [])
    (admissible : Admissible lines) :
    ∃ net, synthesized lines = some net ∧ Shows net (signatures lines) latchFires := by
  obtain ⟨chains, net, bytes, found, realizes⟩ :=
    exists_detector ["reset", "enable", "data_in", "sig_in"] nonempty admissible
  refine ⟨net, found, ?_⟩
  intro powerUp data_in events
  obtain ⟨final, reaches, tracks⟩ := realizes.exists_run (Event.mk true data_in).inputs
    Event.inputs (fun _ => rfl) (fun _ _ => rfl) (fun i => synthesizedChain chains[i] data_in)
    powerUp events
  refine ⟨final, reaches, ?_⟩
  intro i bound
  obtain ⟨inChains, same⟩ := getElem_signatures bytes bound
  rw [same]
  exact (tracks ⟨i, inChains⟩).1.shows

/-- Two outputs of two netlists are equal after every schedule that follows a first
reset. -/
def SameOutput (net : Netlist String Value) (output : String) (other : Netlist String Value)
    (otherOutput : String) : Prop :=
  ∀ powerUp otherPowerUp data_in events, ∃ final otherFinal,
    net.Reaches powerUp ((Event.mk true data_in).inputs :: List.map Event.inputs events) final ∧
    other.Reaches otherPowerUp ((Event.mk true data_in).inputs :: List.map Event.inputs events)
      otherFinal ∧
    final output = otherFinal otherOutput

/-- Outputs are equal after every schedule exactly when their verdicts are. -/
theorem sameOutput_iff {net other : Netlist String Value} {own others : List (List Byte)}
    {verdict otherVerdict : List Byte → Byte → List Event → Bool}
    (runs : Shows net own verdict) (otherRuns : Shows other others otherVerdict)
    {i j : ℕ} (bound : i < own.length) (otherBound : j < others.length) :
    SameOutput net (outputName i) other (outputName j) ↔
      ∀ data_in events,
        verdict own[i] data_in events = otherVerdict others[j] data_in events := by
  constructor
  · intro same data_in events
    obtain ⟨final, otherFinal, reaches, otherReaches, equal⟩ :=
      same (fun _ => .bit false) (fun _ => .bit false) data_in events
    obtain ⟨_, reached, outputs⟩ := runs (fun _ => .bit false) data_in events
    obtain ⟨_, otherReached, otherOutputs⟩ := otherRuns (fun _ => .bit false) data_in events
    obtain rfl := reaches.unique reached
    obtain rfl := otherReaches.unique otherReached
    rwa [outputs i bound, otherOutputs j otherBound, Value.bit_inj] at equal
  · intro same powerUp otherPowerUp data_in events
    obtain ⟨final, reaches, outputs⟩ := runs powerUp data_in events
    obtain ⟨otherFinal, otherReaches, otherOutputs⟩ := otherRuns otherPowerUp data_in events
    refine ⟨final, otherFinal, reaches, otherReaches, ?_⟩
    rw [outputs i bound, otherOutputs j otherBound, same]

theorem signatures_do_not_interfere {lines : List (List Byte)} (admissible : Admissible lines)
    {i : ℕ} (bound : i < (sort lines).length) :
    ∃ net alone, detector lines = some net ∧ detector [(sort lines)[i]] = some alone ∧
      SameOutput net (outputName i) alone (outputName 0) := by
  have inLines : (sort lines)[i] ∈ lines :=
    (List.perm_insertionSort _ _).mem_iff.mp (List.getElem_mem bound)
  have aloneAdmissible : Admissible [(sort lines)[i]] := by
    intro line membership
    rw [List.mem_singleton.mp membership]
    exact admissible _ inLines
  obtain ⟨net, found, runs⟩ := exists_run (List.ne_nil_of_mem inLines) admissible
  obtain ⟨alone, aloneFound, aloneRuns⟩ := exists_run (List.cons_ne_nil _ _) aloneAdmissible
  refine ⟨net, alone, found, aloneFound, ?_⟩
  have whole : i < (signatures lines).length := by
    simpa [signatures] using bound
  have first : 0 < (signatures [(sort lines)[i]]).length := by
    simp [signatures, sort]
  rw [sameOutput_iff runs aloneRuns whole first]
  intro data_in events
  simp [signatures, sort]

/-- The second of `at`, `bat`, `cat`, `cater`. -/
theorem signatures_do_not_interfere_bat :
    ∃ net alone,
      detector [[0x61, 0x74], [0x62, 0x61, 0x74], [0x63, 0x61, 0x74],
        [0x63, 0x61, 0x74, 0x65, 0x72]] = some net ∧
      detector [(sort [[0x61, 0x74], [0x62, 0x61, 0x74], [0x63, 0x61, 0x74],
        [0x63, 0x61, 0x74, 0x65, 0x72]])[1]] = some alone ∧
      SameOutput net (outputName 1) alone (outputName 0) :=
  signatures_do_not_interfere (by decide) (by decide)

end SeqDetect.Triggered
