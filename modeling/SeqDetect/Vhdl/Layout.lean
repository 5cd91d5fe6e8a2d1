import SeqDetect.Vhdl.Elaboration

/-!
# Architectures written by loops

A generator writes some statements once and then, in one or more loops over a list
of parts, the statements that drive the signals of each part.  The netlist of such
an architecture has one driver for each signal, and every part is a view of the
circuit that its own description gives.
-/

namespace SeqDetect.Vhdl

open Delta

/-- What is written for a list of parts.  The names of the `shared` signals do not
depend on the part; the name of a signal that a loop drives determines the index of
its part. -/
structure Layout (Part : Type) where
  Wire : Part → Type
  statementOf : (part : Part) → Wire part → Option (Statement (Wire part))
  name : ℕ → (part : Part) → Wire part → String
  shared : (part : Part) → List (Wire part)
  loops : List ((part : Part) → List (Wire part))
  sharedNames : List String
  head : List (Statement String)
  name_injective : ∀ i part, Function.Injective (name i part)
  name_shared : ∀ i part, (shared part).map (name i part) = sharedNames
  head_eq : ∀ i part, (shared part).filterMap (fun wire =>
    (statementOf part wire).map (Statement.map (name i part))) = head
  nodup : ∀ part, (shared part ++ loops.flatMap fun loop => loop part).Nodup
  driven : ∀ part wire, statementOf part wire ≠ none ↔
    wire ∈ shared part ++ loops.flatMap fun loop => loop part
  apart : ∀ {i k part other} {wire : Wire part} {clash : Wire other},
    wire ∈ (loops.flatMap fun loop => loop part) → name i part wire = name k other clash → i = k

/-- The stage before `j`, or the first one itself, is a stage. -/
theorem pred_lt {n : ℕ} (j : Fin n) : j.val - 1 < n :=
  lt_of_le_of_lt (Nat.sub_le _ _) j.isLt

/-- What a loop over the stages of one part drives, with one signal behind them. -/
theorem nodup_loop {Wire : Type*} {n : ℕ} {stage : Fin n → List Wire} {ending : Wire}
    (each : ∀ j, (stage j).Nodup) (apart : ∀ j k, j ≠ k → (stage j).Disjoint (stage k))
    (ends : ∀ j, ending ∉ stage j) :
    ((List.finRange n).flatMap stage ++ [ending]).Nodup := by
  refine List.Nodup.append ?_ (List.nodup_singleton _) (List.disjoint_singleton.mpr ?_)
  · exact List.nodup_flatMap.mpr
      ⟨fun j _ => each j, (List.nodup_finRange n).imp fun different => apart _ _ different⟩
  · intro membership
    obtain ⟨j, -, inStage⟩ := List.mem_flatMap.mp membership
    exact ends j inStage

theorem zipIdx_unique {α : Type*} {parts : List α} {part other : α} {i : ℕ}
    (first : (part, i) ∈ parts.zipIdx) (second : (other, i) ∈ parts.zipIdx) : part = other := by
  rw [List.mem_zipIdx_iff_getElem?] at first second
  exact Option.some.inj (first.symm.trans second)

theorem zipIdx_pairwise {α : Type*} (parts : List α) :
    parts.zipIdx.Pairwise fun first second => first.2 ≠ second.2 := by
  have indices : (parts.zipIdx.map Prod.snd).Nodup := by
    rw [List.zipIdx_map_snd]
    exact List.nodup_range'
  exact List.pairwise_map.mp indices

namespace Layout

variable {Part : Type} (layout : Layout Part)

/-- The statements of the named signals of one part. -/
def written (i : ℕ) (part : Part) (wires : List (layout.Wire part)) : List (Statement String) :=
  wires.filterMap fun wire =>
    (layout.statementOf part wire).map (Statement.map (layout.name i part))

theorem written_append (i : ℕ) (part : Part) (first second : List (layout.Wire part)) :
    layout.written i part (first ++ second) =
      layout.written i part first ++ layout.written i part second :=
  List.filterMap_append

/-- The statements of the whole architecture. -/
def describes (parts : List Part) : List (Statement String) :=
  layout.head ++ layout.loops.flatMap fun loop =>
    parts.zipIdx.flatMap fun (part, i) => layout.written i part (loop part)

/-- The driven signals, in the order of the statements. -/
def targets (parts : List Part) : List String :=
  layout.sharedNames ++ layout.loops.flatMap fun loop =>
    parts.zipIdx.flatMap fun (part, i) => (loop part).map (layout.name i part)

/-- Every part is a view of its own circuit, and the netlist has no signals beyond those
of the parts. -/
structure Realizes (library : Library) (parts : List Part) (net : Netlist String Value) :
    Prop where
  views : ∀ i : Fin parts.length, View (circuitOf library (layout.statementOf parts[i]))
    net.circuit (layout.name i parts[i])
  covered : ∀ entry ∈ net, ∃ (i : Fin parts.length) (wire : layout.Wire parts[i]),
    entry.1 = layout.name i parts[i] wire

variable {layout} {parts : List Part}

theorem mem_loop_targets {name : String} :
    name ∈ (layout.loops.flatMap fun loop =>
      parts.zipIdx.flatMap fun (part, i) => (loop part).map (layout.name i part)) ↔
    ∃ part i, (part, i) ∈ parts.zipIdx ∧
      ∃ wire ∈ (layout.loops.flatMap fun loop => loop part), layout.name i part wire = name := by
  simp only [List.mem_flatMap, List.mem_map, Prod.exists]
  constructor
  · rintro ⟨loop, inLoops, part, i, listed, wire, inLoop, named⟩
    exact ⟨part, i, listed, wire, ⟨loop, inLoops, inLoop⟩, named⟩
  · rintro ⟨part, i, listed, wire, ⟨loop, inLoops, inLoop⟩, named⟩
    exact ⟨loop, inLoops, part, i, listed, wire, inLoop, named⟩

/-- A signal that a loop drives shares its name with no other signal of any part. -/
theorem eq_of_name {i k : ℕ} {part other : Part} {wire : layout.Wire part}
    {clash : layout.Wire other}
    (inLoop : wire ∈ (layout.loops.flatMap fun loop => loop part))
    (listed : (part, i) ∈ parts.zipIdx) (clashListed : (other, k) ∈ parts.zipIdx)
    (named : layout.name i part wire = layout.name k other clash) :
    i = k ∧ part = other ∧ HEq wire clash := by
  obtain rfl := layout.apart inLoop named
  obtain rfl := zipIdx_unique listed clashListed
  exact ⟨rfl, rfl, heq_of_eq (layout.name_injective i part named)⟩

/-- A wire whose name is shared is one of the shared wires. -/
theorem mem_shared {i : ℕ} {part : Part} {wire : layout.Wire part}
    (named : layout.name i part wire ∈ layout.sharedNames) : wire ∈ layout.shared part := by
  rw [← layout.name_shared i part] at named
  obtain ⟨other, membership, same⟩ := List.mem_map.mp named
  rwa [← layout.name_injective i part same]

theorem nodup_sharedNames (some_part : parts ≠ []) : layout.sharedNames.Nodup := by
  obtain ⟨part, _⟩ := List.exists_mem_of_ne_nil parts some_part
  rw [← layout.name_shared 0 part]
  exact (List.nodup_append.mp (layout.nodup part)).1.map (layout.name_injective 0 part)

theorem nodup_targets (some_part : parts ≠ []) : (layout.targets parts).Nodup := by
  have ofPart : ∀ part, (∀ loop ∈ layout.loops, (loop part).Nodup) ∧
      layout.loops.Pairwise fun first second => (first part).Disjoint (second part) := by
    intro part
    exact List.nodup_flatMap.mp (List.nodup_append.mp (layout.nodup part)).2.1
  have loopsApart : layout.loops.Pairwise fun first second =>
      ∀ part, (first part).Disjoint (second part) := by
    rw [List.pairwise_iff_getElem]
    intro first second firstBound secondBound earlier part
    exact List.pairwise_iff_getElem.mp (ofPart part).2 _ _ firstBound secondBound earlier
  have inLoops : ∀ {loop} {part : Part} {wire : layout.Wire part}, loop ∈ layout.loops →
      wire ∈ loop part → wire ∈ (layout.loops.flatMap fun loop => loop part) :=
    fun membership inLoop => List.mem_flatMap.mpr ⟨_, membership, inLoop⟩
  rw [targets, List.nodup_append]
  refine ⟨nodup_sharedNames some_part, ?_, ?_⟩
  · rw [List.nodup_flatMap]
    constructor
    · intro loop membership
      rw [List.nodup_flatMap]
      refine ⟨fun ⟨part, i⟩ _ =>
        ((ofPart part).1 loop membership).map (layout.name_injective i part), ?_⟩
      refine (zipIdx_pairwise parts).imp ?_
      rintro ⟨part, i⟩ ⟨other, k⟩ different name inFirst inSecond
      obtain ⟨wire, inLoop, rfl⟩ := List.mem_map.mp inFirst
      obtain ⟨clash, -, named⟩ := List.mem_map.mp inSecond
      exact different (layout.apart (inLoops membership inLoop) named.symm)
    · refine loopsApart.imp_of_mem ?_
      intro first second inFirst inSecond disjoint name named clashing
      simp only [List.mem_flatMap, List.mem_map, Prod.exists] at named clashing
      obtain ⟨part, i, listed, wire, inLoop, rfl⟩ := named
      obtain ⟨other, k, clashListed, clash, clashInLoop, same⟩ := clashing
      obtain ⟨rfl, rfl, rfl⟩ := eq_of_name (inLoops inFirst inLoop) listed clashListed same.symm
      exact disjoint part inLoop clashInLoop
  · rintro name isShared other clashing rfl
    obtain ⟨part, i, -, wire, inLoop, rfl⟩ := mem_loop_targets.mp clashing
    have disjoint := (List.nodup_append.mp (layout.nodup part)).2.2
    exact disjoint wire (mem_shared isShared) wire inLoop rfl

/-- An input port is driven by no part. -/
theorem not_mem_targets {i : ℕ} {part : Part} {wire : layout.Wire part}
    (listed : (part, i) ∈ parts.zipIdx) (port : layout.statementOf part wire = none) :
    layout.name i part wire ∉ layout.targets parts := by
  have undriven : wire ∉ layout.shared part ++ layout.loops.flatMap fun loop => loop part :=
    fun membership => (layout.driven part wire).mpr membership port
  rw [targets, List.mem_append, mem_loop_targets]
  rintro (isShared | ⟨other, k, otherListed, clash, inLoop, named⟩)
  · exact undriven (List.mem_append_left _ (mem_shared isShared))
  · obtain ⟨rfl, rfl, rfl⟩ := eq_of_name inLoop otherListed listed named
    exact undriven (List.mem_append_right _ inLoop)

section Elaboration

variable {library : Library}
  (elaborates : ∀ part wire statement, layout.statementOf part wire = some statement →
    ∃ process, statement.elaborate library = some (wire, process))

include elaborates

theorem written_targets (i : ℕ) (part : Part) {wires : List (layout.Wire part)}
    (noPort : ∀ wire ∈ wires, layout.statementOf part wire ≠ none) :
    (layout.written i part wires).map
        (fun statement => (statement.elaborate library).map Prod.fst) =
      (wires.map (layout.name i part)).map some := by
  induction wires with
  | nil => rfl
  | cons wire wires inductionHypothesis =>
      obtain ⟨statement, found⟩ := Option.ne_none_iff_exists'.mp (noPort wire List.mem_cons_self)
      obtain ⟨process, elaborated⟩ := elaborates part wire statement found
      have rest := inductionHypothesis fun other membership =>
        noPort other (List.mem_cons_of_mem _ membership)
      simp only [written] at rest ⊢
      simp [found, Statement.elaborate_map, elaborated, rest]

theorem describes_targets (some_part : parts ≠ []) :
    (layout.describes parts).map (fun statement => (statement.elaborate library).map Prod.fst) =
      (layout.targets parts).map some := by
  have noPort : ∀ part, ∀ wire ∈ layout.shared part ++ layout.loops.flatMap fun loop => loop part,
      layout.statementOf part wire ≠ none :=
    fun part wire => (layout.driven part wire).mpr
  obtain ⟨part, _⟩ := List.exists_mem_of_ne_nil parts some_part
  rw [describes, targets, List.map_append, List.map_append, ← layout.head_eq 0 part,
    ← layout.name_shared 0 part]
  congr 1
  · exact written_targets elaborates 0 part fun wire membership =>
      noPort part wire (List.mem_append_left _ membership)
  · simp only [List.map_flatMap]
    apply List.flatMap_congr
    intro loop membership
    congr 1
    funext ⟨part, i⟩
    exact written_targets elaborates i part fun wire inLoop =>
      noPort part wire (List.mem_append_right _ (List.mem_flatMap.mpr ⟨loop, membership, inLoop⟩))

omit elaborates in
theorem mem_describes {part : Part} {i : ℕ} (listed : (part, i) ∈ parts.zipIdx)
    {wire : layout.Wire part} {statement : Statement (layout.Wire part)}
    (found : layout.statementOf part wire = some statement) :
    statement.map (layout.name i part) ∈ layout.describes parts := by
  have written : ∀ wires, wire ∈ wires →
      statement.map (layout.name i part) ∈ layout.written i part wires := by
    intro wires membership
    exact List.mem_filterMap.mpr ⟨wire, membership, by rw [found]; rfl⟩
  have driven := (layout.driven part wire).mp (by simp [found])
  rw [describes, List.mem_append]
  rcases List.mem_append.mp driven with isShared | inLoops
  · left
    rw [← layout.head_eq i part]
    exact written _ isShared
  · right
    obtain ⟨loop, membership, inLoop⟩ := List.mem_flatMap.mp inLoops
    exact List.mem_flatMap.mpr ⟨loop, membership,
      List.mem_flatMap.mpr ⟨(part, i), listed, written _ inLoop⟩⟩

/-- A file with the statements of the layout has a netlist that realizes it. -/
theorem exists_netlist (some_part : parts ≠ []) {file : List Item}
    (file_eq : statements file = layout.describes parts) :
    ∃ net, netlist library file = some net ∧ layout.Realizes library parts net := by
  have describedTargets := describes_targets elaborates some_part
  rw [← file_eq] at describedTargets
  have allElaborate : ∀ statement ∈ statements file,
      (statement.elaborate library).isSome := by
    intro statement membership
    have target := List.mem_map_of_mem
      (f := fun statement => (Statement.elaborate library statement).map Prod.fst) membership
    rw [describedTargets] at target
    obtain ⟨name, -, found⟩ := List.mem_map.mp target
    exact Option.isSome_map.symm.trans (by rw [← found]; rfl)
  obtain ⟨net, elaborated, listed⟩ := Vhdl.exists_netlist allElaborate
  have targets := map_fst_net listed describedTargets
  have singleDriver : (net.map Prod.fst).Nodup := by
    rw [targets]
    exact nodup_targets some_part
  have indexed : ∀ i : Fin parts.length, (parts[i], i.val) ∈ parts.zipIdx := fun i =>
    List.mem_zipIdx_iff_getElem?.mpr (List.getElem?_eq_getElem i.isLt)
  refine ⟨net, elaborated, ?_, ?_⟩
  · intro i
    apply view_of_statements listed singleDriver
    · intro wire statement found
      rw [file_eq]
      exact ⟨mem_describes (indexed i) found, elaborates _ _ _ found⟩
    · intro wire port
      rw [targets]
      exact not_mem_targets (indexed i) port
  · intro entry membership
    have named : entry.1 ∈ net.map Prod.fst := List.mem_map_of_mem membership
    rw [targets, Layout.targets, List.mem_append, mem_loop_targets] at named
    rcases named with isShared | ⟨part, i, inParts, wire, -, same⟩
    · have first : 0 < parts.length := List.length_pos_iff.mpr some_part
      rw [← layout.name_shared 0 parts[0]] at isShared
      obtain ⟨wire, -, same⟩ := List.mem_map.mp isShared
      exact ⟨⟨0, first⟩, wire, same.symm⟩
    · have found : parts[i]? = some part := List.mem_zipIdx_iff_getElem?.mp inParts
      obtain ⟨bound, rfl⟩ := List.getElem?_eq_some_iff.mp found
      exact ⟨⟨i, bound⟩, wire, same.symm⟩

end Elaboration

/-- A netlist of the layout runs through every list of events, and each part keeps to the
discipline of its own circuit. -/
theorem Realizes.exists_run [∀ part, DecidableEq (layout.Wire part)] {library : Library}
    {net : Netlist String Value} (realizes : layout.Realizes library parts net)
    {Event : Type} (first : Netlist.Stimulus String Value)
    (inputs : Event → Netlist.Stimulus String Value)
    {partFirst : ∀ i : Fin parts.length, Netlist.Stimulus (layout.Wire parts[i]) Value}
    {partInputs : ∀ i : Fin parts.length, Event → Netlist.Stimulus (layout.Wire parts[i]) Value}
    (first_eq : ∀ i : Fin parts.length, first = (partFirst i).rename (layout.name i parts[i]))
    (inputs_eq : ∀ (i : Fin parts.length) event,
      inputs event = (partInputs i event).rename (layout.name i parts[i]))
    (disciplines : ∀ i : Fin parts.length,
      Discipline (circuitOf library (layout.statementOf parts[i])) (partFirst i) (partInputs i))
    (powerUp : String → Value) (events : List Event) :
    ∃ final, net.Reaches powerUp (first :: events.map inputs) final ∧
      ∀ i : Fin parts.length,
        (disciplines i).Tracks events fun wire => final (layout.name i parts[i] wire) :=
  Netlist.reaches_of_disciplines realizes.views realizes.covered
    (fun i => layout.name_injective i parts[i]) first inputs first_eq inputs_eq disciplines
    powerUp events

end Layout

end SeqDetect.Vhdl
