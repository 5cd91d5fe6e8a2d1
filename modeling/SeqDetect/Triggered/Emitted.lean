import SeqDetect.Script.Backend
import SeqDetect.Triggered.Source

/-!
# The file of the data-triggered generator

What `seq_match.py` writes besides comments, as a sketch of the groups that it cuts the
hexified lines into.  The signals `out_s` are declared and not used.
-/

namespace SeqDetect.Triggered

open Delta Vhdl Script

namespace Emitted

def byte_comp (i : ℕ) (pair : String) (k : ℕ) : Statement Name :=
  .instantiate "byte_compare" [("reset", wire .reset),
    ("enable", if k = 0 then wire .enable else wire (.en_and_cmp i (k - 1))),
    ("data_in", wire .input), ("sig_in", .hex pair), ("is_valid", wire (.cmp i pair k))]

def gate (i : ℕ) (pair : String) (k : ℕ) : Statement Name :=
  .assign (.signal (.en_and_cmp i k)) (.and (wire .enable) (wire (.cmp i pair k)))

/-- The match signal of chain `i` if the loop variable is left at group `k`. -/
def matching (i : ℕ) (pair : String) (k : ℕ) : Statement Name :=
  .select (.signal .reset) (.signal (.isMatching i)) [(wire (.cmp i pair k), .logic .zero)]
    (.logic .zero)

def pull (i : ℕ) : Statement Name :=
  .instantiate "pull_up_module" [("enable", wire .enable), ("reset", wire .reset),
    ("isMatching", wire (.isMatching i)), ("out_isMatching", wire (.output i))]

def enable : Statement Name :=
  .select (.signal .data_in) (.signal .enable) [(.logic .zero, .bits "00000000")] (.logic .one)

def input : Statement Name := .assign (.signal .input) (.copy (wire .data_in))

def stageDeclarations (i : ℕ) (stage : String × ℕ) : List (Line Name) :=
  [.signal (.signal (.en_and_cmp i stage.2)) .std_logic none,
    .signal (.signal (.cmp i stage.1 stage.2)) .std_logic none]

def stageStatements (i : ℕ) (stage : String × ℕ) : List (Line Name) :=
  [.statement (some (.byte_comp i stage.1 stage.2)) (byte_comp i stage.1 stage.2),
    .statement (some (.and_s i stage.2)) (gate i stage.1 stage.2)]

def entity (count : ℕ) : List (Line Name) :=
  [Line.port (Name.signal .reset) .input .std_logic,
    .port (.signal .data_in) .input (.std_logic_vector 7 0)] ++
  (List.range count).map fun i => Line.port (Name.signal (.output i)) .output .std_logic

def matchings (count : ℕ) : List (Line Name) :=
  (List.range count).map fun i => Line.signal (Name.signal (.isMatching i)) .std_logic none

/-- The statements before and after those of the chains. -/
def before : List (Line Name) := [.statement none enable, .statement none input]

def after (count : ℕ) : List (Line Name) :=
  (List.range count).map fun i => .statement (some (.pull i)) (pull i)

/-- The signals and ports for these groups. -/
def DeclaredSignal (parts : List (List String)) : Ident → Prop
  | .reset | .data_in | .input | .enable => True
  | .output i | .isMatching i => i < parts.length
  | .cmp i pair k => Stage parts i pair k
  | .en_and_cmp i k => HasStage parts i k
  | .clk | .hold _ | .ff _ _ | .out_and _ _ => False

/-- The names declared for these groups. -/
def Declared (parts : List (List String)) : Name → Prop
  | .signal ident => DeclaredSignal parts ident
  | .byte_compare | .pull_up_module => True
  | .out_s i | .pull i => i < parts.length
  | .byte_comp i pair k => Stage parts i pair k
  | .and_s i k => HasStage parts i k
  | .FF | .flipflop _ _ | .and_ff _ _ | .FF_out _ => False

/-- A line without groups reads a comparator without a byte. -/
def backend : Backend where
  entity := entity
  compares := [.component .byte_compare byte_compare.ports]
  pulls := [.component .pull_up_module pull_up_module.ports]
  signals := [.signal (.signal .enable) .std_logic none,
    .signal (.signal .input) (.std_logic_vector 7 0) none]
  stageSignals := stageDeclarations
  chainSignals i := [.signal (.out_s i) .std_logic (some .zero)]
  matchings := matchings
  declared := Declared
  before := before
  stages := stageStatements
  matching i groups := matching i (groups.getLastD "") (groups.length - 1)
  after := after
  stale i j := matching i "" (j / 2)
  missing i j := .signal (.cmp i "" (j / 2))

abbrev sketch (parts : List (List String)) : List (Line Name) := backend.sketch parts

theorem split : backend.Split where
  declarations parts := by
    rw [Sketch.statements, Backend.filterMap_declarations]
    simp [backend, entity, matchings, stageDeclarations, Line.statement?, Function.comp_def]
  before := by simp [backend, before, Line.isStatement]
  stages i stage := by simp [backend, stageStatements, Line.isStatement]
  after count := by simp [backend, after, Line.isStatement]

section Contents

variable (parts : List (List String))

theorem declared_sketch :
    Sketch.declared (sketch parts) =
      [Name.signal .reset, .signal .data_in] ++
      (List.range parts.length).map (fun i => Name.signal (.output i)) ++
      [Name.byte_compare, .pull_up_module, .signal .enable, .signal .input] ++
      parts.zipIdx.flatMap (fun part => part.1.zipIdx.flatMap (fun stage =>
        [Name.signal (.en_and_cmp part.2 stage.2), .signal (.cmp part.2 stage.1 stage.2)]) ++
        [Name.out_s part.2]) ++
      (List.range parts.length).map (fun i => Name.signal (.isMatching i)) ++
      parts.zipIdx.flatMap (fun part => part.1.zipIdx.flatMap fun stage =>
        [Name.byte_comp part.2 stage.1 stage.2, .and_s part.2 stage.2]) ++
      (List.range parts.length).map (fun i => Name.pull i) := by
  simp only [Sketch.declared, sketch, Backend.sketch, Backend.declarations, Backend.chains,
    backend, entity, matchings, before, after, List.filterMap_append, List.filterMap_flatMap,
    List.filterMap_map, List.filterMap_cons, List.filterMap_nil, Line.declares, stageDeclarations,
    stageStatements, Function.comp_def, List.filterMap_eq_map', List.append_nil, List.append_assoc]
  rfl

theorem mem_declared (name : Name) :
    name ∈ Sketch.declared (sketch parts) ↔ Declared parts name := by
  rw [declared_sketch]
  cases name with
  | signal ident =>
      cases ident <;>
        simp [List.mem_zipIdx_iff_getElem?, Declared, DeclaredSignal, HasStage, Stage]
  | _ => simp [List.mem_zipIdx_iff_getElem?, Declared, HasStage, Stage, exists_groups]

theorem typed : ∀ line ∈ sketch parts, Typed line := by
  simp only [Backend.sketch, Backend.declarations, Backend.chains, backend, entity, matchings,
    before, after, List.forall_mem_append, List.forall_mem_flatMap, List.forall_mem_map,
    List.forall_mem_cons, stageDeclarations, stageStatements, Typed, Ident.type]
  simp

theorem statements_sketch :
    Sketch.statements (sketch parts) =
      [enable, input] ++
      parts.zipIdx.flatMap (fun part => part.1.zipIdx.flatMap (fun stage =>
        [byte_comp part.2 stage.1 stage.2, gate part.2 stage.1 stage.2]) ++
        [matching part.2 (part.1.getLastD "") (part.1.length - 1)]) ++
      (List.range parts.length).map pull := by
  rw [split.statements_sketch]
  simp [Sketch.statements, backend, before, after, stageStatements, Line.statement?,
    Function.comp_def]

theorem components_sketch :
    Sketch.components (sketch parts) =
      [(.byte_compare, byte_compare.ports), (.pull_up_module, pull_up_module.ports)] := by
  rw [Sketch.components, split.filterMap_sketch fun _ _ => rfl, Backend.filterMap_declarations]
  simp [backend, entity, matchings, stageDeclarations, Line.component?, Function.comp_def,
    List.filterMap_cons]

/-- The components are declared with the ports of their entities. -/
theorem componentPorts_sketch :
    componentPorts (Sketch.render Name.text (sketch parts)) "byte_compare" = byte_compare.ports ∧
      componentPorts (Sketch.render Name.text (sketch parts)) "pull_up_module" =
        pull_up_module.ports := by
  simp only [componentPorts, Sketch.components_render, components_sketch]
  exact ⟨rfl, rfl⟩

theorem inputs_sketch :
    Sketch.inputs (sketch parts) = [.signal .reset, .signal .data_in] := by
  rw [Sketch.inputs, split.filterMap_sketch fun _ _ => rfl, Backend.filterMap_declarations]
  simp [backend, entity, matchings, stageDeclarations, Line.input?, Function.comp_def]

theorem driven_sketch :
    backend.driven parts =
      [Name.signal .reset, .signal .data_in, .signal .enable, .signal .input] ++
      parts.zipIdx.flatMap (fun part => part.1.zipIdx.flatMap (fun stage =>
        [Name.signal (.cmp part.2 stage.1 stage.2), .signal (.en_and_cmp part.2 stage.2)]) ++
        [Name.signal (.isMatching part.2)]) ++
      (List.range parts.length).map (fun i => Name.signal (.output i)) := by
  obtain ⟨compares, holds⟩ := componentPorts_sketch parts
  have instances :
      (∀ i pair k, (byte_comp i pair k).driven
        (componentPorts (Sketch.render Name.text (sketch parts))) = [.signal (.cmp i pair k)]) ∧
      ∀ i, (pull i).driven (componentPorts (Sketch.render Name.text (sketch parts))) =
        [.signal (.output i)] := by
    simp only [byte_comp, pull, Statement.driven, compares, holds]
    exact ⟨fun _ _ _ => rfl, fun _ => rfl⟩
  have entry : ∀ componentPorts (target : Name),
      (∀ waveform, (Statement.assign target waveform).driven componentPorts = [target]) ∧
      ∀ selector choices otherwise,
        (Statement.select selector target choices otherwise).driven componentPorts = [target] :=
    fun _ _ => ⟨fun _ => rfl, fun _ _ _ => rfl⟩
  simp only [Backend.driven, Sketch.driven, inputs_sketch, statements_sketch, List.flatMap_append,
    List.flatMap_assoc, List.flatMap_cons, List.flatMap_nil, gate, matching, enable, input, entry,
    instances, List.append_nil, List.map_eq_flatMap, List.cons_append, List.nil_append]

/-- The order in which the kinds of names are declared. -/
def kind : Name → ℕ
  | .signal (.output _) => 1
  | .byte_compare | .pull_up_module | .signal .enable | .signal .input => 2
  | .signal (.en_and_cmp ..) | .signal (.cmp ..) | .out_s _ => 3
  | .signal (.isMatching _) => 4
  | .byte_comp .. | .and_s .. => 5
  | .pull _ => 6
  | _ => 0

theorem nodup_declared : (Sketch.declared (sketch parts)).Nodup := by
  have ports : Kinds kind 1 [Name.signal .reset, .signal .data_in] :=
    ⟨by decide, by simp [kind]⟩
  have signals := nodup_chains parts (fun i stage =>
    [Name.signal (.en_and_cmp i stage.2), .signal (.cmp i stage.1 stage.2)])
    (fun i => Name.out_s i) (by simp) (by simp +contextual) (by simp) (by simp)
  have labels := nodup_stages parts (fun i stage =>
    [Name.byte_comp i stage.1 stage.2, .and_s i stage.2]) (by simp) (by simp +contextual)
  rw [declared_sketch]
  suffices ordered : Kinds kind 7 _ from ordered.nodup
  refine Kinds.append ?_ 6 (nodup_numbered (by simp) _) (by simp [kind]) le_rfl
  refine Kinds.append ?_ 5 labels (by simp +contextual [kind, or_imp]) le_rfl
  refine Kinds.append ?_ 4 (nodup_numbered (by simp) _) (by simp [kind]) le_rfl
  refine Kinds.append ?_ 3 signals (by simp +contextual [kind, or_imp]) le_rfl
  refine Kinds.append ?_ 2 (by decide) (by simp [kind]) le_rfl
  exact ports.append 1 (nodup_numbered (by simp) _) (by simp [kind]) le_rfl

/-- The order in which the kinds of signals are driven. -/
def drivenKind : Name → ℕ
  | .signal (.cmp ..) | .signal (.en_and_cmp ..) | .signal (.isMatching _) => 1
  | .signal (.output _) => 2
  | _ => 0

theorem nodup_driven : (backend.driven parts).Nodup := by
  have ports : Kinds drivenKind 1
      [Name.signal .reset, .signal .data_in, .signal .enable, .signal .input] :=
    ⟨by decide, by simp [drivenKind]⟩
  have chains := nodup_chains parts (fun i stage =>
    [Name.signal (.cmp i stage.1 stage.2), .signal (.en_and_cmp i stage.2)])
    (fun i => Name.signal (.isMatching i)) (by simp) (by simp +contextual) (by simp) (by simp)
  rw [driven_sketch]
  suffices ordered : Kinds drivenKind 3 _ from ordered.nodup
  refine Kinds.append ?_ 2 (nodup_numbered (by simp) _) (by simp [drivenKind]) le_rfl
  exact ports.append 1 chains (by simp +contextual [drivenKind, or_imp]) le_rfl

/-- What holds of each kind of statement holds of all of them. -/
theorem forall_statements {property : Statement Name → Prop}
    (inputs : property enable ∧ property input)
    (stages : ∀ i pair k, Stage parts i pair k →
      property (byte_comp i pair k) ∧ property (gate i pair k))
    (endings : ∀ i groups, parts[i]? = some groups →
      property (matching i (groups.getLastD "") (groups.length - 1)))
    (outputs : ∀ i < parts.length, property (pull i)) :
    ∀ statement ∈ Sketch.statements (sketch parts), property statement := by
  intro statement membership
  rw [statements_sketch] at membership
  simp only [List.mem_append, List.mem_cons, List.not_mem_nil, or_false, List.mem_map,
    List.mem_range, List.mem_flatMap, Prod.exists, List.mem_zipIdx_iff_getElem?] at membership
  rcases membership with ((rfl | rfl) | ⟨groups, i, listed, inChain⟩) | ⟨i, bound, rfl⟩
  · exact inputs.1
  · exact inputs.2
  · rcases inChain with ⟨pair, k, found, same⟩ | rfl
    · obtain ⟨compares, gates⟩ := stages i pair k ⟨groups, listed, found⟩
      rcases same with rfl | rfl
      · exact compares
      · exact gates
    · exact endings i groups listed
  · exact outputs i bound

end Contents

section Soundness

variable {parts : List (List String)}

variable (grouped : Grouped parts)
include grouped

theorem uses_declared : ∀ statement ∈ Sketch.statements (sketch parts),
    Uses (DeclaredSignal parts) statement := by
  apply forall_statements
  · constructor <;> simp [Uses, enable, input, Statement.names, Waveform.reads, Operand.reads,
      DeclaredSignal]
  · intro i pair k stage
    have has := stage.hasStage
    constructor
    · by_cases first : k = 0
      · subst first
        simp [Uses, byte_comp, Statement.names, Operand.reads, DeclaredSignal, stage]
      · simp [Uses, byte_comp, first, Statement.names, Operand.reads, DeclaredSignal, stage,
          has.of_le (Nat.sub_le k 1)]
    · simp [Uses, gate, Statement.names, Waveform.reads, Operand.reads, DeclaredSignal, stage, has]
  · intro i groups listed
    have last := grouped.lastStage listed
    generalize groups.getLastD "" = pair at last ⊢
    simp [Uses, matching, Statement.names, Operand.reads, DeclaredSignal, last, last.hasStage.lt]
  · intro i bound
    simp [Uses, pull, Statement.names, Operand.reads, DeclaredSignal, bound]

theorem port_maps : ∀ statement ∈ Sketch.statements (sketch parts),
    Sketch.StatementSuits Name.text (sketch parts) statement := by
  have compares : (Name.byte_compare, byte_compare.ports) ∈ Sketch.components (sketch parts) := by
    simp [components_sketch]
  have holds : (Name.pull_up_module, pull_up_module.ports) ∈ Sketch.components (sketch parts) := by
    simp [components_sketch]
  have aligned {formal : String} {ident : Ident} {port : Port} (name : formal = port.name)
      (declared : DeclaredSignal parts ident) :=
    aligned_wire (typed parts) name ((mem_declared parts (.signal ident)).mpr declared)
  apply forall_statements
  · exact ⟨trivial, trivial⟩
  · intro i pair k stage
    have has := stage.hasStage
    refine ⟨⟨_, compares, rfl, ?_⟩, trivial⟩
    refine Sketch.portMapSuits_of_aligned (by decide) ?_
    refine .cons (aligned rfl trivial rfl) (.cons ?_ (.cons (aligned rfl trivial rfl)
      (.cons ⟨rfl, ?_, nofun⟩ (.cons (aligned rfl stage rfl) .nil))))
    · by_cases first : k = 0
      · rw [if_pos first]
        exact aligned rfl trivial rfl
      · rw [if_neg first]
        exact aligned rfl (has.of_le (Nat.sub_le k 1)) rfl
    · change some 8 = some (4 * pair.length)
      rw [(grouped.pair stage).1]
  · exact fun _ _ _ => trivial
  · intro i bound
    refine ⟨_, holds, rfl, ?_⟩
    refine Sketch.portMapSuits_of_aligned (by decide) ?_
    exact .cons (aligned rfl trivial rfl) (.cons (aligned rfl trivial rfl)
      (.cons (aligned rfl bound rfl) (.cons (aligned rfl bound rfl) .nil)))

end Soundness

theorem wired : backend.Wired where
  split := split
  mem_declared := mem_declared
  typed := typed
  mem_driven parts ident declared := by
    rw [driven_sketch]
    cases ident <;>
      simp_all [backend, Declared, DeclaredSignal, List.mem_zipIdx_iff_getElem?, HasStage, Stage]
  nodup_declared := nodup_declared
  nodup_driven := nodup_driven
  stage_of_cmp _ _ _ _ := id
  stage_of_byte_comp _ _ _ _ := id
  uses_declared := uses_declared
  port_maps := port_maps

end Emitted

end SeqDetect.Triggered
