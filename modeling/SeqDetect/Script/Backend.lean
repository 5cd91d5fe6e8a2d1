import SeqDetect.Script.Generator
import SeqDetect.Script.Wires

/-!
# Back ends

The two generators call the same functions in the same order and fail for the same lines.
What they do with a file follows from what these functions write for the groups of each line.
-/

namespace SeqDetect.Script

open Delta Vhdl

/-- The functions that `main` and `seq_detect_arch` call, in this order. -/
structure Phases where
  seq_detect_header : ℕ → Emit Unit
  seq_detect_comps : Emit Unit
  pull_up_comps : Emit Unit
  /-- What `seq_detect_signals` writes first, and the body of its loop. -/
  signals : Emit Unit
  signatureSignals : ℕ → String → Emit Unit
  pull_up_signals : ℕ → Emit Unit
  inputs : Emit Unit
  portsFrom : ℕ → Option ℕ → List String → Emit Unit
  pull_up_port : ℕ → Emit Unit

namespace Phases

variable (phases : Phases)

def seq_detect_signals (hex_list : List String) : Emit Unit := do
  phases.signals
  hex_list.zipIdx.forM fun (hexVal, i) => phases.signatureSignals i hexVal

def main (lines : List (List Byte)) : Emit Unit := do
  phases.seq_detect_header (sort lines).length
  phases.seq_detect_comps
  phases.pull_up_comps
  phases.seq_detect_signals (hexify (sort lines))
  phases.pull_up_signals (hexify (sort lines)).length
  phases.inputs
  phases.portsFrom 0 none (hexify (sort lines))
  phases.pull_up_port (hexify (sort lines)).length

variable {phases} {lines : List (List Byte)}

theorem fails_of_signals (fails : (phases.seq_detect_signals (hexify (sort lines))).Fails) :
    (phases.main lines).Fails :=
  Emit.Fails.of_next fun _ => Emit.Fails.of_next fun _ => Emit.Fails.of_next fun _ => fails.bind

theorem fails_of_ports (fails : (phases.portsFrom 0 none (hexify (sort lines))).Fails) :
    (phases.main lines).Fails :=
  Emit.Fails.of_next fun _ => Emit.Fails.of_next fun _ => Emit.Fails.of_next fun _ =>
    Emit.Fails.of_next fun _ => Emit.Fails.of_next fun _ => Emit.Fails.of_next fun _ => fails.bind

/-- The whole run, given what the functions write. -/
theorem main_codes {entity compares pulls signals matching before ports after : List Item}
    {texts more : List (List Byte)}
    (headerCodes : (phases.seq_detect_header (sort lines).length).Codes entity [])
    (comparesCodes : phases.seq_detect_comps.Codes compares [])
    (pullsCodes : phases.pull_up_comps.Codes pulls [])
    (signalsCodes : (phases.seq_detect_signals (hexify (sort lines))).Codes signals texts)
    (matchingCodes : (phases.pull_up_signals (hexify (sort lines)).length).Codes matching [])
    (inputsCodes : phases.inputs.Codes before [])
    (portsCodes : (phases.portsFrom 0 none (hexify (sort lines))).Codes ports more)
    (outputsCodes : (phases.pull_up_port (hexify (sort lines)).length).Codes after []) :
    (phases.main lines).Codes
      (entity ++ (compares ++ (pulls ++ (signals ++ (matching ++ (before ++ (ports ++ after)))))))
      (texts ++ more) :=
  headerCodes.silent_then (comparesCodes.silent_then (pullsCodes.silent_then (signalsCodes.then
    (matchingCodes.silent_then (inputsCodes.silent_then (portsCodes.then_silent outputsCodes))))))

end Phases

section Signals

variable {ofGroup : String × ℕ → List (Line Name)}

/-- The loop over the groups of a line. -/
theorem codes_groups {hexVal : String} {stageSignals : ℕ → Emit Unit}
    (each : ∀ j ∈ evens hexVal.length, (stageSignals j).Codes
      (rendered (ofGroup (slice hexVal j (j + 2), j / 2))) [decoded (slice hexVal j (j + 2))]) :
    ((evens hexVal.length).forM stageSignals).Codes
      (rendered ((groups hexVal).zipIdx.flatMap ofGroup))
      ((evens hexVal.length).map fun j => decoded (slice hexVal j (j + 2))) := by
  have codes := Emit.codes_forM each
  rwa [rendered_flatMap, zipIdx_groups, List.flatMap_map, List.map_eq_flatMap]

/-- The loop over the lines. -/
theorem codes_lines {ofPart : List String × ℕ → List (Line Name)}
    {signatureSignals : ℕ → String → Emit Unit} {hex_list : List String}
    (each : ∀ hexVal ∈ hex_list, ∀ i,
      (signatureSignals i hexVal).Codes (rendered (ofPart (groups hexVal, i))) (remarks hexVal)) :
    (hex_list.zipIdx.forM fun (hexVal, i) => signatureSignals i hexVal).Codes
      (rendered ((hex_list.map groups).zipIdx.flatMap ofPart)) (hex_list.flatMap remarks) := by
  have codes : (hex_list.zipIdx.forM fun (hexVal, i) => signatureSignals i hexVal).Codes
      (hex_list.zipIdx.flatMap fun entry : String × ℕ =>
        rendered (ofPart (groups entry.1, entry.2)))
      (hex_list.zipIdx.flatMap fun entry : String × ℕ => remarks entry.1) :=
    Emit.codes_forM fun entry membership =>
      each entry.1 (List.fst_mem_of_mem_zipIdx membership) entry.2
  have texts : hex_list.zipIdx.flatMap (fun entry => remarks entry.1) =
      hex_list.flatMap remarks := by
    conv_rhs => rw [← List.zipIdx_map_fst 0 hex_list, List.flatMap_map]
  rw [texts] at codes
  rwa [rendered_flatMap, List.zipIdx_map, List.flatMap_map]

end Signals

/-- A loop over the lines that decodes each of them stops at an odd number of digits. -/
theorem fails_of_odd {lines : List (List Byte)} {line : List Byte} (membership : line ∈ lines)
    (odd : ¬ EvenDigits line) {signatureSignals : ℕ → String → Emit Unit}
    (decodes : ∀ i hexVal, decodeHex hexVal = .error .typeError →
      (signatureSignals i hexVal).Fails) :
    ((hexify (sort lines)).zipIdx.forM fun (hexVal, i) => signatureSignals i hexVal).Fails := by
  obtain ⟨i, found⟩ := List.getElem?_of_mem (mem_hexify_sort.mpr ⟨line, membership, rfl⟩)
  have error : decodeHex (hexifyLine line) = .error .typeError :=
    decodeHex_of_odd (Nat.mod_two_ne_zero.mp (mt even_hexifyLine.mp odd))
  have inLoop : (hexifyLine line, i) ∈ (hexify (sort lines)).zipIdx :=
    List.mem_zipIdx_iff_getElem?.mpr found
  exact Emit.fails_forM inLoop (decodes i _ error)

/-- The loop of `seq_detect_ports`: the statements of a chain and the assignment of its match
signal, which reads the variable `j` of the inner loop after that loop. -/
structure PortsLoop (portsFrom : ℕ → Option ℕ → List String → Emit Unit)
    (chain : ℕ → String → List Item) (ending : ℕ → String → ℕ → Item) : Prop where
  nil : ∀ i j, portsFrom i j [] = pure ()
  unassigned : ∀ i j hexVal rest, (evens hexVal.length).getLast?.or j = none →
    portsFrom i j (hexVal :: rest) =
      Emit.write (chain i hexVal) >>= fun _ => Emit.raise .unboundLocalError
  assigned : ∀ i j hexVal rest l, (evens hexVal.length).getLast?.or j = some l →
    portsFrom i j (hexVal :: rest) =
      Emit.write (chain i hexVal) >>= fun _ => Emit.write [ending i hexVal l] >>= fun _ =>
        portsFrom (i + 1) (some l) rest

namespace PortsLoop

variable {portsFrom : ℕ → Option ℕ → List String → Emit Unit} {chain : ℕ → String → List Item}
  {ending : ℕ → String → ℕ → Item} (loop : PortsLoop portsFrom chain ending)
include loop

/-- The loop over lines that all have a group. -/
theorem codes {stages : ℕ → String × ℕ → List (Line Name)}
    {matching : ℕ → List String → Statement Name}
    (chains : ∀ i hexVal, chain i hexVal = rendered ((groups hexVal).zipIdx.flatMap (stages i)))
    (endings : ∀ i hexVal, hexVal ≠ "" →
      ending i hexVal (2 * ((groups hexVal).length - 1)) =
        Line.item Name.text (.statement none (matching i (groups hexVal))))
    {hex_list : List String} (nonempty : ∀ hexVal ∈ hex_list, hexVal ≠ "") (i : ℕ)
    (j : Option ℕ) :
    (portsFrom i j hex_list).Codes (rendered (((hex_list.map groups).zipIdx i).flatMap fun part =>
      part.1.zipIdx.flatMap (stages part.2) ++ [.statement none (matching part.2 part.1)])) [] := by
  induction hex_list generalizing i j with
  | nil =>
      rw [loop.nil]
      exact ⟨[], rfl, rfl, rfl⟩
  | cons hexVal hex_list inductionHypothesis =>
      have some_group := nonempty hexVal List.mem_cons_self
      have rest := inductionHypothesis
        (fun other membership => nonempty other (List.mem_cons_of_mem _ membership)) (i + 1)
        (some (2 * ((groups hexVal).length - 1)))
      have last : (evens hexVal.length).getLast?.or j =
          some (2 * ((groups hexVal).length - 1)) := by
        rw [getLast?_evens_of_ne some_group, Option.some_or]
      have matched : (Emit.write [ending i hexVal (2 * ((groups hexVal).length - 1))]).Codes
          (rendered [.statement none (matching i (groups hexVal))]) [] :=
        codes_rendered (by rw [endings i hexVal some_group]; rfl)
      rw [loop.assigned i j hexVal hex_list _ last, chains, List.map_cons, List.zipIdx_cons,
        List.flatMap_cons, rendered_append, rendered_append, List.append_assoc]
      exact (codes_rendered rfl).then (matched.then rest)

/-- Once the variable is assigned, it stays so. -/
theorem not_fails_some (hex_list : List String) (i j : ℕ) :
    ¬ (portsFrom i (some j) hex_list).Fails := by
  induction hex_list generalizing i j with
  | nil =>
      rw [loop.nil]
      exact Emit.Writes.not_fails rfl
  | cons hexVal hex_list inductionHypothesis =>
      obtain ⟨l, last⟩ : ∃ l, (evens hexVal.length).getLast?.or (some j) = some l := by
        cases (evens hexVal.length).getLast? <;> exact ⟨_, rfl⟩
      rw [loop.assigned i (some j) hexVal hex_list l last]
      intro fails
      exact inductionHypothesis (i + 1) l fails

/-- Only a first line without groups stops the loop. -/
theorem fails_iff (hex_list : List String) :
    (portsFrom 0 none hex_list).Fails ↔ hex_list.head? = some "" := by
  cases hex_list with
  | nil =>
      rw [loop.nil]
      exact iff_of_false (Emit.Writes.not_fails rfl) (by simp)
  | cons hexVal hex_list =>
      rw [List.head?_cons, Option.some.injEq]
      by_cases empty : hexVal = ""
      · subst empty
        rw [loop.unassigned 0 none "" hex_list rfl]
        exact iff_of_true (Emit.Fails.of_next fun _ => ⟨_, rfl⟩) rfl
      · have last := congrArg (Option.or · none) (getLast?_evens_of_ne empty)
        rw [loop.assigned 0 none hexVal hex_list _ last]
        exact iff_of_false (fun fails => loop.not_fails_some hex_list _ _ fails) empty

/-- For a line without groups the assignment reads the variable of an earlier line, or the
variable was never assigned. -/
theorem stale {hex_list : List String} {m : ℕ} (empty : hex_list[m]? = some "") (i : ℕ)
    (j : Option ℕ) :
    (portsFrom i j hex_list).Fails ∨
      ∃ l, ending (i + m) "" l ∈ (portsFrom i j hex_list).written := by
  induction hex_list generalizing i j m with
  | nil => simp at empty
  | cons hexVal hex_list inductionHypothesis =>
      cases last : (evens hexVal.length).getLast?.or j with
      | none =>
          rw [loop.unassigned i j hexVal hex_list last]
          exact .inl (Emit.Fails.of_next fun _ => ⟨_, rfl⟩)
      | some l =>
          rw [loop.assigned i j hexVal hex_list l last]
          cases m with
          | zero =>
              obtain rfl : hexVal = "" := by simpa using empty
              exact .inr ⟨l, List.mem_append_right _ List.mem_cons_self⟩
          | succ m =>
              have later := inductionHypothesis (by simpa using empty) (i + 1) (some l)
              rw [Nat.add_assoc, Nat.add_comm 1] at later
              rcases later with fails | ⟨k, membership⟩
              · exact .inl (Emit.Fails.of_next fun _ => Emit.Fails.of_next fun _ => fails)
              · exact .inr ⟨k, List.mem_append_right _ (List.mem_append_right _ membership)⟩

/-- The loop declares nothing. -/
theorem objects_written (chains : ∀ i hexVal, objects (chain i hexVal) = [])
    (endings : ∀ i hexVal l, objects [ending i hexVal l] = []) (hex_list : List String) (i : ℕ)
    (j : Option ℕ) : objects (portsFrom i j hex_list).written = [] := by
  induction hex_list generalizing i j with
  | nil =>
      rw [loop.nil]
      rfl
  | cons hexVal hex_list inductionHypothesis =>
      cases last : (evens hexVal.length).getLast?.or j with
      | none =>
          rw [loop.unassigned i j hexVal hex_list last]
          change objects (_ ++ []) = []
          rw [List.append_nil]
          exact chains i hexVal
      | some l =>
          rw [loop.assigned i j hexVal hex_list l last]
          change objects (chain i hexVal ++ ([ending i hexVal l] ++
            (portsFrom (i + 1) (some l) hex_list).written)) = []
          rw [objects_append, objects_append, inductionHypothesis, chains, endings]
          rfl

end PortsLoop

/-- What a back end writes, as sketches over the groups of the lines. -/
structure Backend where
  /-- The ports for this number of lines. -/
  entity : ℕ → List (Line Name)
  compares : List (Line Name)
  pulls : List (Line Name)
  signals : List (Line Name)
  /-- The signals of a stage, and those of a line besides. -/
  stageSignals : ℕ → String × ℕ → List (Line Name)
  chainSignals : ℕ → List (Line Name)
  matchings : ℕ → List (Line Name)
  /-- The names that are declared for these groups, with the labels. -/
  declared : List (List String) → Name → Prop
  before : List (Line Name)
  stages : ℕ → String × ℕ → List (Line Name)
  /-- The assignment of the match signal for a line with these groups. -/
  matching : ℕ → List String → Statement Name
  after : ℕ → List (Line Name)
  /-- The assignment for a line without groups, and a signal that it reads. -/
  stale : ℕ → ℕ → Statement Name
  missing : ℕ → ℕ → Name

namespace Backend

variable (backend : Backend)

def declarations (parts : List (List String)) : List (Line Name) :=
  backend.entity parts.length ++ backend.compares ++ backend.pulls ++ backend.signals ++
    (parts.zipIdx.flatMap fun part =>
      part.1.zipIdx.flatMap (backend.stageSignals part.2) ++ backend.chainSignals part.2) ++
    backend.matchings parts.length

def chains (parts : List (List String)) : List (Line Name) :=
  parts.zipIdx.flatMap fun part => part.1.zipIdx.flatMap (backend.stages part.2) ++
    [.statement none (backend.matching part.2 part.1)]

def sketch (parts : List (List String)) : List (Line Name) :=
  backend.declarations parts ++ backend.before ++ backend.chains parts ++
    backend.after parts.length

/-- The signals with a driver, once for each driver. -/
abbrev driven (parts : List (List String)) : List Name :=
  Sketch.driven (backend.sketch parts) (componentPorts (rendered (backend.sketch parts)))

theorem filterMap_declarations {Result : Type} (pick : Line Name → Option Result)
    (parts : List (List String)) :
    (backend.declarations parts).filterMap pick =
      (backend.entity parts.length).filterMap pick ++ backend.compares.filterMap pick ++
      backend.pulls.filterMap pick ++ backend.signals.filterMap pick ++
      (parts.zipIdx.flatMap fun part =>
        (part.1.zipIdx.flatMap fun stage => (backend.stageSignals part.2 stage).filterMap pick) ++
        (backend.chainSignals part.2).filterMap pick) ++
      (backend.matchings parts.length).filterMap pick := by
  simp only [declarations, List.filterMap_append, List.filterMap_flatMap]

/-- The declarations hold no statements, and what follows them holds nothing else. -/
structure Split : Prop where
  declarations : ∀ parts, Sketch.statements (backend.declarations parts) = []
  before : ∀ line ∈ backend.before, line.isStatement
  stages : ∀ i stage, ∀ line ∈ backend.stages i stage, line.isStatement
  after : ∀ count, ∀ line ∈ backend.after count, line.isStatement

namespace Split

variable {backend} (split : backend.Split)
include split

theorem chains (parts : List (List String)) : ∀ line ∈ backend.chains parts, line.isStatement := by
  simp only [Backend.chains, List.forall_mem_flatMap, List.forall_mem_append]
  exact fun part _ => ⟨fun stage _ => split.stages part.2 stage,
    fun line ending => List.mem_singleton.mp ending ▸ trivial⟩

/-- Ports, signals and components are in the declarations. -/
theorem filterMap_sketch {Result : Type} {pick : Line Name → Option Result}
    (skips : ∀ label body, pick (.statement label body) = none) (parts : List (List String)) :
    (backend.sketch parts).filterMap pick = (backend.declarations parts).filterMap pick := by
  rw [sketch, List.filterMap_append, List.filterMap_append, List.filterMap_append,
    Line.filterMap_statements skips split.before,
    Line.filterMap_statements skips (split.chains parts),
    Line.filterMap_statements skips (split.after _), List.append_nil, List.append_nil,
    List.append_nil]

/-- The statements are in the parts behind the declarations. -/
theorem statements_sketch (parts : List (List String)) :
    Sketch.statements (backend.sketch parts) =
      Sketch.statements backend.before ++
      (parts.zipIdx.flatMap fun part => (part.1.zipIdx.flatMap fun stage =>
        Sketch.statements (backend.stages part.2 stage)) ++
        [backend.matching part.2 part.1]) ++
      Sketch.statements (backend.after parts.length) := by
  have declarations := split.declarations parts
  simp only [Sketch.statements, sketch, Backend.chains, List.filterMap_append,
    List.filterMap_flatMap] at declarations ⊢
  rw [declarations, List.nil_append]
  rfl

end Split

/-- Every declared signal has a type and a driver, the statements mention no other signals, and
a pair of digits in a name is that of a stage. -/
structure Wired : Prop where
  split : backend.Split
  mem_declared : ∀ parts name, name ∈ Sketch.declared (backend.sketch parts) ↔
    backend.declared parts name
  typed : ∀ parts, ∀ line ∈ backend.sketch parts, Typed line
  mem_driven : ∀ parts ident, backend.declared parts (.signal ident) →
    .signal ident ∈ backend.driven parts
  nodup_declared : ∀ parts, (Sketch.declared (backend.sketch parts)).Nodup
  nodup_driven : ∀ parts, (backend.driven parts).Nodup
  stage_of_cmp : ∀ parts i pair k, backend.declared parts (.signal (.cmp i pair k)) →
    Stage parts i pair k
  stage_of_byte_comp : ∀ parts i pair k, backend.declared parts (.byte_comp i pair k) →
    Stage parts i pair k
  uses_declared : ∀ {parts}, Grouped parts → ∀ statement ∈ Sketch.statements (backend.sketch parts),
    Uses (fun ident => backend.declared parts (.signal ident)) statement
  port_maps : ∀ {parts}, Grouped parts → ∀ statement ∈ Sketch.statements (backend.sketch parts),
    Sketch.StatementSuits Name.text (backend.sketch parts) statement

namespace Wired

variable {backend} {parts : List (List String)} (wired : backend.Wired)
include wired

theorem lowered (pairs : ∀ groups ∈ parts, ∀ pair ∈ groups, lower pair = pair) {name : Name}
    (membership : name ∈ Sketch.declared (backend.sketch parts)) : name.Lowered := by
  rw [wired.mem_declared] at membership
  have ofStage : ∀ {i pair k}, Stage parts i pair k → lower pair = pair := by
    rintro i pair k ⟨groups, listed, found⟩
    exact pairs groups (List.mem_of_getElem? listed) pair (List.mem_of_getElem? found)
  cases name with
  | signal ident =>
      cases ident with
      | cmp i pair k => exact ofStage (wired.stage_of_cmp parts i pair k membership)
      | _ => trivial
  | byte_comp i pair k => exact ofStage (wired.stage_of_byte_comp parts i pair k membership)
  | _ => trivial

theorem mem_objects {ident : Ident} (declared : backend.declared parts (.signal ident)) :
    (.signal ident, ident.type) ∈ Sketch.objects (backend.sketch parts) :=
  object_of_typed (wired.typed parts) ((wired.mem_declared parts _).mpr declared)

theorem sound (grouped : Grouped parts) : Sketch.Sound Name.text (backend.sketch parts) where
  apart first inFirst second inSecond same :=
    Name.lower_inj (wired.lowered grouped.lowered inFirst)
      (wired.lowered grouped.lowered inSecond) same
  distinct := wired.nodup_declared parts
  uses_declared := by
    intro statement membership name used
    obtain ⟨ident, rfl, declared⟩ := wired.uses_declared grouped statement membership name used
    exact ⟨_, wired.mem_objects declared, rfl⟩
  single_driver := wired.nodup_driven parts
  reads_driven := by
    intro statement membership name used
    obtain ⟨ident, rfl, declared⟩ :=
      wired.uses_declared grouped statement membership name (statement.reads_subset_names _ used)
    exact wired.mem_driven parts ident declared
  drives_declared := by
    intro name membership
    rcases List.mem_append.mp membership with inInputs | inStatements
    · exact Sketch.inputs_subset_declared _ inInputs
    · obtain ⟨statement, inSketch, drives⟩ := List.mem_flatMap.mp inStatements
      obtain ⟨ident, rfl, declared⟩ :=
        wired.uses_declared grouped statement inSketch name (statement.driven_subset_names _ drives)
      exact (wired.mem_declared parts _).mpr declared
  port_maps := wired.port_maps grouped

end Wired

end Backend

/-- The functions of a generator write what the back end says.  `chain` and `ending` are the
parts of the loop of `seq_detect_ports`. -/
structure Implements (phases : Phases) (chain : ℕ → String → List Item)
    (ending : ℕ → String → ℕ → Item) (backend : Backend) : Prop where
  header_codes : ∀ count, (phases.seq_detect_header (count + 1)).Codes
    (rendered (backend.entity (count + 1))) []
  comps_codes : phases.seq_detect_comps.Codes (rendered backend.compares) []
  pulls_codes : phases.pull_up_comps.Codes (rendered backend.pulls) []
  signals_codes : phases.signals.Codes (rendered backend.signals) []
  signature_codes : ∀ {hexVal : String}, hexVal.length % 2 = 0 → ∀ i,
    (phases.signatureSignals i hexVal).Codes (rendered
      ((groups hexVal).zipIdx.flatMap (backend.stageSignals i) ++ backend.chainSignals i))
      (remarks hexVal)
  signature_fails : ∀ i hexVal, decodeHex hexVal = .error .typeError →
    (phases.signatureSignals i hexVal).Fails
  matchings_codes : ∀ count, (phases.pull_up_signals count).Codes
    (rendered (backend.matchings count)) []
  inputs_codes : phases.inputs.Codes (rendered backend.before) []
  outputs_codes : ∀ count, (phases.pull_up_port count).Codes (rendered (backend.after count)) []
  nothing : ∃ file, (phases.main []).Writes file ∧ ¬ Complete file
  loop : PortsLoop phases.portsFrom chain ending
  chain_eq : ∀ i hexVal,
    chain i hexVal = rendered ((groups hexVal).zipIdx.flatMap (backend.stages i))
  ending_eq : ∀ i hexVal, hexVal ≠ "" → ending i hexVal (2 * ((groups hexVal).length - 1)) =
    .statement ⟨none, (backend.matching i (groups hexVal)).map Name.text⟩
  ending_stale : ∀ i j, ending i "" j = .statement ⟨none, (backend.stale i j).map Name.text⟩
  ending_statement : ∀ i hexVal j, objects [ending i hexVal j] = []
  wired : backend.Wired
  outputs : ∀ {parts name type}, Line.port name .output type ∈ backend.sketch parts →
    ∃ i < parts.length, name = .signal (.output i)
  declares_output : ∀ {parts : List (List String)} {i : ℕ}, i < parts.length →
    backend.declared parts (.signal (.output i))
  reads_missing : ∀ i k, backend.missing i k ∈ (backend.stale i k).names
  missing_lowered : ∀ i k, (backend.missing i k).Lowered
  undeclared : ∀ {parts : List (List String)} {i}, parts[i]? = some [] → ∀ k,
    ¬ backend.declared parts (backend.missing i k)

namespace Implements

variable {phases : Phases} {chain : ℕ → String → List Item} {ending : ℕ → String → ℕ → Item}
  {backend : Backend} (implements : Implements phases chain ending backend)
include implements

theorem objects_ports (hex_list : List String) :
    objects (phases.portsFrom 0 none hex_list).written = [] := by
  refine implements.loop.objects_written (fun i hexVal => ?_) implements.ending_statement _ _ _
  have none : Sketch.objects ((groups hexVal).zipIdx.flatMap (backend.stages i)) = [] :=
    Line.filterMap_statements (fun _ _ => rfl) (List.forall_mem_flatMap.mpr fun stage _ =>
      implements.wired.split.stages i stage)
  rw [implements.chain_eq, Sketch.objects_render, none]
  rfl

theorem seq_detect_signals_codes {hex_list : List String}
    (even : ∀ hexVal ∈ hex_list, hexVal.length % 2 = 0) :
    (phases.seq_detect_signals hex_list).Codes
      (rendered (backend.signals ++ (hex_list.map groups).zipIdx.flatMap fun part =>
        part.1.zipIdx.flatMap (backend.stageSignals part.2) ++ backend.chainSignals part.2))
      (hex_list.flatMap remarks) := by
  rw [rendered_append]
  exact implements.signals_codes.silent_then (codes_lines fun hexVal membership i =>
    implements.signature_codes (even hexVal membership) i)

/-- The whole run, given what the loop of `seq_detect_ports` writes. -/
theorem main_codes {lines : List (List Byte)} {items : List Item} {texts : List (List Byte)}
    (nonempty : lines ≠ []) (even : ∀ hexVal ∈ hexify (sort lines), hexVal.length % 2 = 0)
    (ports : (phases.portsFrom 0 none (hexify (sort lines))).Codes items texts) :
    (phases.main lines).Codes (rendered (backend.declarations (parts lines) ++ backend.before) ++
      items ++ rendered (backend.after lines.length)) (fileRemarks lines ++ texts) := by
  obtain ⟨count, sameSize, size, hexSize⟩ := exists_count nonempty
  have entity := implements.header_codes count
  have matching := implements.matchings_codes (count + 1)
  have outputs := implements.outputs_codes (count + 1)
  rw [← size] at entity
  rw [← hexSize] at matching outputs
  have codes := Phases.main_codes entity implements.comps_codes implements.pulls_codes
    (implements.seq_detect_signals_codes even) matching implements.inputs_codes ports outputs
  simp only [Backend.declarations, parts, List.length_map, size, hexSize, sameSize,
    rendered_append, List.append_assoc] at codes ⊢
  exact codes

theorem signals_fail {lines : List (List Byte)} {line : List Byte} (membership : line ∈ lines)
    (odd : ¬ EvenDigits line) : (phases.seq_detect_signals (hexify (sort lines))).Fails :=
  Emit.Fails.of_next fun _ => fails_of_odd membership odd implements.signature_fails

theorem codes_of_whole {lines : List (List Byte)} (nonempty : lines ≠ [])
    (whole : ∀ line ∈ lines, Whole line) :
    (phases.main lines).Codes (rendered (backend.sketch (parts lines))) (fileRemarks lines) := by
  have ports := implements.loop.codes implements.chain_eq implements.ending_eq
    (nonempty_of_whole whole) 0 none
  have codes := implements.main_codes nonempty
    (even_hexify fun line inLines => (whole line inLines).even) ports
  rw [List.append_nil] at codes
  rw [Backend.sketch, rendered_append, rendered_append, length_parts]
  exact codes

theorem fails_of_blank_first {lines : List (List Byte)} {line : List Byte}
    (first : line ∈ (sort lines).head?) (blank : rstrip line = []) : (phases.main lines).Fails := by
  refine Phases.fails_of_ports ((implements.loop.fails_iff _).mpr ?_)
  rw [hexify, List.head?_map, Option.mem_def.mp first, Option.map_some,
    hexifyLine_eq_empty.mpr blank]

/-- The runs that come to their end, and what they have written. -/
theorem codes_of_completes {lines : List (List Byte)} (nonempty : lines ≠ [])
    (completes : Completes lines) :
    ∃ texts, (phases.main lines).Codes
      (rendered (backend.declarations (parts lines) ++ backend.before) ++
        code (phases.portsFrom 0 none (hexify (sort lines))).written ++
        rendered (backend.after lines.length)) (fileRemarks lines ++ texts) := by
  obtain ⟨even, some_first⟩ := completes
  rcases Emit.fails_or_codes (phases.portsFrom 0 none (hexify (sort lines))) with fails | codes
  · have first := (implements.loop.fails_iff _).mp fails
    rw [hexify, List.head?_map, Option.map_eq_some_iff] at first
    obtain ⟨line, isFirst, empty⟩ := first
    exact absurd (hexifyLine_eq_empty.mp empty) (some_first line isFirst)
  · exact ⟨_, implements.main_codes nonempty (even_hexify even) codes⟩

theorem completes (lines : List (List Byte)) :
    (∃ file, (phases.main lines).Writes file) ↔ Completes lines := by
  constructor
  · rintro ⟨file, writes⟩
    constructor
    · intro line inLines
      by_contra odd
      exact writes.not_fails (Phases.fails_of_signals (implements.signals_fail inLines odd))
    · intro line first blank
      exact writes.not_fails (implements.fails_of_blank_first first blank)
  · intro completes
    by_cases nonempty : lines = []
    · subst nonempty
      obtain ⟨file, writes, -⟩ := implements.nothing
      exact ⟨file, writes⟩
    · obtain ⟨texts, file, writes, -⟩ := implements.codes_of_completes nonempty completes
      exact ⟨file, writes⟩

/-- A blank line reads a signal that no line declares. -/
theorem nonblank_of_complete {lines : List (List Byte)} {file : List Item}
    (writes : (phases.main lines).Writes file) (complete : Complete file) {line : List Byte}
    (membership : line ∈ lines) : rstrip line ≠ [] := by
  intro blank
  have completes := (implements.completes lines).mp ⟨file, writes⟩
  obtain ⟨texts, items, written, same, -⟩ :=
    implements.codes_of_completes (List.ne_nil_of_mem membership) completes
  obtain rfl : file = items := writes.unique written
  obtain ⟨i, found⟩ := List.getElem?_of_mem
    (mem_hexify_sort.mpr ⟨line, membership, hexifyLine_eq_empty.mpr blank⟩)
  have ports := mt Phases.fails_of_ports writes.not_fails
  obtain ⟨k, stale⟩ := (implements.loop.stale found 0 none).resolve_left ports
  rw [implements.ending_stale, Nat.zero_add] at stale
  have noGroups : (parts lines)[i]? = some [] := by
    rw [parts, List.getElem?_map, found, Option.map_some, groups_eq_nil.mpr rfl]
  have objects_eq : objects file = objects (rendered (backend.sketch (parts lines))) := by
    have split := implements.wired.split
    have declared : Sketch.objects (backend.sketch (parts lines)) =
        Sketch.objects (backend.declarations (parts lines)) :=
      split.filterMap_sketch (fun _ _ => rfl) _
    have silent : objects (rendered backend.before) = [] ∧
        objects (rendered (backend.after lines.length)) = [] := by
      rw [Sketch.objects_render, Sketch.objects_render, Sketch.objects, Sketch.objects,
        Line.filterMap_statements (fun _ _ => rfl) split.before,
        Line.filterMap_statements (fun _ _ => rfl) (split.after _)]
      exact ⟨rfl, rfl⟩
    rw [← objects_code, same, Sketch.objects_render, declared, ← Sketch.objects_render]
    simp only [rendered_append, objects_append, objects_code, implements.objects_ports, silent,
      List.append_nil]
  have inFile : (backend.stale i k).map Name.text ∈ statements file := by
    rw [← statements_code, same]
    refine List.mem_filterMap.mpr ⟨.statement ⟨none, (backend.stale i k).map Name.text⟩, ?_, rfl⟩
    exact List.mem_append_left _ (List.mem_append_right _ (List.mem_filter.mpr ⟨stale, rfl⟩))
  have mentioned : (backend.missing i k).text ∈ ((backend.stale i k).map Name.text).names := by
    rw [Statement.names_map]
    exact List.mem_map_of_mem (implements.reads_missing i k)
  have declared := complete.uses_declared _ inFile _ mentioned
  rw [Declares, objects_eq] at declared
  refine not_declares (fun _ => implements.wired.lowered (lower_parts lines))
    (implements.missing_lowered i k) ?_ declared
  exact mt (implements.wired.mem_declared _ _).mp (implements.undeclared noGroups k)

/-- The outcomes of a generator that implements a back end. -/
theorem generates : Generates phases.main where
  completes := implements.completes
  netlist := by
    intro lines nonempty whole
    obtain ⟨file, writes, same, texts⟩ := implements.codes_of_whole nonempty whole
    have sound := implements.wired.sound (grouped_parts whole)
    have driven {i : ℕ} (bound : i < (parts lines).length) :=
      implements.wired.mem_driven (parts lines) (.output i) (implements.declares_output bound)
    have confined : ∀ text ∈ fileRemarks lines, Confined text :=
      (confined_fileRemarks fun line inLines => (whole line inLines).even).mpr
        fun line inLines => (whole line inLines).confined
    refine ⟨file, writes, wellFormed_of_code ?_, complete_iff_code.mpr ⟨?_, ?_⟩, ?_⟩
    · rw [same]
      exact sound.wellFormed
    · rw [same]
      refine sound.complete fun name type port => ?_
      obtain ⟨i, bound, rfl⟩ := implements.outputs port
      exact driven bound
    · rwa [texts]
    · intro i bound
      rw [← drivers_code, same]
      have inParts := lt_of_lt_of_eq bound (length_parts lines).symm
      exact sound.drivers_eq_one (driven inParts)
  whole := by
    intro lines file writes complete
    have completes := (implements.completes lines).mp ⟨file, writes⟩
    have nonempty : lines ≠ [] := by
      rintro rfl
      obtain ⟨items, written, incomplete⟩ := implements.nothing
      obtain rfl : file = items := writes.unique written
      exact incomplete complete
    obtain ⟨texts, items, written, -, remarks⟩ := implements.codes_of_completes nonempty completes
    obtain rfl : file = items := writes.unique written
    have confined : ∀ text ∈ fileRemarks lines, Confined text := fun text membership =>
      complete.confined text (remarks ▸ List.mem_append_left _ membership)
    exact ⟨nonempty, fun line inLines => ⟨implements.nonblank_of_complete writes complete inLines,
      completes.1 line inLines, (confined_fileRemarks completes.1).mp confined line inLines⟩⟩

end Implements

end SeqDetect.Script
