import SeqDetect.Vhdl.Design

/-!
# Well-formed files

What an analyzer checks of a generated file before it is simulated: declarations do not
clash, names are declared, port maps fit their components and signals have one driver.  A
comment plays no part in it as long as its text stays on its line.
-/

namespace SeqDetect.Vhdl

open Delta

/-- Identifiers are compared without regard to case. -/
def lower (name : String) : String := name.map Char.toLower

/-- The name that an item declares; statements declare their labels. -/
def Item.declares : Item → Option String
  | .port declaration => some declaration.name
  | .component declaration => some declaration.name
  | .signal declaration => some declaration.name
  | .comment _ => none
  | .statement labeled => labeled.label

def Item.port? : Item → Option Port
  | .port declaration => some declaration
  | _ => none

def Item.component? : Item → Option ComponentDecl
  | .component declaration => some declaration
  | _ => none

/-- Ports and signals have a type. -/
def Item.object? : Item → Option (String × Subtype)
  | .port declaration => some (declaration.name, declaration.type)
  | .signal declaration => some (declaration.name, declaration.type)
  | _ => none

def Item.comment? : Item → Option (List Byte)
  | .comment text => some text
  | _ => none

def declared (file : List Item) : List String := file.filterMap Item.declares

def ports (file : List Item) : List Port := file.filterMap Item.port?

def components (file : List Item) : List ComponentDecl := file.filterMap Item.component?

def objects (file : List Item) : List (String × Subtype) := file.filterMap Item.object?

def comments (file : List Item) : List (List Byte) := file.filterMap Item.comment?

theorem objects_append (first second : List Item) :
    objects (first ++ second) = objects first ++ objects second :=
  List.filterMap_append

theorem comments_append (first second : List Item) :
    comments (first ++ second) = comments first ++ comments second :=
  List.filterMap_append

def componentPorts (file : List Item) (component : String) : List Port :=
  (((components file).find? fun declaration => declaration.name = component).map
    ComponentDecl.ports).getD []

/-- The number of elements of a vector; a scalar has none. -/
def Subtype.width : Subtype → Option ℕ
  | std_logic => none
  | std_logic_vector left right => some (left + 1 - right)

def portNames (mode : Mode) (ports : List Port) : List String :=
  (ports.filter fun port => port.mode = mode).map Port.name

section Signals

variable {Signal Renamed : Type}

/-- The signals that an instance associates with formal ports of the given mode. -/
def associated (mode : Mode) (ports : List Port) (portMap : List (String × Operand Signal)) :
    List Signal :=
  (portMap.filter fun association => association.1 ∈ portNames mode ports).flatMap
    fun association => association.2.reads

theorem associated_map (mode : Mode) (ports : List Port) (names : Signal → Renamed)
    (portMap : List (String × Operand Signal)) :
    associated mode ports (portMap.map fun association =>
      (association.1, association.2.map names)) = (associated mode ports portMap).map names := by
  simp [associated, List.filter_map, List.flatMap_map, List.map_flatMap, Function.comp_def]

namespace Statement

/-- Every signal that a statement mentions. -/
def names : Statement Signal → List Signal
  | assign target waveform => target :: waveform.reads
  | select selector target choices otherwise =>
      target :: selector :: (choices.flatMap fun choice => choice.1.reads ++ choice.2.reads) ++
        otherwise.reads
  | instantiate _ portMap => portMap.flatMap fun association => association.2.reads

variable (componentPorts : String → List Port)

def driven : Statement Signal → List Signal
  | assign target _ => [target]
  | select _ target _ _ => [target]
  | instantiate component portMap => associated .output (componentPorts component) portMap

def reads : Statement Signal → List Signal
  | assign _ waveform => waveform.reads
  | select selector _ choices otherwise =>
      selector :: (choices.flatMap fun choice => choice.1.reads ++ choice.2.reads) ++
        otherwise.reads
  | instantiate component portMap => associated .input (componentPorts component) portMap

theorem associated_subset (mode : Mode) (ports : List Port)
    (portMap : List (String × Operand Signal)) :
    associated mode ports portMap ⊆ portMap.flatMap fun association => association.2.reads := by
  intro signal membership
  obtain ⟨association, inPortMap, inActual⟩ := List.mem_flatMap.mp membership
  exact List.mem_flatMap.mpr ⟨association, (List.mem_filter.mp inPortMap).1, inActual⟩

/-- What is read is mentioned. -/
theorem reads_subset_names (statement : Statement Signal) :
    statement.reads componentPorts ⊆ statement.names := by
  cases statement with
  | assign target waveform => exact List.subset_cons_self _ _
  | select selector target choices otherwise => exact List.subset_cons_self _ _
  | instantiate component portMap => exact associated_subset _ _ _

/-- What is driven is mentioned. -/
theorem driven_subset_names (statement : Statement Signal) :
    statement.driven componentPorts ⊆ statement.names := by
  cases statement with
  | assign target waveform => exact List.cons_subset_cons _ (List.nil_subset _)
  | select selector target choices otherwise => exact List.cons_subset_cons _ (List.nil_subset _)
  | instantiate component portMap => exact associated_subset _ _ _

variable (naming : Signal → Renamed) (statement : Statement Signal)

theorem names_map : (statement.map naming).names = statement.names.map naming := by
  cases statement <;> simp [map, names, List.flatMap_map, List.map_flatMap]

theorem driven_map :
    (statement.map naming).driven componentPorts =
      (statement.driven componentPorts).map naming := by
  cases statement <;> simp [map, driven, associated_map]

theorem reads_map :
    (statement.map naming).reads componentPorts =
      (statement.reads componentPorts).map naming := by
  cases statement <;> simp [map, reads, associated_map, List.flatMap_map, List.map_flatMap]

end Statement

end Signals

/-- Every driver of the file by the name of its signal.  Input ports are driven from
outside. -/
def driven (file : List Item) : List String :=
  portNames .input (ports file) ++
    (statements file).flatMap (Statement.driven (componentPorts file))

def drivers (file : List Item) (name : String) : ℕ := ((driven file).map lower).count (lower name)

/-- The name is that of a port or of a signal. -/
def Declares (file : List Item) (name : String) : Prop :=
  ∃ object ∈ objects file, lower object.1 = lower name

def Operand.Fits (file : List Item) (type : Subtype) : Operand String → Prop
  | .signal name =>
      ∃ object ∈ objects file, lower object.1 = lower name ∧ object.2.width = type.width
  | .logic _ => type.width = none
  | .bits literal => type.width = some literal.length
  | .hex literal => type.width = some (4 * literal.length)

/-- A port map associates every port of its component with something of the same width, and
output ports with signals. -/
structure PortMapFits (file : List Item) (declaration : ComponentDecl)
    (portMap : List (String × Operand String)) : Prop where
  formals : (portMap.map Prod.fst).Perm (declaration.ports.map Port.name)
  actuals : ∀ association ∈ portMap, ∀ port ∈ declaration.ports, port.name = association.1 →
    association.2.Fits file port.type ∧
      (port.mode = .output → ∃ name, association.2 = .signal name)

def Statement.Fits (file : List Item) : Statement String → Prop
  | instantiate component portMap => ∃ declaration ∈ components file,
      lower declaration.name = lower component ∧ PortMapFits file declaration portMap
  | _ => True

structure WellFormed (file : List Item) : Prop where
  distinct : ((declared file).map lower).Nodup
  uses_declared : ∀ statement ∈ statements file, ∀ name ∈ statement.names, Declares file name
  single_driver : ∀ statement ∈ statements file,
    ∀ name ∈ statement.reads (componentPorts file), drivers file name = 1
  port_maps : ∀ statement ∈ statements file, statement.Fits file

section Comments

/-- Line feed, vertical tab, form feed and carriage return end a line. -/
def endsLine (b : Byte) : Bool := 0x0a ≤ b && b ≤ 0x0d

/-- Space, horizontal tab and no-break space. -/
def isSeparator (b : Byte) : Bool := b = 0x20 || b = 0x09 || b = 0xa0

/-- A line without source: it is blank or holds a comment of its own. -/
def Silent (line : List Byte) : Prop :=
  line.dropWhile isSeparator = [] ∨ [0x2d, 0x2d] <+: line.dropWhile isSeparator

/-- A comment ends with its line, so that what its text has behind a line end is source. -/
def Confined (text : List Byte) : Prop := ∀ line ∈ (text.splitOnP endsLine).tail, Silent line

instance (line : List Byte) : Decidable (Silent line) := inferInstanceAs (Decidable (_ ∨ _))

instance (text : List Byte) : Decidable (Confined text) :=
  inferInstanceAs (Decidable (∀ line ∈ _, _))

theorem confined_of_noLineEnd {text : List Byte} (noLineEnd : ∀ b ∈ text, endsLine b = false) :
    Confined text := by
  rw [Confined, List.splitOnP_eq_singleton noLineEnd]
  exact fun _ membership => absurd membership List.not_mem_nil

/-- Nothing follows a line end at the end. -/
theorem confined_singleton (b : Byte) : Confined [b] := by
  by_cases lineEnd : endsLine b
  · simp [Confined, List.splitOnP_cons_eq_if_modifyHead, List.splitOnP_nil, lineEnd, Silent]
  · exact confined_of_noLineEnd (by simpa using lineEnd)

end Comments

/-- Nothing is missing from the netlist of a file, and its comments are no source. -/
structure Complete (file : List Item) : Prop where
  uses_declared : ∀ statement ∈ statements file, ∀ name ∈ statement.names, Declares file name
  outputs_driven : ∀ port ∈ ports file, port.mode = .output → 0 < drivers file port.name
  confined : ∀ text ∈ comments file, Confined text

section Code

def Item.isComment : Item → Bool
  | .comment _ => true
  | _ => false

/-- A file without its comments. -/
def code (file : List Item) : List Item := file.filter fun item => !item.isComment

theorem code_append (first second : List Item) :
    code (first ++ second) = code first ++ code second :=
  List.filter_append ..

/-- What comments do not contribute to is what the code contributes. -/
theorem filterMap_code {Result : Type} (pick : Item → Option Result)
    (skips : ∀ text, pick (.comment text) = none) (file : List Item) :
    (code file).filterMap pick = file.filterMap pick := by
  induction file with
  | nil => rfl
  | cons item file inductionHypothesis =>
      cases item with
      | comment text => rw [List.filterMap_cons_none (skips text)]; exact inductionHypothesis
      | port | component | signal | statement =>
          simp only [code, Item.isComment, Bool.not_false, List.filter_cons_of_pos] at *
          rw [List.filterMap_cons, List.filterMap_cons, inductionHypothesis]

variable (file : List Item)

theorem statements_code : statements (code file) = statements file :=
  filterMap_code _ (fun _ => rfl) file

theorem declared_code : declared (code file) = declared file :=
  filterMap_code _ (fun _ => rfl) file

theorem ports_code : ports (code file) = ports file := filterMap_code _ (fun _ => rfl) file

theorem components_code : components (code file) = components file :=
  filterMap_code _ (fun _ => rfl) file

theorem objects_code : objects (code file) = objects file := filterMap_code _ (fun _ => rfl) file

theorem componentPorts_code : componentPorts (code file) = componentPorts file := by
  funext component
  rw [componentPorts, componentPorts, components_code]

theorem declares_code : Declares (code file) = Declares file := by
  funext name
  rw [Declares, Declares, objects_code]

theorem drivers_code : drivers (code file) = drivers file := by
  funext name
  rw [drivers, drivers, driven, driven, ports_code, statements_code, componentPorts_code]

theorem statement_fits_code (statement : Statement String) :
    statement.Fits (code file) ↔ statement.Fits file := by
  have operands : ∀ operand : Operand String, ∀ type,
      operand.Fits (code file) type ↔ operand.Fits file type := by
    intro operand type
    cases operand <;> simp only [Operand.Fits, objects_code]
  have portMaps : ∀ declaration portMap,
      PortMapFits (code file) declaration portMap ↔ PortMapFits file declaration portMap := by
    intro declaration portMap
    constructor
    · exact fun fits => ⟨fits.formals, by simpa only [operands] using fits.actuals⟩
    · exact fun fits => ⟨fits.formals, by simpa only [operands] using fits.actuals⟩
  cases statement <;> simp only [Statement.Fits, components_code, portMaps]

theorem comments_code : comments (code file) = [] := by
  refine List.filterMap_eq_nil_iff.mpr fun item membership => ?_
  cases item with
  | comment text => simp [code, Item.isComment] at membership
  | port | component | signal | statement => rfl

variable {file}

theorem wellFormed_of_code (wellFormed : WellFormed (code file)) : WellFormed file := by
  obtain ⟨distinct, uses_declared, single_driver, port_maps⟩ := wellFormed
  rw [declared_code] at distinct
  rw [statements_code] at uses_declared single_driver port_maps
  rw [declares_code] at uses_declared
  rw [drivers_code, componentPorts_code] at single_driver
  exact ⟨distinct, uses_declared, single_driver, fun statement membership =>
    (statement_fits_code file statement).mp (port_maps statement membership)⟩

theorem complete_iff_code :
    Complete file ↔ Complete (code file) ∧ ∀ text ∈ comments file, Confined text := by
  constructor
  · rintro ⟨uses_declared, outputs_driven, confined⟩
    refine ⟨⟨?_, ?_, ?_⟩, confined⟩
    · rw [statements_code, declares_code]
      exact uses_declared
    · rw [ports_code, drivers_code]
      exact outputs_driven
    · rw [comments_code]
      exact fun _ membership => absurd membership List.not_mem_nil
  · rintro ⟨⟨uses_declared, outputs_driven, -⟩, confined⟩
    rw [statements_code, declares_code] at uses_declared
    rw [ports_code, drivers_code] at outputs_driven
    exact ⟨uses_declared, outputs_driven, confined⟩

end Code

end SeqDetect.Vhdl
