import SeqDetect.Vhdl.WellFormed

/-!
# Sketches of files

A file whose names are rendered from structured names.  Where the rendering keeps the
declared names apart, the rendered file is well formed if its sketch is sound.
-/

namespace SeqDetect.Vhdl

open Delta

/-- An item with structured names; comments are left out. -/
inductive Line (Name : Type) where
  | port (name : Name) (mode : Mode) (type : Subtype)
  | component (name : Name) (ports : List Port)
  | signal (name : Name) (type : Subtype) (initial : Option StdLogic)
  | statement (label : Option Name) (statement : Statement Name)

namespace Line

variable {Name : Type}

def item (text : Name → String) : Line Name → Item
  | port name mode type => .port ⟨text name, mode, type⟩
  | component name ports => .component ⟨text name, ports⟩
  | signal name type initial => .signal ⟨text name, type, initial⟩
  | statement label body => .statement ⟨label.map text, body.map text⟩

def declares : Line Name → Option Name
  | port name _ _ => some name
  | component name _ => some name
  | signal name _ _ => some name
  | statement label _ => label

def object? : Line Name → Option (Name × Subtype)
  | port name _ type => some (name, type)
  | signal name type _ => some (name, type)
  | _ => none

def input? : Line Name → Option Name
  | port name .input _ => some name
  | _ => none

def component? : Line Name → Option (Name × List Port)
  | component name ports => some (name, ports)
  | _ => none

def statement? : Line Name → Option (Statement Name)
  | statement _ body => some body
  | _ => none

def isStatement : Line Name → Prop
  | statement _ _ => True
  | _ => False

/-- Statements have nothing of what they are skipped for. -/
theorem filterMap_statements {Result : Type} {pick : Line Name → Option Result}
    (skips : ∀ label body, pick (.statement label body) = none) {lines : List (Line Name)}
    (statements : ∀ line ∈ lines, line.isStatement) : lines.filterMap pick = [] := by
  refine List.filterMap_eq_nil_iff.mpr fun line inLines => ?_
  have isStatement := statements line inLines
  cases line with
  | statement label body => exact skips label body
  | port | component | signal => exact isStatement.elim

end Line

namespace Sketch

variable {Name : Type} (text : Name → String) (lines : List (Line Name))

def declared : List Name := lines.filterMap Line.declares

def objects : List (Name × Subtype) := lines.filterMap Line.object?

def inputs : List Name := lines.filterMap Line.input?

def components : List (Name × List Port) := lines.filterMap Line.component?

def statements : List (Statement Name) := lines.filterMap Line.statement?

def render : List Item := lines.map (Line.item text)

/-- The signals with a driver, once for each driver. -/
def driven (componentPorts : String → List Port) : List Name :=
  inputs lines ++ (statements lines).flatMap (Statement.driven componentPorts)

theorem declared_render : Vhdl.declared (render text lines) = (declared lines).map text := by
  rw [Vhdl.declared, render, List.filterMap_map, declared, List.map_filterMap]
  congr 1
  funext line
  cases line <;> rfl

theorem objects_render :
    Vhdl.objects (render text lines) =
      (objects lines).map fun object => (text object.1, object.2) := by
  rw [Vhdl.objects, render, List.filterMap_map, objects, List.map_filterMap]
  congr 1
  funext line
  cases line <;> rfl

theorem components_render :
    Vhdl.components (render text lines) =
      (components lines).map fun component => ⟨text component.1, component.2⟩ := by
  rw [Vhdl.components, render, List.filterMap_map, components, List.map_filterMap]
  congr 1
  funext line
  cases line <;> rfl

theorem statements_render :
    Vhdl.statements (render text lines) = (statements lines).map (Statement.map text) := by
  rw [Vhdl.statements, render, List.filterMap_map, statements, List.map_filterMap]
  congr 1
  funext line
  cases line <;> rfl

theorem comments_render : comments (render text lines) = [] := by
  rw [comments, render, List.filterMap_map, List.filterMap_eq_nil_iff]
  intro line _
  cases line <;> rfl

theorem inputs_render :
    portNames .input (ports (render text lines)) = (inputs lines).map text := by
  induction lines with
  | nil => rfl
  | cons line lines inductionHypothesis =>
      cases line with
      | port name mode type =>
          cases mode with
          | input => exact congrArg (text name :: ·) inductionHypothesis
          | output => exact inductionHypothesis
      | component | signal | statement => exact inductionHypothesis

theorem driven_render :
    Vhdl.driven (render text lines) =
      (driven lines (componentPorts (render text lines))).map text := by
  rw [Vhdl.driven, driven, inputs_render, statements_render, List.map_append, List.flatMap_map,
    List.map_flatMap]
  simp only [Statement.driven_map]

/-- Ports and signals are declared by name. -/
theorem declared_of_object {object : Name × Subtype} (membership : object ∈ objects lines) :
    object.1 ∈ declared lines := by
  obtain ⟨line, inLines, isObject⟩ := List.mem_filterMap.mp membership
  refine List.mem_filterMap.mpr ⟨line, inLines, ?_⟩
  cases line with
  | port name mode type => rw [← Option.some.inj isObject]; rfl
  | signal name type initial => rw [← Option.some.inj isObject]; rfl
  | component | statement => simp [Line.object?] at isObject

theorem inputs_subset_declared : inputs lines ⊆ declared lines := by
  intro name membership
  obtain ⟨line, inLines, isInput⟩ := List.mem_filterMap.mp membership
  refine List.mem_filterMap.mpr ⟨line, inLines, ?_⟩
  cases line with
  | port other mode type =>
      cases mode with
      | input => exact isInput
      | output => simp [Line.input?] at isInput
  | component | signal | statement => simp [Line.input?] at isInput

/-- What an operand has to be to be associated with a port. -/
def Suits (type : Subtype) : Operand Name → Prop
  | .signal name => ∃ object ∈ objects lines, object.1 = name ∧ object.2.width = type.width
  | .logic _ => type.width = none
  | .bits literal => type.width = some literal.length
  | .hex literal => type.width = some (4 * literal.length)

/-- The port map suits a component with these ports. -/
structure PortMapSuits (ports : List Port) (portMap : List (String × Operand Name)) : Prop where
  formals : (portMap.map Prod.fst).Perm (ports.map Port.name)
  actuals : ∀ association ∈ portMap, ∀ port ∈ ports, port.name = association.1 →
    Suits lines port.type association.2 ∧
      (port.mode = .output → ∃ name, association.2 = .signal name)

def StatementSuits : Statement Name → Prop
  | .instantiate component portMap => ∃ declaration ∈ components lines,
      text declaration.1 = component ∧ PortMapSuits lines declaration.2 portMap
  | _ => True

/-- What has to hold of a sketch for its rendering to be well formed. -/
structure Sound : Prop where
  apart : ∀ first ∈ declared lines, ∀ second ∈ declared lines,
    lower (text first) = lower (text second) → first = second
  distinct : (declared lines).Nodup
  uses_declared : ∀ statement ∈ statements lines, ∀ name ∈ statement.names,
    ∃ object ∈ objects lines, object.1 = name
  single_driver : (driven lines (componentPorts (render text lines))).Nodup
  reads_driven : ∀ statement ∈ statements lines,
    ∀ name ∈ statement.reads (componentPorts (render text lines)),
      name ∈ driven lines (componentPorts (render text lines))
  drives_declared : ∀ name ∈ driven lines (componentPorts (render text lines)),
    name ∈ declared lines
  port_maps : ∀ statement ∈ statements lines, StatementSuits text lines statement

variable {text lines}

theorem Suits.fits {type : Subtype} {operand : Operand Name}
    (suits : Suits lines type operand) :
    (operand.map text).Fits (render text lines) type := by
  cases operand with
  | signal name =>
      obtain ⟨object, membership, rfl, widths⟩ := suits
      refine ⟨(text object.1, object.2), ?_, rfl, widths⟩
      rw [objects_render]
      exact List.mem_map_of_mem membership
  | logic | bits | hex => exact suits

/-- An association that suits the port in the same place. -/
structure Aligned (lines : List (Line Name)) (association : String × Operand Name) (port : Port) :
    Prop where
  formal : association.1 = port.name
  actual : Suits lines port.type association.2
  target : port.mode = .output → ∃ name, association.2 = .signal name

/-- A port map that follows the order of the ports suits them. -/
theorem portMapSuits_of_aligned {ports : List Port} {portMap : List (String × Operand Name)}
    (distinct : (ports.map Port.name).Nodup)
    (aligned : List.Forall₂ (Aligned lines) portMap ports) : PortMapSuits lines ports portMap where
  formals := by
    have same : portMap.map Prod.fst = ports.map Port.name := by
      clear distinct
      induction aligned with
      | nil => rfl
      | cons first _ inductionHypothesis =>
          rw [List.map_cons, List.map_cons, first.formal, inductionHypothesis]
    rw [same]
  actuals := by
    intro association membership port inPorts formal
    obtain ⟨other, inOthers, here⟩ : ∃ other ∈ ports, Aligned lines association other := by
      clear distinct inPorts formal port
      induction aligned with
      | nil => exact absurd membership List.not_mem_nil
      | cons first _ inductionHypothesis =>
          rcases List.mem_cons.mp membership with rfl | later
          · exact ⟨_, List.mem_cons_self, first⟩
          · obtain ⟨other, inOthers, here⟩ := inductionHypothesis later
            exact ⟨other, List.mem_cons_of_mem _ inOthers, here⟩
    obtain rfl := List.inj_on_of_nodup_map distinct inPorts inOthers (formal.trans here.formal)
    exact ⟨here.actual, here.target⟩

theorem PortMapSuits.fits {name : String} {ports : List Port}
    {portMap : List (String × Operand Name)} (suits : PortMapSuits lines ports portMap) :
    PortMapFits (render text lines) ⟨name, ports⟩
      (portMap.map fun association => (association.1, association.2.map text)) where
  formals := by
    rw [List.map_map]
    exact suits.formals
  actuals := by
    intro association membership port inPorts formal
    obtain ⟨⟨actualFormal, operand⟩, inPortMap, rfl⟩ := List.mem_map.mp membership
    obtain ⟨operandSuits, target⟩ := suits.actuals _ inPortMap port inPorts formal
    refine ⟨operandSuits.fits, fun output => ?_⟩
    obtain ⟨name, same⟩ := target output
    exact ⟨text name, by rw [show operand = _ from same]; rfl⟩

theorem StatementSuits.fits {statement : Statement Name}
    (suits : StatementSuits text lines statement) :
    (statement.map text).Fits (render text lines) := by
  cases statement with
  | instantiate component portMap =>
      obtain ⟨declaration, membership, rfl, portMapSuits⟩ := suits
      refine ⟨⟨text declaration.1, declaration.2⟩, ?_, rfl, portMapSuits.fits⟩
      rw [components_render]
      exact List.mem_map_of_mem membership
  | assign | select => trivial

theorem declares_render {name : Name} {object : Name × Subtype}
    (membership : object ∈ objects lines) (same : object.1 = name) :
    Declares (render text lines) (text name) := by
  refine ⟨(text object.1, object.2), ?_, by rw [same]⟩
  rw [objects_render]
  exact List.mem_map_of_mem membership

namespace Sound

variable (sound : Sound text lines)
include sound

/-- Every driven signal of a sound sketch has one driver. -/
theorem drivers_eq_one {name : Name}
    (driver : name ∈ driven lines (componentPorts (render text lines))) :
    drivers (render text lines) (text name) = 1 := by
  rw [drivers, driven_render, List.map_map]
  apply List.count_eq_one_of_mem
  · refine sound.single_driver.map_on ?_
    intro first inFirst second inSecond same
    exact sound.apart first (sound.drives_declared first inFirst) second
      (sound.drives_declared second inSecond) same
  · exact List.mem_map_of_mem driver

theorem uses_declared_render : ∀ statement ∈ Vhdl.statements (render text lines),
    ∀ name ∈ statement.names, Declares (render text lines) name := by
  intro statement membership name used
  rw [statements_render] at membership
  obtain ⟨sketched, inLines, rfl⟩ := List.mem_map.mp membership
  rw [Statement.names_map] at used
  obtain ⟨sketchedName, inNames, rfl⟩ := List.mem_map.mp used
  obtain ⟨object, inObjects, same⟩ := sound.uses_declared sketched inLines sketchedName inNames
  exact declares_render inObjects same

/-- A sound sketch whose output ports are driven misses nothing. -/
theorem complete (outputs : ∀ name type, Line.port name .output type ∈ lines →
    name ∈ driven lines (componentPorts (render text lines))) : Complete (render text lines) where
  uses_declared := sound.uses_declared_render
  outputs_driven := by
    intro port membership output
    obtain ⟨item, inFile, isPort⟩ := List.mem_filterMap.mp membership
    obtain ⟨line, inLines, rfl⟩ := List.mem_map.mp inFile
    cases line with
    | port name mode type =>
        obtain rfl : ⟨text name, mode, type⟩ = port := Option.some.inj isPort
        obtain rfl : mode = .output := output
        rw [sound.drivers_eq_one (outputs name type inLines)]
        exact Nat.one_pos
    | component | signal | statement => simp [Line.item, Item.port?] at isPort
  confined := by
    rw [comments_render]
    exact fun _ membership => absurd membership List.not_mem_nil

theorem wellFormed : WellFormed (render text lines) where
  distinct := by
    rw [declared_render, List.map_map]
    exact sound.distinct.map_on fun first inFirst second inSecond same =>
      sound.apart first inFirst second inSecond same
  uses_declared := sound.uses_declared_render
  single_driver := by
    intro statement membership name used
    rw [statements_render] at membership
    obtain ⟨sketched, inLines, rfl⟩ := List.mem_map.mp membership
    rw [Statement.reads_map] at used
    obtain ⟨sketchedName, inReads, rfl⟩ := List.mem_map.mp used
    exact sound.drivers_eq_one (sound.reads_driven sketched inLines sketchedName inReads)
  port_maps := by
    intro statement membership
    rw [statements_render] at membership
    obtain ⟨sketched, inLines, rfl⟩ := List.mem_map.mp membership
    exact (sound.port_maps sketched inLines).fits

end Sound

end Sketch

end SeqDetect.Vhdl
