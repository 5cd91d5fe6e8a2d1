import SeqDetect.Script.Codes

/-!
# Sketches over named signals

What both generators owe a sound sketch: the signals are declared with their types, the
statements mention no others, and names in another spelling are not declared.
-/

namespace SeqDetect.Script

open Vhdl

/-- A signal as an operand. -/
abbrev wire (ident : Ident) : Operand Name := .signal (.signal ident)

/-- The types of the ports and signals of both designs. -/
def Ident.type : Ident → Subtype
  | data_in | input => .std_logic_vector 7 0
  | _ => .std_logic

/-- The line declares a signal with its type, and nothing else under the name of a signal. -/
def Typed : Line Name → Prop
  | .port (.signal ident) _ type | .signal (.signal ident) type _ => type = ident.type
  | .component (.signal _) _ | .statement (some (.signal _)) _ => False
  | _ => True

/-- The statement mentions declared signals only. -/
def Uses (declared : Ident → Prop) (statement : Statement Name) : Prop :=
  ∀ name ∈ statement.names, ∃ ident, name = .signal ident ∧ declared ident

/-- A signal that is not declared is not declared under another spelling. -/
theorem not_declares {lines : List (Line Name)}
    (lowered : ∀ name ∈ Sketch.declared lines, name.Lowered) {missing : Name}
    (isLowered : missing.Lowered) (undeclared : missing ∉ Sketch.declared lines) :
    ¬ Declares (rendered lines) missing.text := by
  rintro ⟨object, membership, named⟩
  rw [Sketch.objects_render] at membership
  obtain ⟨⟨name, shape⟩, inObjects, rfl⟩ := List.mem_map.mp membership
  have isDeclared := Sketch.declared_of_object lines inObjects
  obtain rfl : name = missing := Name.lower_inj (lowered name isDeclared) isLowered named
  exact undeclared isDeclared

section Signals

variable {lines : List (Line Name)}

theorem object_of_typed (typed : ∀ line ∈ lines, Typed line) {ident : Ident}
    (isDeclared : .signal ident ∈ Sketch.declared lines) :
    (.signal ident, ident.type) ∈ Sketch.objects lines := by
  obtain ⟨line, inLines, declares⟩ := List.mem_filterMap.mp isDeclared
  refine List.mem_filterMap.mpr ⟨line, inLines, ?_⟩
  have isTyped := typed line inLines
  cases line with
  | port name mode type | signal name type initial =>
      obtain rfl : name = .signal ident := Option.some.inj declares
      obtain rfl : type = ident.type := isTyped
      rfl
  | component name ports =>
      obtain rfl : name = .signal ident := Option.some.inj declares
      exact isTyped.elim
  | statement label body =>
      obtain rfl : label = some (.signal ident) := declares
      exact isTyped.elim

/-- An association that follows the order of the ports. -/
theorem aligned_wire (typed : ∀ line ∈ lines, Typed line) {formal : String} {ident : Ident}
    {port : Port} (name : formal = port.name) (isDeclared : .signal ident ∈ Sketch.declared lines)
    (width : ident.type.width = port.type.width) :
    Sketch.Aligned lines (formal, wire ident) port where
  formal := name
  actual := ⟨_, object_of_typed typed isDeclared, rfl, width⟩
  target _ := ⟨_, rfl⟩

end Signals

end SeqDetect.Script
