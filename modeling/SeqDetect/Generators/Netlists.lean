import SeqDetect.Clocked.Generated
import SeqDetect.Script.Chains
import SeqDetect.Triggered.Generated

/-!
# The netlists of both generators

For admissible files both generators write well-formed netlists.  They replace
`seq_detect.vhd` before they look at the signatures, so only files of whole signatures leave
a complete netlist there.
-/

namespace SeqDetect.Generators

open Delta Vhdl Script

/-- A well-formed netlist in which every output is driven once. -/
def Netlisted (main : List (List Byte) → Emit Unit) (lines : List (List Byte)) : Prop :=
  ∃ file, (main lines).Writes file ∧ WellFormed file ∧
    ∀ i < lines.length, drivers file (outputName i) = 1

theorem netlisted {lines : List (List Byte)} (nonempty : lines ≠ [])
    (admissible : Admissible lines) :
    Netlisted Clocked.main lines ∧ Netlisted Triggered.main lines := by
  have whole := whole_of_admissible admissible
  obtain ⟨clocked, clockedWrites, clockedFormed, -, clockedOutputs⟩ :=
    Clocked.generates.netlist nonempty whole
  obtain ⟨triggered, triggeredWrites, triggeredFormed, -, triggeredOutputs⟩ :=
    Triggered.generates.netlist nonempty whole
  exact ⟨⟨clocked, clockedWrites, clockedFormed, clockedOutputs⟩,
    ⟨triggered, triggeredWrites, triggeredFormed, triggeredOutputs⟩⟩

theorem netlisted_ab_c :
    Netlisted Clocked.main [[0x61, 0x62, 0x0a], [0x63]] ∧
      Netlisted Triggered.main [[0x61, 0x62, 0x0a], [0x63]] :=
  netlisted (by decide) (by decide)

/-- Both generators are all or nothing exactly for the files that have a line and whose
lines are whole. -/
theorem allOrNothing_iff_whole (file : List Byte) :
    (AllOrNothing Clocked.main file ∧ AllOrNothing Triggered.main file) ↔
      file ≠ [] ∧ ∀ line ∈ fileLines file, Whole line := by
  rw [Clocked.generates.allOrNothing_iff, Triggered.generates.allOrNothing_iff, and_self_iff]

/-- The digits `0a7468` of this line decode to a line feed and `th`. -/
example : ¬ Confined (decoded (hexifyLine [0x00, 0xa7, 0x46, 0x08, 0x0a])) := by decide

/-- A blank line between the signatures: `a`, then a line that holds a space. -/
theorem blank_line_breaks :
    ¬ AllOrNothing Clocked.main [0x61, 0x0a, 0x20, 0x0a] ∧
      ¬ AllOrNothing Triggered.main [0x61, 0x0a, 0x20, 0x0a] := by
  have blank : ¬ ∀ line ∈ fileLines [0x61, 0x0a, 0x20, 0x0a], Whole line := by
    intro whole
    exact (whole [0x20, 0x0a] (by decide)).nonempty (by decide)
  constructor
  · exact fun all => blank ((Clocked.generates.allOrNothing_iff _).mp all).2
  · exact fun all => blank ((Triggered.generates.allOrNothing_iff _).mp all).2

end SeqDetect.Generators
