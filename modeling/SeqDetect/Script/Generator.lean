import SeqDetect.Script.Codes

/-!
# Generators

What either script does with a signature file, by the kind of lines in it: whole
signatures, a line of an odd number of digits, a line without any, or a line whose text breaks
out of its comment.
-/

namespace SeqDetect.Script

open Delta Vhdl

/-- `for line in fr`: the lines of a file, each with its terminator. -/
def fileLines : List Byte → List (List Byte)
  | [] => []
  | b :: rest =>
      if b = 0x0a then [b] :: fileLines rest
      else
        match fileLines rest with
        | [] => [[b]]
        | line :: lines => (b :: line) :: lines

theorem fileLines_eq_nil {file : List Byte} : fileLines file = [] ↔ file = [] := by
  cases file with
  | nil => exact iff_of_true rfl rfl
  | cons b rest =>
      refine iff_of_false ?_ (List.cons_ne_nil b rest)
      rw [fileLines]
      split
      · exact List.cons_ne_nil _ _
      · split <;> exact List.cons_ne_nil _ _

/-- The stripped line is rendered with an even number of digits: its bytes below `0x10` come in
pairs. -/
def EvenDigits (line : List Byte) : Prop :=
  (rstrip line).countP (fun b => b.toNat < 0x10) % 2 = 0

/-- A line for which the scripts write what they mean to. -/
structure Whole (line : List Byte) : Prop where
  nonempty : rstrip line ≠ []
  even : EvenDigits line
  /-- The text that the digits decode to stays in its comment. -/
  confined : Confined (decoded (hexifyLine line))

/-- The lines for which `main` does not stop: every text decodes, and a loop has assigned the
variable that is read for the first line. -/
def Completes (lines : List (List Byte)) : Prop :=
  (∀ line ∈ lines, EvenDigits line) ∧ ∀ line ∈ (sort lines).head?, rstrip line ≠ []

instance (line : List Byte) : Decidable (EvenDigits line) := inferInstanceAs (Decidable (_ = _))

instance (lines : List (List Byte)) : Decidable (Completes lines) :=
  inferInstanceAs (Decidable (_ ∧ ∀ line ∈ _, _))

theorem hexifyLine_eq_empty {line : List Byte} : hexifyLine line = "" ↔ rstrip line = [] := by
  have digits := length_hexifyLine line
  have atMost := List.countP_le_length (p := fun b : Byte => b.toNat < 0x10) (l := rstrip line)
  constructor
  · intro empty
    rw [empty] at digits
    have none : "".length = 0 := rfl
    exact List.length_eq_zero_iff.mp (by omega)
  · intro empty
    rw [← String.toList_inj, toList_hexifyLine, empty]
    rfl

theorem even_hexifyLine {line : List Byte} :
    (hexifyLine line).length % 2 = 0 ↔ EvenDigits line := by
  have digits := length_hexifyLine line
  rw [EvenDigits]
  omega

/-- The groups of the lines of a file, in the order of the outputs. -/
def parts (lines : List (List Byte)) : List (List String) := (hexify (sort lines)).map groups

theorem mem_sort {line : List Byte} {lines : List (List Byte)} : line ∈ sort lines ↔ line ∈ lines :=
  (List.perm_insertionSort _ _).mem_iff

theorem mem_hexify_sort {hexVal : String} {lines : List (List Byte)} :
    hexVal ∈ hexify (sort lines) ↔ ∃ line ∈ lines, hexifyLine line = hexVal := by
  rw [hexify, List.mem_map]
  exact exists_congr fun line => and_congr_left' mem_sort

theorem length_parts (lines : List (List Byte)) : (parts lines).length = lines.length := by
  rw [parts, List.length_map, hexify, List.length_map, sort, List.length_insertionSort]

/-- A file with a line has as many hexified lines. -/
theorem exists_count {lines : List (List Byte)} (nonempty : lines ≠ []) :
    ∃ count, lines.length = count + 1 ∧ (sort lines).length = count + 1 ∧
      (hexify (sort lines)).length = count + 1 := by
  obtain ⟨count, size⟩ := Nat.exists_eq_succ_of_ne_zero (mt List.length_eq_zero_iff.mp nonempty)
  have sorted : (sort lines).length = count + 1 := by
    rw [sort, List.length_insertionSort, size]
  exact ⟨count, size, sorted, by rw [hexify, List.length_map, sorted]⟩

/-- The digits in names are always in lower case. -/
theorem lower_parts (lines : List (List Byte)) :
    ∀ groups ∈ parts lines, ∀ pair ∈ groups, lower pair = pair := by
  intro ofLine membership pair inGroups
  obtain ⟨hexVal, inHexes, rfl⟩ := List.mem_map.mp membership
  obtain ⟨line, -, rfl⟩ := mem_hexify_sort.mp inHexes
  obtain ⟨j, -, rfl⟩ := List.mem_map.mp inGroups
  exact lower_slice_hexifyLine line j

theorem grouped_parts {lines : List (List Byte)} (whole : ∀ line ∈ lines, Whole line) :
    Grouped (parts lines) where
  nonempty := by
    intro ofLine membership
    obtain ⟨hexVal, inHexes, rfl⟩ := List.mem_map.mp membership
    obtain ⟨line, inLines, rfl⟩ := mem_hexify_sort.mp inHexes
    rw [ne_eq, groups_eq_nil, hexifyLine_eq_empty]
    exact (whole line inLines).nonempty
  pairs := by
    intro ofLine membership pair inGroups
    refine ⟨?_, lower_parts lines ofLine membership pair inGroups⟩
    obtain ⟨hexVal, inHexes, rfl⟩ := List.mem_map.mp membership
    obtain ⟨line, inLines, rfl⟩ := mem_hexify_sort.mp inHexes
    obtain ⟨j, inLoop, rfl⟩ := List.mem_map.mp inGroups
    exact length_slice (even_hexifyLine.mpr (whole line inLines).even) inLoop

theorem even_hexify {lines : List (List Byte)} (even : ∀ line ∈ lines, EvenDigits line) :
    ∀ hexVal ∈ hexify (sort lines), hexVal.length % 2 = 0 := by
  intro hexVal membership
  obtain ⟨line, inLines, rfl⟩ := mem_hexify_sort.mp membership
  exact even_hexifyLine.mpr (even line inLines)

theorem nonempty_of_whole {lines : List (List Byte)} (whole : ∀ line ∈ lines, Whole line) :
    ∀ hexVal ∈ hexify (sort lines), hexVal ≠ "" := by
  intro hexVal membership
  obtain ⟨line, inLines, rfl⟩ := mem_hexify_sort.mp membership
  exact mt hexifyLine_eq_empty.mp (whole line inLines).nonempty

/-- The comments for the lines of a file. -/
def fileRemarks (lines : List (List Byte)) : List (List Byte) :=
  (hexify (sort lines)).flatMap remarks

theorem confined_fileRemarks {lines : List (List Byte)} (even : ∀ line ∈ lines, EvenDigits line) :
    (∀ text ∈ fileRemarks lines, Confined text) ↔
      ∀ line ∈ lines, Confined (decoded (hexifyLine line)) := by
  have ofLine : ∀ line ∈ lines, (∀ text ∈ remarks (hexifyLine line), Confined text) ↔
      Confined (decoded (hexifyLine line)) :=
    fun line inLines => confined_remarks_iff (even_hexifyLine.mpr (even line inLines))
  constructor
  · intro confined line inLines
    refine (ofLine line inLines).mp fun text membership => confined text ?_
    exact List.mem_flatMap.mpr ⟨_, mem_hexify_sort.mpr ⟨line, inLines, rfl⟩, membership⟩
  · intro confined text membership
    obtain ⟨hexVal, inHexes, inRemarks⟩ := List.mem_flatMap.mp membership
    obtain ⟨line, inLines, rfl⟩ := mem_hexify_sort.mp inHexes
    exact (ofLine line inLines).mpr (confined line inLines) text inRemarks

/-- What `seq_detect.vhd` holds: a generated file, or whatever else was there. -/
inductive Content where
  | design (file : List Item)
  | other (text : List Byte)

/-- `open('seq_detect.vhd', 'w')` drops the previous content, and what is written before an
exception stays written. -/
def replace (main : List (List Byte) → Emit Unit) (lines : List (List Byte))
    (_previous : Content) : Content :=
  .design (main lines).written

/-- The generator replaces the file with a complete netlist, or stops with an error and
leaves it as it was. -/
def AllOrNothing (main : List (List Byte) → Emit Unit) (file : List Byte) : Prop :=
  ∀ previous,
    ((main (fileLines file)).result = .ok () ∧
      ∃ design, replace main (fileLines file) previous = .design design ∧ Complete design) ∨
    ((main (fileLines file)).Fails ∧ replace main (fileLines file) previous = previous)

/-- The outcomes of a generator. -/
structure Generates (main : List (List Byte) → Emit Unit) : Prop where
  completes : ∀ lines, (∃ file, (main lines).Writes file) ↔ Completes lines
  netlist : ∀ {lines}, lines ≠ [] → (∀ line ∈ lines, Whole line) →
    ∃ file, (main lines).Writes file ∧ WellFormed file ∧ Complete file ∧
      ∀ i < lines.length, drivers file (outputName i) = 1
  whole : ∀ {lines file}, (main lines).Writes file → Complete file →
    lines ≠ [] ∧ ∀ line ∈ lines, Whole line

namespace Generates

variable {main : List (List Byte) → Emit Unit} (generates : Generates main)
include generates

/-- Generation is all or nothing exactly for the files with at least one line whose lines
are all whole. -/
theorem allOrNothing_iff (file : List Byte) :
    AllOrNothing main file ↔ file ≠ [] ∧ ∀ line ∈ fileLines file, Whole line := by
  constructor
  · intro all
    rcases all (.other []) with ⟨ended, design, replaced, complete⟩ | ⟨-, kept⟩
    · obtain rfl : (main (fileLines file)).written = design := Content.design.inj replaced
      have writes := Emit.writes_of_result ended
      obtain ⟨some_line, whole⟩ := generates.whole writes complete
      exact ⟨mt fileLines_eq_nil.mpr some_line, whole⟩
    · exact absurd kept (by simp [replace])
  · rintro ⟨some_line, whole⟩ previous
    obtain ⟨items, writes, -, complete, -⟩ :=
      generates.netlist (mt fileLines_eq_nil.mp some_line) whole
    have run : main (fileLines file) = ⟨items, .ok ()⟩ := writes
    exact .inl ⟨by rw [run], items, by rw [replace, run], complete⟩

end Generates

end SeqDetect.Script
