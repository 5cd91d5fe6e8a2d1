import SeqDetect.Clocked.Generated
import SeqDetect.Pattern.Sorting
import SeqDetect.Triggered.Generated

/-!
# The numbering of the outputs

`main` sorts the lines of the file before `hexify` strips them.  Trailing whitespace then
decides between two signatures if one of them begins with the other.
-/

namespace SeqDetect.Generators

open Delta Vhdl Script Pattern

/-- The files have the same signatures, each the same number of times. -/
def SameSignatures (file other : List Byte) : Prop :=
  ((fileLines file).map rstrip).Perm ((fileLines other).map rstrip)

instance (file other : List Byte) : Decidable (SameSignatures file other) :=
  inferInstanceAs (Decidable (List.Perm _ _))

/-- Both files give the same design, or none, and in a design the outputs are numbered in the
order of the signatures. -/
structure NumbersBySignature (main : List (List Byte) → Emit Unit) (file other : List Byte) :
    Prop where
  same : ∀ design, (main (fileLines file)).Writes design ↔ (main (fileLines other)).Writes design
  ordered : ∀ design, (main (fileLines file)).Writes design →
    signatures (fileLines file) = sort ((fileLines file).map rstrip)
  otherOrdered : ∀ design, (main (fileLines other)).Writes design →
    signatures (fileLines other) = sort ((fileLines other).map rstrip)

/-- Where a line begins with the whole signature of another one, the trailing whitespace of
that other one is not above what follows. -/
def KeepsOrder (lines : List (List Byte)) : Prop :=
  ∀ line ∈ lines, ∀ longer ∈ lines, ∀ rest, longer = rstrip line ++ rest →
    rstrip longer ≠ rstrip line → line.rtakeWhile isspace ≤ rest

theorem rstrip_append_trailing (line : List Byte) :
    rstrip line ++ line.rtakeWhile isspace = line :=
  List.rdropWhile_append_rtakeWhile

theorem rstrip_rstrip (line : List Byte) : rstrip (rstrip line) = rstrip line :=
  List.rdropWhile_idempotent _ _

/-- Only trailing whitespace can let the order of two lines differ from that of their
signatures. -/
theorem keepsOrder_iff (lines : List (List Byte)) :
    KeepsOrder lines ↔
      ∀ first ∈ lines, ∀ second ∈ lines, first ≤ second → rstrip first ≤ rstrip second := by
  constructor
  · intro keeps longer inLonger line inLine ordered
    by_contra above
    rw [List.not_le] at above
    have split := rstrip_append_trailing longer
    have other := rstrip_append_trailing line
    rw [← split, ← other] at ordered
    obtain ⟨more, continues⟩ := prefix_of_lt_of_append_le above ordered
    rw [← continues, List.append_assoc] at split ordered
    have different : rstrip longer ≠ rstrip line := by
      intro same
      rw [same] at above
      exact List.lt_irrefl _ above
    have least := keeps line inLine longer inLonger _ split.symm different
    have same := Std.Antisymm.antisymm _ _ ordered (List.append_left_le least)
    rw [split, other] at same
    exact different (congrArg rstrip same)
  · intro monotone line inLine longer inLonger rest split different
    by_contra below
    rw [List.not_le] at below
    have less : longer < line := by
      rw [split]
      conv_rhs => rw [← rstrip_append_trailing line]
      exact List.append_left_lt below
    have atMost := monotone longer inLonger line inLine (List.le_of_lt less)
    have atLeast : rstrip line ≤ rstrip longer := by
      rw [split]
      exact (rdropWhile_prefix_append isspace line rest).le
    exact different (Std.Antisymm.antisymm _ _ atMost atLeast)

/-- Stripping before sorting makes no difference exactly if the order is kept. -/
theorem signatures_eq_sort_iff (lines : List (List Byte)) :
    signatures lines = sort (lines.map rstrip) ↔ KeepsOrder lines := by
  rw [keepsOrder_iff]
  exact map_insertionSort_iff

theorem hexifyLine_rstrip (line : List Byte) : hexifyLine (rstrip line) = hexifyLine line := by
  rw [hexifyLine, hexifyLine, rstrip_rstrip]

/-- The hexified lines depend on the signatures and their order only. -/
theorem hexify_sort (lines : List (List Byte)) :
    hexify (sort lines) = hexify (signatures lines) := by
  rw [signatures, hexify, hexify, List.map_map]
  exact List.map_congr_left fun line _ => (hexifyLine_rstrip line).symm

theorem length_sort (lines : List (List Byte)) : (sort lines).length = (signatures lines).length :=
  (List.length_map _).symm

/-- Either generator writes what the signatures and their order call for. -/
theorem main_congr {lines others : List (List Byte)} (same : signatures lines = signatures others) :
    Clocked.main lines = Clocked.main others ∧ Triggered.main lines = Triggered.main others := by
  have count : (sort lines).length = (sort others).length := by
    rw [length_sort, length_sort, same]
  have rendered : hexify (sort lines) = hexify (sort others) := by
    rw [hexify_sort, hexify_sort, same]
  constructor
  · rw [Clocked.main, Clocked.main, count, rendered]
  · rw [Triggered.main, Triggered.main, count, rendered]

/-- Both generators number the outputs of two files by signature exactly if they complete for both
files or for neither, and if they do, sorting the raw lines keeps the order of the signatures in
either file. -/
theorem numbersBySignature_iff {file other : List Byte} (same : SameSignatures file other) :
    (NumbersBySignature Clocked.main file other ∧ NumbersBySignature Triggered.main file other) ↔
      (Completes (fileLines file) ↔ Completes (fileLines other)) ∧
        (Completes (fileLines file) →
          KeepsOrder (fileLines file) ∧ KeepsOrder (fileLines other)) := by
  rw [← signatures_eq_sort_iff, ← signatures_eq_sort_iff, ← Clocked.generates.completes,
    ← Clocked.generates.completes]
  constructor
  · rintro ⟨numbers, -⟩
    refine ⟨exists_congr numbers.same, fun ⟨design, writes⟩ => ?_⟩
    exact ⟨numbers.ordered design writes,
      numbers.otherOrdered design ((numbers.same design).mp writes)⟩
  · rintro ⟨together, order⟩
    have equal : (∃ design, (Clocked.main (fileLines file)).Writes design) →
        signatures (fileLines file) = signatures (fileLines other) := by
      intro completes
      obtain ⟨ordered, otherOrdered⟩ := order completes
      have sorted : sort ((fileLines file).map rstrip) = sort ((fileLines other).map rstrip) :=
        List.Perm.eq_of_pairwise (fun _ _ _ _ => Std.Antisymm.antisymm _ _)
          (List.pairwise_insertionSort _ _) (List.pairwise_insertionSort _ _)
          ((List.perm_insertionSort _ _).trans (same.trans (List.perm_insertionSort _ _).symm))
      exact ordered.trans (sorted.trans otherOrdered.symm)
    have numbers {main : List (List Byte) → Emit Unit} (generates : Generates main)
        (congruent : signatures (fileLines file) = signatures (fileLines other) →
          main (fileLines file) = main (fileLines other)) :
        NumbersBySignature main file other := by
      have ends (lines : List (List Byte)) : (∃ design, (main lines).Writes design) →
          ∃ design, (Clocked.main lines).Writes design := fun written =>
        (Clocked.generates.completes lines).mpr ((generates.completes lines).mp written)
      refine ⟨fun design => ⟨fun writes => ?_, fun writes => ?_⟩, fun design writes => ?_,
        fun design writes => ?_⟩
      · rwa [← congruent (equal (ends _ ⟨design, writes⟩))]
      · rwa [congruent (equal (together.mpr (ends _ ⟨design, writes⟩)))]
      · exact (order (ends _ ⟨design, writes⟩)).1
      · exact (order (together.mpr (ends _ ⟨design, writes⟩))).2
    exact ⟨numbers Clocked.generates fun equal => (main_congr equal).1,
      numbers Triggered.generates fun equal => (main_congr equal).2⟩

/-- The files `bat cat` and `cat bat`, one with a final newline and the other without. -/
theorem numbersBySignature_iff_bat_cat :
    (NumbersBySignature Clocked.main [0x62, 0x61, 0x74, 0x0a, 0x63, 0x61, 0x74, 0x0a]
        [0x63, 0x61, 0x74, 0x0a, 0x62, 0x61, 0x74] ∧
      NumbersBySignature Triggered.main [0x62, 0x61, 0x74, 0x0a, 0x63, 0x61, 0x74, 0x0a]
        [0x63, 0x61, 0x74, 0x0a, 0x62, 0x61, 0x74]) ↔
      (Completes (fileLines [0x62, 0x61, 0x74, 0x0a, 0x63, 0x61, 0x74, 0x0a]) ↔
        Completes (fileLines [0x63, 0x61, 0x74, 0x0a, 0x62, 0x61, 0x74])) ∧
      (Completes (fileLines [0x62, 0x61, 0x74, 0x0a, 0x63, 0x61, 0x74, 0x0a]) →
        KeepsOrder (fileLines [0x62, 0x61, 0x74, 0x0a, 0x63, 0x61, 0x74, 0x0a]) ∧
          KeepsOrder (fileLines [0x63, 0x61, 0x74, 0x0a, 0x62, 0x61, 0x74])) :=
  numbersBySignature_iff (by decide : SameSignatures _ _)

/-- The signatures `a` and `a<1f>b`: with a space behind it `a` is number 1, without one it is
number 0.  The script comes to its end for both files. -/
theorem numbering_depends_on_space :
    SameSignatures [0x61, 0x20, 0x0a, 0x61, 0x1f, 0x62, 0x0a]
        [0x61, 0x0a, 0x61, 0x1f, 0x62, 0x0a] ∧
      signatures (fileLines [0x61, 0x20, 0x0a, 0x61, 0x1f, 0x62, 0x0a]) =
        [[0x61, 0x1f, 0x62], [0x61]] ∧
      signatures (fileLines [0x61, 0x0a, 0x61, 0x1f, 0x62, 0x0a]) =
        [[0x61], [0x61, 0x1f, 0x62]] ∧
      (∃ design other,
        (Clocked.main (fileLines [0x61, 0x20, 0x0a, 0x61, 0x1f, 0x62, 0x0a])).Writes design ∧
        (Clocked.main (fileLines [0x61, 0x0a, 0x61, 0x1f, 0x62, 0x0a])).Writes other ∧
        design ≠ other) ∧
      ∃ design other,
        (Triggered.main (fileLines [0x61, 0x20, 0x0a, 0x61, 0x1f, 0x62, 0x0a])).Writes design ∧
        (Triggered.main (fileLines [0x61, 0x0a, 0x61, 0x1f, 0x62, 0x0a])).Writes other ∧
        design ≠ other := by
  have differ {main : List (List Byte) → Emit Unit} (generates : Generates main)
      (different : (main (fileLines [0x61, 0x20, 0x0a, 0x61, 0x1f, 0x62, 0x0a])).written ≠
        (main (fileLines [0x61, 0x0a, 0x61, 0x1f, 0x62, 0x0a])).written) :
      ∃ design other,
        (main (fileLines [0x61, 0x20, 0x0a, 0x61, 0x1f, 0x62, 0x0a])).Writes design ∧
        (main (fileLines [0x61, 0x0a, 0x61, 0x1f, 0x62, 0x0a])).Writes other ∧
        design ≠ other := by
    obtain ⟨design, writes⟩ := (generates.completes
      (fileLines [0x61, 0x20, 0x0a, 0x61, 0x1f, 0x62, 0x0a])).mpr (by decide)
    obtain ⟨other, otherWrites⟩ := (generates.completes
      (fileLines [0x61, 0x0a, 0x61, 0x1f, 0x62, 0x0a])).mpr (by decide)
    rw [writes, otherWrites] at different
    exact ⟨design, other, writes, otherWrites, different⟩
  exact ⟨by decide, by decide, by decide, differ Clocked.generates (by decide +kernel),
    differ Triggered.generates (by decide +kernel)⟩

end SeqDetect.Generators
