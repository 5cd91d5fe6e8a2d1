import SeqDetect.Script.Backend

/-!
# The chains of an admissible file

For an admissible file the groups of a line are its bytes in hexadecimal, so that the sketch of
a back end is a layout with one part for each signature.
-/

namespace SeqDetect.Script

open Delta Vhdl

namespace Signature

variable (signature : Signature)

/-- The groups of the hexified line. -/
def pairs : List String := signature.bytes.map hexPair

theorem length_pairs : signature.pairs.length = signature.bytes.length := List.length_map _

theorem groups_hexVal : groups signature.hexVal = signature.pairs := by
  rw [groups, signature.evens_hexVal, List.map_map]
  refine List.ext_getElem (by simp [pairs]) fun j bound _ => ?_
  rw [List.length_map, List.length_range] at bound
  have pair := signature.slice_hexVal ⟨j, bound⟩
  simpa [pairs, byte] using pair

theorem zipIdx_pairs :
    signature.pairs.zipIdx = (List.finRange signature.bytes.length).map fun j =>
      (hexPair (signature.byte j), j.val) := by
  refine List.ext_getElem (by simp [pairs]) fun j _ _ => ?_
  simp [pairs, byte]

theorem getLastD_pairs : signature.pairs.getLastD "" = hexPair (signature.byte signature.last) := by
  rw [List.getLastD_eq_getLast?, List.getLast?_eq_getElem?, length_pairs]
  have inside := signature.last.isLt
  simp only [last] at inside
  simp [pairs, byte, last, inside]

end Signature

/-- Lines without narrow bytes are whole. -/
theorem whole_of_admissible {lines : List (List Byte)} (admissible : Admissible lines) :
    ∀ line ∈ lines, Whole line := by
  intro line membership
  obtain ⟨nonempty, large⟩ := admissible line membership
  let signature : Signature := ⟨rstrip line, nonempty, large⟩
  have rendered : hexifyLine line = signature.hexVal := by
    rw [← String.toList_inj, toList_hexifyLine]
    simp [Signature.hexVal, signature]
  refine ⟨nonempty, ?_, ?_⟩
  · rw [EvenDigits, List.countP_eq_zero.mpr fun b inLine => by simpa using large b inLine]
  · rw [rendered, decoded, signature.decode_hexVal]
    refine confined_of_noLineEnd fun b inLine => ?_
    have wide : 0x10 ≤ b.toNat := large b inLine
    rw [endsLine, Bool.and_eq_false_iff, decide_eq_false_iff_not, decide_eq_false_iff_not]
    exact .inr (Nat.not_le.mpr (lt_of_lt_of_le (by decide : (0x0d : Byte).toNat < 0x10) wide))

theorem parts_eq {lines : List (List Byte)} {chains : List Signature}
    (hexVals : hexify (sort lines) = chains.map Signature.hexVal) :
    parts lines = chains.map Signature.pairs := by
  rw [parts, hexVals, List.map_map]
  exact List.map_congr_left fun signature _ => signature.groups_hexVal

/-- What a generator writes for an admissible file. -/
theorem Implements.describes {phases : Phases} {chain : ℕ → String → List Item}
    {ending : ℕ → String → ℕ → Item} {backend : Backend}
    (implements : Implements phases chain ending backend) {lines : List (List Byte)}
    {chains : List Signature} (nonempty : lines ≠ []) (admissible : Admissible lines)
    (hexVals : hexify (sort lines) = chains.map Signature.hexVal) :
    ∃ file, (phases.main lines).Writes file ∧ statements file =
      (Sketch.statements (backend.sketch (chains.map Signature.pairs))).map
        (Statement.map Name.text) := by
  obtain ⟨file, writes, same, -⟩ :=
    implements.codes_of_whole nonempty (whole_of_admissible admissible)
  refine ⟨file, writes, ?_⟩
  rw [← statements_code, same, Sketch.statements_render, parts_eq hexVals]

section Layouts

variable {layout : Layout Signature} (chains : List Signature)

/-- The loop over the chains drives the signals of its stages and the match signal. -/
theorem chains_describe (stages : ℕ → String × ℕ → List (Statement Name))
    (matching : ℕ → List String → Statement Name)
    {wires : (signature : Signature) → Fin signature.bytes.length → List (layout.Wire signature)}
    {isMatching : (signature : Signature) → layout.Wire signature}
    (ofStage : ∀ i signature j, (stages i (hexPair (signature.byte j), j.val)).map
      (Statement.map Name.text) = layout.written i signature (wires signature j))
    (ofLine : ∀ i signature, [(matching i signature.pairs).map Name.text] =
      layout.written i signature [isMatching signature]) :
    ((chains.map Signature.pairs).zipIdx.flatMap fun part =>
      part.1.zipIdx.flatMap (stages part.2) ++ [matching part.2 part.1]).map
        (Statement.map Name.text) =
      chains.zipIdx.flatMap fun (signature, i) => layout.written i signature
        ((List.finRange signature.bytes.length).flatMap (wires signature) ++
          [isMatching signature]) := by
  rw [List.zipIdx_map, List.flatMap_map, List.map_flatMap]
  refine List.flatMap_congr fun (signature, i) _ => ?_
  have stage : (signature.pairs.zipIdx.flatMap (stages i)).map (Statement.map Name.text) =
      layout.written i signature
        ((List.finRange signature.bytes.length).flatMap (wires signature)) := by
    rw [signature.zipIdx_pairs, List.flatMap_map, List.map_flatMap, Layout.written,
      List.filterMap_flatMap]
    exact List.flatMap_congr fun j _ => ofStage i signature j
  have whole := congrArg₂ (· ++ ·) stage (ofLine i signature)
  rw [← layout.written_append, ← List.map_singleton, ← List.map_append] at whole
  exact whole

/-- A loop over the indices drives one signal of each chain. -/
theorem numbered_describe (numbered : ℕ → Statement Name)
    {wire : (signature : Signature) → layout.Wire signature}
    (same : ∀ i signature, [(numbered i).map Name.text] =
      layout.written i signature [wire signature]) :
    ((List.range chains.length).map numbered).map (Statement.map Name.text) =
      chains.zipIdx.flatMap fun (signature, i) => layout.written i signature [wire signature] := by
  rw [List.range_eq_range', ← List.zipIdx_map_snd 0 chains, List.map_map, List.map_map,
    List.map_eq_flatMap]
  exact List.flatMap_congr fun (signature, i) _ => same i signature

end Layouts

/-- For an admissible file a generator emits a netlist in which the signatures are the chains of
the layout that describes its statements. -/
theorem Implements.exists_netlist {phases : Phases} {chain : ℕ → String → List Item}
    {ending : ℕ → String → ℕ → Item} {backend : Backend}
    (implements : Implements phases chain ending backend) {layout : Layout Signature}
    {library : Library}
    (elaborates : ∀ signature wire statement, layout.statementOf signature wire = some statement →
      ∃ process, statement.elaborate library = some (wire, process))
    (describes : ∀ chains : List Signature,
      (Sketch.statements (backend.sketch (chains.map Signature.pairs))).map
        (Statement.map Name.text) = layout.describes chains)
    {lines : List (List Byte)} (nonempty : lines ≠ []) (admissible : Admissible lines) :
    ∃ (chains : List Signature) (file : List Item) (net : Netlist String Value),
      signatures lines = chains.map Signature.bytes ∧ (phases.main lines).Writes file ∧
      netlist library file = some net ∧ layout.Realizes library chains net := by
  obtain ⟨chains, bytes, hexVals⟩ := exists_signatures admissible
  obtain ⟨file, writes, written⟩ := implements.describes nonempty admissible hexVals
  obtain ⟨net, elaborated, realizes⟩ := layout.exists_netlist elaborates
    (chains_ne_nil nonempty bytes) (written.trans (describes chains))
  exact ⟨chains, file, net, bytes, writes, elaborated, realizes⟩

end SeqDetect.Script
