import SeqDetect.Triggered.Emitted

/-!
# What the data-triggered generator does with a file

For lines that are hexified to an even and positive number of characters the generator
writes the sketch of their groups.  An odd number stops it, and an empty line makes it name
a comparator without a byte.
-/

namespace SeqDetect.Triggered

open Delta Vhdl Script Emitted

theorem stageSignals_codes {hexVal : String} (even : hexVal.length % 2 = 0) (i : ℕ) {j : ℕ}
    (inLoop : j ∈ evens hexVal.length) :
    (stageSignals i hexVal j).Codes
      (rendered (stageDeclarations i (slice hexVal j (j + 2), j / 2)))
      [decoded (slice hexVal j (j + 2))] := by
  have decodes := decodeHex_eq_decoded
    (by rw [length_slice even inLoop] : (slice hexVal j (j + 2)).length % 2 = 0)
  dsimp only [stageSignals]
  rw [decodes, if_pos (mem_evens.mp inLoop).1]
  have gate : (Emit.write [.signal ⟨"en_and_cmp_s" ++ toString i ++ "_" ++ toString (j / 2),
      .std_logic, none⟩]).Codes
      (rendered [.signal (.signal (.en_and_cmp i (j / 2))) .std_logic none]) [] :=
    codes_rendered rfl
  have verdict : (Emit.write [.signal ⟨"cmp_s" ++ toString i ++ "_0x" ++ slice hexVal j (j + 2) ++
      "_" ++ toString (j / 2), .std_logic, none⟩]).Codes
      (rendered [.signal (.signal (.cmp i (slice hexVal j (j + 2)) (j / 2))) .std_logic none]) [] :=
    codes_rendered rfl
  exact gate.silent_then (verdict.silent_then
    (Emit.Codes.ofExcept_bind (Emit.codes_comment (decoded (slice hexVal j (j + 2))))))

theorem signatureSignals_codes {hexVal : String} (even : hexVal.length % 2 = 0) (i : ℕ) :
    (signatureSignals i hexVal).Codes
      (rendered ((groups hexVal).zipIdx.flatMap (stageDeclarations i) ++
        [.signal (.out_s i) .std_logic (some .zero)])) (remarks hexVal) := by
  dsimp only [signatureSignals]
  rw [decodeHex_eq_decoded even, rendered_append]
  exact Emit.Codes.ofExcept_bind ((Emit.codes_comment (decoded hexVal)).bind
    ((codes_groups fun j inLoop => stageSignals_codes even i inLoop).then_silent
      (codes_rendered rfl)))

theorem seq_detect_header_codes (count : ℕ) :
    (seq_detect_header (count + 1)).Codes (rendered (entity (count + 1))) [] := by
  rw [entity, rendered_append]
  exact Emit.Codes.silent_then (codes_rendered rfl) (outputs_codes count)

theorem pull_up_signals_codes (count : ℕ) :
    (pull_up_signals count).Codes (rendered (matchings count)) [] := by
  refine codes_range ?_ count
  exact fun _ => rfl

theorem pull_up_port_codes (count : ℕ) :
    (pull_up_port count).Codes (rendered (after count)) [] := by
  refine codes_range ?_ count
  exact fun _ => rfl

theorem chain_eq (i : ℕ) (hexVal : String) :
    (evens hexVal.length).flatMap (stagePorts i hexVal) =
      rendered ((groups hexVal).zipIdx.flatMap (stageStatements i)) := by
  refine chain_rendered rfl fun k => ?_
  rw [stagePorts, Nat.mul_div_cancel_left (k + 1) Nat.two_pos, if_neg (by omega)]
  rfl

/-- The assignment of the match signal of line `i` if the loop variable is `j`. -/
def ending (i : ℕ) (hexVal : String) (j : ℕ) : Item :=
  .statement ⟨none, .select "reset" ("isMatching_" ++ toString i)
    [(.signal ("cmp_s" ++ toString i ++ "_0x" ++ slice hexVal j (j + 2) ++ "_" ++
      toString (j / 2)), .logic .zero)] (.logic .zero)⟩

theorem ending_eq (i : ℕ) (hexVal : String) (j : ℕ) :
    ending i hexVal j =
      .statement ⟨none, (matching i (slice hexVal j (j + 2)) (j / 2)).map Name.text⟩ :=
  rfl

/-- The functions of the script. -/
def phases : Phases where
  seq_detect_header := seq_detect_header
  seq_detect_comps := seq_detect_comps
  pull_up_comps := pull_up_comps
  signals := .write [.signal ⟨"enable", .std_logic, none⟩,
    .signal ⟨"input", .std_logic_vector 7 0, none⟩]
  signatureSignals := signatureSignals
  pull_up_signals := pull_up_signals
  inputs := .write [.statement ⟨none, .select "data_in" "enable"
      [(.logic .zero, .bits "00000000")] (.logic .one)⟩,
    .statement ⟨none, .assign "input" (.copy (.signal "data_in"))⟩]
  portsFrom := portsFrom
  pull_up_port := pull_up_port

theorem main_eq : main = phases.main := rfl

theorem lower_empty : lower "" = "" := by
  rw [← String.toList_inj, Name.toList_lower]
  rfl

theorem implements : Implements phases
    (fun i hexVal => (evens hexVal.length).flatMap (stagePorts i hexVal)) ending backend where
  header_codes := seq_detect_header_codes
  comps_codes := codes_rendered rfl
  pulls_codes := codes_rendered rfl
  signals_codes := codes_rendered rfl
  signature_codes := signatureSignals_codes
  signature_fails i hexVal error := by
    dsimp only [phases, signatureSignals]
    rw [error]
    exact ⟨_, rfl⟩
  matchings_codes := pull_up_signals_codes
  inputs_codes := codes_rendered rfl
  outputs_codes := pull_up_port_codes
  nothing := by
    refine ⟨(main []).written, rfl, fun complete => ?_⟩
    have driven := complete.outputs_driven ⟨"output_-1", .output, .std_logic⟩ (by decide) rfl
    exact absurd driven (by decide +kernel)
  loop :=
    { nil := fun _ _ => rfl
      unassigned := by
        intro i j hexVal rest last
        dsimp only [phases]
        rw [portsFrom, last]
      assigned := by
        intro i j hexVal rest l last
        dsimp only [phases]
        rw [portsFrom, last]
        rfl }
  chain_eq := chain_eq
  ending_eq i hexVal some_group := by
    rw [ending_eq, slice_last some_group, Nat.mul_div_cancel_left _ Nat.two_pos]
    rfl
  ending_stale i j := by
    have nothing : slice "" j (j + 2) = "" := by simp [slice]
    rw [ending_eq, nothing]
    rfl
  ending_statement _ _ _ := rfl
  wired := wired
  outputs := by
    intro parts name type port
    obtain ⟨i, bound, rfl, -⟩ :
        ∃ i < parts.length, Name.signal (.output i) = name ∧ Subtype.std_logic = type := by
      simpa [Backend.sketch, Backend.declarations, Backend.chains, backend, entity, matchings,
        before, after, stageDeclarations, stageStatements] using port
    exact ⟨i, bound, rfl⟩
  declares_output bound := bound
  reads_missing _ _ := by simp [backend, matching, Statement.names, Operand.reads]
  missing_lowered _ _ := lower_empty
  undeclared := by
    rintro parts i blank k ⟨groups, listed, found⟩
    rw [blank, Option.some.injEq] at listed
    rw [← listed] at found
    simp at found

theorem generates : Generates main := implements.generates

end SeqDetect.Triggered
