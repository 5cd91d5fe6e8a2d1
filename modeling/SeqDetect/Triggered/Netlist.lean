import SeqDetect.Script.Chains
import SeqDetect.Triggered.Generated

/-!
# The data-triggered netlist

What `seq_match.py` emits for an admissible file: one chain of comparators for each
signature, each comparator enabled by the verdict of the one before it.
-/

namespace SeqDetect.Triggered

open Delta Vhdl Script

/-- The signals of one chain of `n` comparators, with those that all chains share. -/
inductive Wire (n : ℕ) where
  | reset | data_in | enable | input
  | cmp (j : Fin n)
  | en_and_cmp (j : Fin n)
  | isMatching | output
  deriving DecidableEq

/-- What enables comparator `j`. -/
def enabling {n : ℕ} (j : Fin n) : Wire n :=
  if j.val = 0 then .enable
  else .en_and_cmp ⟨j.val - 1, pred_lt j⟩

/-- The statement that drives each signal of a chain. -/
def chain (signature : Signature) : Wire signature.bytes.length →
    Option (Statement (Wire signature.bytes.length))
  | .reset | .data_in => none
  | .enable => some (.select .data_in .enable [(.logic .zero, .bits "00000000")] (.logic .one))
  | .input => some (.assign .input (.copy (.signal .data_in)))
  | .cmp j => some (.instantiate "byte_compare" [("reset", .signal .reset),
      ("enable", .signal (enabling j)), ("data_in", .signal .input),
      ("sig_in", .hex (hexPair (signature.byte j))), ("is_valid", .signal (.cmp j))])
  | .en_and_cmp j =>
      some (.assign (.en_and_cmp j) (.and (.signal .enable) (.signal (.cmp j))))
  | .isMatching => some (.select .reset .isMatching
      [(.signal (.cmp signature.last), .logic .zero)] (.logic .zero))
  | .output => some (.instantiate "pull_up_module" [("enable", .signal .enable),
      ("reset", .signal .reset), ("isMatching", .signal .isMatching),
      ("out_isMatching", .signal .output)])

/-- The identifier of a signal in the chain with index `i`. -/
def ident (i : ℕ) (signature : Signature) : Wire signature.bytes.length → Ident
  | .reset => .reset
  | .data_in => .data_in
  | .enable => .enable
  | .input => .input
  | .cmp j => .cmp i (hexPair (signature.byte j)) j
  | .en_and_cmp j => .en_and_cmp i j
  | .isMatching => .isMatching i
  | .output => .output i

theorem ident_injective (i : ℕ) (signature : Signature) :
    Function.Injective (ident i signature) := by
  intro first second equality
  cases first <;> cases second <;> simp_all [ident, Fin.ext_iff]

/-- The signals that the loop over one signature drives. -/
def loopWires (n : ℕ) : List (Wire n) :=
  (List.finRange n).flatMap (fun j => [.cmp j, .en_and_cmp j]) ++ [.isMatching]

theorem mem_loopWires {n : ℕ} {wire : Wire n} :
    wire ∈ loopWires n ↔
      (∃ j, wire = .cmp j ∨ wire = .en_and_cmp j) ∨ wire = .isMatching := by
  simp [loopWires]

theorem nodup_loopWires (n : ℕ) : (loopWires n).Nodup :=
  nodup_loop (by simp) (fun j k different => by simpa [List.Disjoint] using different) (by simp)

/-- The loops of `seq_detect_ports` and `pull_up_port`. -/
abbrev layout : Layout Signature where
  Wire signature := Wire signature.bytes.length
  statementOf := chain
  name i signature wire := (ident i signature wire).name
  shared _ := [.enable, .input]
  loops := [fun signature => loopWires signature.bytes.length, fun _ => [.output]]
  sharedNames := ["enable", "input"]
  head := [.select "data_in" "enable" [(.logic .zero, .bits "00000000")] (.logic .one),
    .assign "input" (.copy (.signal "data_in"))]
  name_injective i signature := Ident.name_injective.comp (ident_injective i signature)
  name_shared _ _ := rfl
  head_eq _ _ := rfl
  nodup signature := by
    simp only [List.flatMap_cons, List.flatMap_nil, List.append_nil, List.nodup_append]
    refine ⟨by simp, ⟨nodup_loopWires _, by simp, ?_⟩, ?_⟩
    · intro wire inLoop other ending
      rcases mem_loopWires.mp inLoop with ⟨j, rfl | rfl⟩ | rfl <;> rintro rfl <;> simp at ending
    · rintro wire shared other driven rfl
      rcases List.mem_pair.mp shared with rfl | rfl <;> simp [mem_loopWires] at driven
  driven signature wire := by
    cases wire <;> simp [chain, mem_loopWires]
  apart := by
    intro i k part other wire clash inLoop named
    have same := Ident.name_injective named
    cases wire <;> cases clash <;> simp_all [ident, mem_loopWires]

/-- Each statement of a chain drives the signal it is listed for. -/
theorem chain_elaborates (sensitivity : List String) (signature : Signature)
    (wire : Wire signature.bytes.length) (statement : Statement (Wire signature.bytes.length))
    (found : chain signature wire = some statement) :
    ∃ process, statement.elaborate (libraryOf (comparator sensitivity)) = some (wire, process) := by
  cases wire <;> simp only [chain, reduceCtorEq, Option.some.injEq] at found <;> subst found <;>
    exact ⟨_, rfl⟩

/-- The statements of the emitted file, chain by chain. -/
theorem describes (chains : List Signature) :
    (Sketch.statements (Emitted.sketch (chains.map Signature.pairs))).map
      (Statement.map Name.text) = layout.describes chains := by
  have loop := chains_describe chains
    (fun i stage => [Emitted.byte_comp i stage.1 stage.2, Emitted.gate i stage.1 stage.2])
    (fun i groups => Emitted.matching i (groups.getLastD "") (groups.length - 1))
    (fun i signature j => show _ = layout.written i signature [.cmp j, .en_and_cmp j] by
      obtain ⟨_ | j, bound⟩ := j <;> rfl)
    (fun i signature => show _ = layout.written i signature [.isMatching] by
      rw [signature.length_pairs, signature.getLastD_pairs]
      rfl)
  have outputs := numbered_describe chains Emitted.pull
    (fun i signature => show _ = layout.written i signature [.output] from rfl)
  rw [Emitted.statements_sketch, List.length_map, List.map_append, List.map_append, outputs,
    Layout.describes]
  simp only [List.flatMap_cons, List.flatMap_nil, List.append_nil, ← List.append_assoc]
  exact congrArg (_ ++ · ++ _) loop

/-- The circuit of one chain, with comparators of the given sensitivity. -/
def chainCircuit (sensitivity : List String) (signature : Signature) :
    Circuit (Wire signature.bytes.length) Value :=
  circuitOf (libraryOf (comparator sensitivity)) (chain signature)

/-- The script emits a netlist in which the signatures are chains of comparators. -/
theorem exists_detector (sensitivity : List String) {lines : List (List Byte)}
    (nonempty : lines ≠ []) (admissible : Admissible lines) :
    ∃ (chains : List Signature) (net : Netlist String Value),
      signatures lines = chains.map Signature.bytes ∧
      detectorWith (comparator sensitivity) lines = some net ∧
      layout.Realizes (libraryOf (comparator sensitivity)) chains net := by
  obtain ⟨chains, file, net, bytes, writes, elaborated, realizes⟩ := implements.exists_netlist
    (chain_elaborates sensitivity) describes nonempty admissible
  refine ⟨chains, net, bytes, ?_, realizes⟩
  rw [detectorWith, main_eq, writes]
  exact elaborated

end SeqDetect.Triggered
