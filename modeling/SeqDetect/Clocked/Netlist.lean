import SeqDetect.Clocked.Chain
import SeqDetect.Clocked.Generated
import SeqDetect.Script.Chains

/-!
# The clocked netlist

What `seq_match.py` emits for an admissible file: one chain of stages for each
signature, followed by a clocked hold register and an output register.
-/

namespace SeqDetect.Clocked

open Delta Vhdl Script

/-- What follows the stages of a chain. -/
inductive Ending where
  | hold | output
  deriving DecidableEq

/-- How a comparator is connected. -/
def comparator {signature : Signature} (j : Fin signature.bytes.length) :
    Statement (Wire Ending signature.bytes.length) :=
  .instantiate "byte_compare" [("clk", .signal .clk), ("data_in", .signal .input),
    ("sig_in", .hex (hexPair (signature.byte j))), ("is_valid", .signal (.cmp j))]

/-- The hold register and the output register. -/
def following {n : ℕ} : Ending → Statement (Wire Ending n)
  | .hold => .instantiate "pull_up_module" [("clk", .signal .clk), ("reset", .signal .reset),
      ("isMatching", .signal .isMatching), ("out_isMatching", .signal (.ending .hold))]
  | .output => .instantiate "FF" [("clk", .signal .clk), ("reset", .signal .reset),
      ("input", .signal (.ending .hold)), ("output", .signal (.ending .output))]

/-- The statement that drives each signal of a chain. -/
def chain (signature : Signature) : Wire Ending signature.bytes.length →
    Option (Statement (Wire Ending signature.bytes.length)) :=
  stageChain comparator following

def followingIdent (i : ℕ) : Ending → Ident
  | .hold => .hold i
  | .output => .output i

/-- The identifier of a signal in the chain with index `i`. -/
def ident (i : ℕ) (signature : Signature) : Wire Ending signature.bytes.length → Ident :=
  stageIdent followingIdent i signature

theorem numbered : Numbered followingIdent where
  injective i first second equality := by
    cases first <;> cases second <;> simp_all [followingIdent]
  outside i signal := by
    cases signal <;> simp [followingIdent]

theorem every_ending : ∀ signal, signal ∈ [Ending.hold, Ending.output] := by
  rintro (_ | _) <;> simp

/-- The loops of `seq_detect_ports` and `pull_up_port`. -/
abbrev layout : Layout Signature where
  Wire signature := Wire Ending signature.bytes.length
  statementOf := chain
  name i signature wire := (ident i signature wire).name
  shared _ := [.input]
  loops := [fun signature => loopWires Ending signature.bytes.length, fun _ => [.ending .hold],
    fun _ => [.ending .output]]
  sharedNames := ["input"]
  head := [.assign "input" (.copy (.signal "data_in"))]
  name_injective i signature :=
    Ident.name_injective.comp (numbered.ident_injective i signature)
  name_shared _ _ := rfl
  head_eq _ _ := rfl
  nodup _ := nodup_driven (by decide : [Ending.hold, Ending.output].Nodup)
  driven _ := driven_iff every_ending comparator following
  apart := numbered.apart [.hold, .output]

theorem connects (signature : Signature) :
    Connects (@comparator signature) following library where
  ff := rfl
  compares _ := rfl
  follows signal := by cases signal <;> exact ⟨_, rfl⟩

/-- The statements of the emitted file, chain by chain. -/
theorem describes (chains : List Signature) :
    (Sketch.statements (Emitted.sketch (chains.map Signature.pairs))).map
      (Statement.map Name.text) = layout.describes chains := by
  have loop := chains_describe chains
    (fun i stage => [Emitted.byte_comp i stage.1 stage.2, Emitted.flipflop i stage.2,
      Emitted.gate i stage.1 stage.2])
    (fun i groups => Emitted.matching i (groups.length - 1))
    (fun i signature j =>
      show _ = layout.written i signature [.cmp j, .ff j, .out_and j] by
        obtain ⟨_ | j, bound⟩ := j <;> rfl)
    (fun i signature => show _ = layout.written i signature [.isMatching] by
      rw [signature.length_pairs]
      rfl)
  have holds := numbered_describe chains Emitted.pull
    (fun i signature => show _ = layout.written i signature [.ending .hold] from rfl)
  have outputs := numbered_describe chains Emitted.FF_out
    (fun i signature => show _ = layout.written i signature [.ending .output] from rfl)
  rw [Emitted.statements_sketch, List.length_map, List.map_append, List.map_append,
    List.map_append, holds, outputs, Layout.describes]
  simp only [List.flatMap_cons, List.flatMap_nil, List.append_nil, ← List.append_assoc]
  exact congrArg (_ ++ · ++ _ ++ _) loop

/-- The circuit of one chain. -/
def chainCircuit (signature : Signature) : Circuit (Wire Ending signature.bytes.length) Value :=
  circuitOf library (chain signature)

/-- The script emits a netlist in which the signatures are chains of stages. -/
theorem exists_detector {lines : List (List Byte)} (nonempty : lines ≠ [])
    (admissible : Admissible lines) :
    ∃ (chains : List Signature) (net : Netlist String Value),
      signatures lines = chains.map Signature.bytes ∧ detector lines = some net ∧
      layout.Realizes library chains net := by
  obtain ⟨chains, file, net, bytes, writes, elaborated, realizes⟩ := implements.exists_netlist
    (fun signature => (connects signature).elaborates) describes nonempty admissible
  refine ⟨chains, net, bytes, ?_, realizes⟩
  rw [detector, main_eq, writes]
  exact elaborated

end SeqDetect.Clocked
