import SeqDetect.Clocked.Source
import SeqDetect.Clocked.Stages
import SeqDetect.Vhdl.Layout

/-!
# Chains of stages

The statements and names of a chain, for every design whose comparators only wait for the byte.
A design adds how it connects a comparator, and what follows the stages.
-/

namespace SeqDetect.Clocked

open Delta Vhdl Script

variable {Ending : Type}

section Statements

variable {signature : Signature}

/-- What the flip-flop of stage `j` registers. -/
def fed {n : ℕ} (j : Fin n) : Operand (Wire Ending n) :=
  if j.val = 0 then .logic .one
  else .signal (.out_and ⟨j.val - 1, pred_lt j⟩)

variable (comparator : Fin signature.bytes.length →
    Statement (Wire Ending signature.bytes.length))
  (following : Ending → Statement (Wire Ending signature.bytes.length))

/-- The statement that drives each signal of a chain. -/
def stageChain : Wire Ending signature.bytes.length →
    Option (Statement (Wire Ending signature.bytes.length))
  | .clk | .reset | .data_in => none
  | .input => some (.assign .input (.copy (.signal .data_in)))
  | .cmp j => some (comparator j)
  | .ff j => some (.instantiate "FF" [("clk", .signal .clk), ("reset", .signal .reset),
      ("input", fed j), ("output", .signal (.ff j))])
  | .out_and j => some (.assign (.out_and j) (.and (.signal (.ff j)) (.signal (.cmp j))))
  | .isMatching => some (.assign .isMatching (.copy (.signal (.out_and signature.last))))
  | .ending signal => some (following signal)

/-- The components of the design do what its chains rely on. -/
structure Connects (library : Library) : Prop where
  ff : library "FF" = some FF
  compares : ∀ j, (comparator j).elaborate library = some (.cmp j, ⟨[.input], fun shown =>
    if shown.now .input = (Operand.hex (hexPair (signature.byte j))).eval shown.now then
      some (.logic .one)
    else some (.logic .zero)⟩)
  follows : ∀ signal, ∃ process,
    (following signal).elaborate library = some (.ending signal, process)

variable {comparator following} {library : Library}

/-- Each statement of a chain drives the signal it is listed for. -/
theorem Connects.elaborates (connects : Connects comparator following library)
    (wire : Wire Ending signature.bytes.length)
    (statement : Statement (Wire Ending signature.bytes.length))
    (found : stageChain comparator following wire = some statement) :
    ∃ process, statement.elaborate library = some (wire, process) := by
  cases wire with
  | clk | reset | data_in => simp [stageChain] at found
  | input | out_and j | isMatching =>
      obtain rfl := Option.some.inj found
      exact ⟨_, rfl⟩
  | cmp j =>
      obtain rfl := Option.some.inj found
      exact ⟨_, connects.compares j⟩
  | ff j =>
      obtain rfl := Option.some.inj found
      simp only [Statement.elaborate, connects.ff]
      exact ⟨_, rfl⟩
  | ending signal =>
      obtain rfl := Option.some.inj found
      exact connects.follows signal

theorem Connects.stages (connects : Connects comparator following library) :
    Stages (circuitOf library (stageChain comparator following)) where
  clk := rfl
  reset := rfl
  data_in := rfl
  input := rfl
  cmp j := by
    simp only [circuitOf, stageChain, Option.bind_some, connects.compares, Option.map_some]
    congr 2
    funext shown
    rw [eval_hexPair _ (signature.byte_twoDigits j)]
    split <;> simp_all [Value.bit]
  ff j := by
    simp only [circuitOf, stageChain, Option.bind_some, Statement.elaborate, connects.ff]
    obtain ⟨_ | j, bound⟩ := j <;> rfl
  out_and j := rfl
  isMatching := rfl

end Statements

section Names

/-- The identifier of a signal in the chain with index `i`. -/
def stageIdent (following : ℕ → Ending → Ident) (i : ℕ) (signature : Signature) :
    Wire Ending signature.bytes.length → Ident
  | .clk => .clk
  | .reset => .reset
  | .data_in => .data_in
  | .input => .input
  | .cmp j => .cmp i (hexPair (signature.byte j)) j
  | .ff j => .ff i j
  | .out_and j => .out_and i j
  | .isMatching => .isMatching i
  | .ending signal => following i signal

/-- What follows the stages is numbered like them, under other names. -/
structure Numbered (following : ℕ → Ending → Ident) : Prop where
  injective : ∀ i, Function.Injective (following i)
  outside : ∀ i signal, following i signal = .hold i ∨ following i signal = .output i

variable {following : ℕ → Ending → Ident}

theorem Numbered.ident_injective (numbered : Numbered following) (i : ℕ)
    (signature : Signature) : Function.Injective (stageIdent following i signature) := by
  intro first second equality
  cases first with
  | ending signal =>
      cases second with
      | ending other => exact congrArg Wire.ending (numbered.injective i equality)
      | _ =>
          rcases numbered.outside i signal with hold | output <;>
            simp_all [stageIdent]
  | _ =>
      cases second with
      | ending other =>
          rcases numbered.outside i other with hold | output <;>
            simp_all [stageIdent]
      | _ => simp_all [stageIdent, Fin.ext_iff]

end Names

section Loops

variable {n : ℕ}

/-- The signals that the loop over one signature drives. -/
def loopWires (Ending : Type) (n : ℕ) : List (Wire Ending n) :=
  (List.finRange n).flatMap (fun j => [.cmp j, .ff j, .out_and j]) ++ [.isMatching]

theorem mem_loopWires {wire : Wire Ending n} :
    wire ∈ loopWires Ending n ↔
      (∃ j, wire = .cmp j ∨ wire = .ff j ∨ wire = .out_and j) ∨ wire = .isMatching := by
  simp [loopWires]

theorem nodup_loopWires (Ending : Type) (n : ℕ) : (loopWires Ending n).Nodup :=
  nodup_loop (by simp) (fun j k different => by simpa [List.Disjoint] using different) (by simp)

theorem nodup_driven {endings : List Ending} (distinct : endings.Nodup) :
    ([.input] ++ (loopWires Ending n ++ endings.map Wire.ending) : List (Wire Ending n)).Nodup := by
  rw [List.nodup_append, List.nodup_append]
  refine ⟨List.nodup_singleton _, ⟨nodup_loopWires _ _,
    distinct.map fun _ _ same => Wire.ending.inj same, ?_⟩, ?_⟩
  · rintro wire inLoop other ending rfl
    obtain ⟨signal, -, rfl⟩ := List.mem_map.mp ending
    simp [mem_loopWires] at inLoop
  · rintro wire shared other driven rfl
    obtain rfl := List.mem_singleton.mp shared
    simp [mem_loopWires] at driven

/-- The loops drive everything but the ports. -/
theorem driven_iff {endings : List Ending} (whole : ∀ signal, signal ∈ endings)
    {signature : Signature}
    (comparator : Fin signature.bytes.length → Statement (Wire Ending signature.bytes.length))
    (following : Ending → Statement (Wire Ending signature.bytes.length))
    (wire : Wire Ending signature.bytes.length) :
    stageChain comparator following wire ≠ none ↔
      wire ∈ [.input] ++ (loopWires Ending signature.bytes.length ++ endings.map Wire.ending) := by
  cases wire <;> simp [stageChain, mem_loopWires, whole]

/-- The name of a signal that a loop drives determines the index of its chain. -/
theorem Numbered.apart {following : ℕ → Ending → Ident} (numbered : Numbered following)
    (endings : List Ending) {i k : ℕ} {signature other : Signature}
    {wire : Wire Ending signature.bytes.length} {clash : Wire Ending other.bytes.length}
    (inLoop : wire ∈ loopWires Ending signature.bytes.length ++ endings.map Wire.ending)
    (named : (stageIdent following i signature wire).name =
      (stageIdent following k other clash).name) : i = k := by
  have same := Ident.name_injective named
  have outside := numbered.outside
  cases wire with
  | clk | reset | data_in | input => simp [mem_loopWires] at inLoop
  | ending signal =>
      cases clash with
      | ending otherSignal =>
          rcases outside i signal with hold | output <;>
            rcases outside k otherSignal with otherHold | otherOutput <;>
            simp_all [stageIdent]
      | _ => rcases outside i signal with hold | output <;> simp_all [stageIdent]
  | _ =>
      cases clash with
      | ending otherSignal =>
          rcases outside k otherSignal with hold | output <;> simp_all [stageIdent]
      | _ => simp_all [stageIdent]

end Loops

end SeqDetect.Clocked
