import SeqDetect.Script.Python

/-!
# The clocked back end

`FF.vhd`, `byte_compare.vhd` and `pull_up_module.vhd` of the clocked design, and
the script `seq_match.py` that emits `seq_detect.vhd` around them.
-/

namespace SeqDetect.Clocked

open Delta Vhdl Script

def FF : Entity where
  ports := [⟨"clk", .input, .std_logic⟩, ⟨"reset", .input, .std_logic⟩,
    ⟨"input", .input, .std_logic⟩, ⟨"output", .output, .std_logic⟩]
  driven := "output"
  process :=
    { sensitivity := ["clk", "reset"]
      body shown :=
        if shown.now "reset" = .logic .one then
          some (.logic .zero)
        else if Value.rises (shown.last "clk") (shown.now "clk") then
          some (shown.now "input")
        else none }

/-- The comparison does not use its `clk` port. -/
def byte_compare : Entity where
  ports := [⟨"clk", .input, .std_logic⟩, ⟨"data_in", .input, .std_logic_vector 7 0⟩,
    ⟨"sig_in", .input, .std_logic_vector 7 0⟩, ⟨"is_valid", .output, .std_logic⟩]
  driven := "is_valid"
  process :=
    { sensitivity := ["data_in", "sig_in"]
      body shown :=
        if shown.now "data_in" = shown.now "sig_in" then some (.logic .one)
        else some (.logic .zero) }

def pull_up_module : Entity where
  ports := [⟨"clk", .input, .std_logic⟩, ⟨"reset", .input, .std_logic⟩,
    ⟨"isMatching", .input, .std_logic⟩, ⟨"out_isMatching", .output, .std_logic⟩]
  driven := "out_isMatching"
  process :=
    { sensitivity := ["clk", "reset", "isMatching"]
      body shown :=
        if shown.now "reset" = .logic .one then
          some (.logic .zero)
        else if Value.rises (shown.last "clk") (shown.now "clk") then
          if shown.now "isMatching" = .logic .one then some (.logic .one) else none
        else none }

def library : Library := fun component =>
  if component = "FF" then some FF
  else if component = "byte_compare" then some byte_compare
  else if component = "pull_up_module" then some pull_up_module
  else none

/-- With no signatures the script declares the port `output_-1`. -/
def seq_detect_header (size : ℕ) : Emit Unit := do
  .write [.port ⟨"clk", .input, .std_logic⟩, .port ⟨"reset", .input, .std_logic⟩,
    .port ⟨"data_in", .input, .std_logic_vector 7 0⟩]
  .write ((List.range (size - 1)).map fun i =>
    .port ⟨"output_" ++ toString i, .output, .std_logic⟩)
  .write [.port ⟨"output_" ++ toString ((size : ℤ) - 1), .output, .std_logic⟩]

def seq_detect_comps : Emit Unit :=
  .write [.component ⟨"byte_compare", byte_compare.ports⟩, .component ⟨"FF", FF.ports⟩]

def pull_up_comps : Emit Unit :=
  .write [.component ⟨"pull_up_module", pull_up_module.ports⟩]

/-- The declarations for the byte at `hexVal[j:j+2]`. -/
def stageSignals (i : ℕ) (hexVal : String) (j : ℕ) : Emit Unit := do
  .write [.signal ⟨"cmp_s" ++ toString i ++ "_0x" ++ slice hexVal j (j + 2) ++ "_" ++
    toString (j / 2), .std_logic, none⟩]
  let byte ← Emit.ofExcept (decodeHex (slice hexVal j (j + 2)))
  .write [.comment byte,
    .signal ⟨"s" ++ toString i ++ "_ff_" ++ toString (j / 2), .std_logic, some .zero⟩,
    .signal ⟨"out_and_s" ++ toString i ++ "_ff_" ++ toString (j / 2), .std_logic, some .zero⟩]

def signatureSignals (i : ℕ) (hexVal : String) : Emit Unit := do
  let text ← Emit.ofExcept (decodeHex hexVal)
  .write [.comment text]
  (evens hexVal.length).forM (stageSignals i hexVal)

def seq_detect_signals (hex_list : List String) : Emit Unit := do
  .write [.signal ⟨"input", .std_logic_vector 7 0, none⟩]
  hex_list.zipIdx.forM fun (hexVal, i) => signatureSignals i hexVal

def pull_up_signals (count : ℕ) : Emit Unit := do
  .write ((List.range count).map fun i => .signal ⟨"isMatching_" ++ toString i, .std_logic, none⟩)
  .write ((List.range count).map fun i => .signal ⟨"hold_" ++ toString i, .std_logic, none⟩)

/-- The three statements for the byte at `hexVal[j:j+2]`.  The flip-flop of the first
stage is fed with a constant, every other one with the gate of the stage before. -/
def stagePorts (i : ℕ) (hexVal : String) (j : ℕ) : List Item :=
  [.statement ⟨some ("byte_comp_s" ++ toString i ++ "_" ++ slice hexVal j (j + 2) ++ "_" ++
        toString (j / 2)),
      .instantiate "byte_compare" [("clk", .signal "clk"), ("data_in", .signal "input"),
        ("sig_in", .hex (slice hexVal j (j + 2))),
        ("is_valid", .signal ("cmp_s" ++ toString i ++ "_0x" ++ slice hexVal j (j + 2) ++ "_" ++
          toString (j / 2)))]⟩,
    if j = 0 then
      .statement ⟨some ("flipflop_s" ++ toString i ++ "_f" ++ toString (j / 2)),
        .instantiate "FF" [("clk", .signal "clk"), ("reset", .signal "reset"),
          ("input", .logic .one),
          ("output", .signal ("s" ++ toString i ++ "_ff_" ++ toString (j / 2)))]⟩
    else
      .statement ⟨some ("flipflop_s" ++ toString i ++ "_f" ++ toString (j / 2)),
        .instantiate "FF" [("clk", .signal "clk"), ("reset", .signal "reset"),
          ("input", .signal ("out_and_s" ++ toString i ++ "_ff_" ++ toString (j / 2 - 1))),
          ("output", .signal ("s" ++ toString i ++ "_ff_" ++ toString (j / 2)))]⟩,
    .statement ⟨some ("and_s" ++ toString i ++ "_ff_" ++ toString (j / 2)),
      .assign ("out_and_s" ++ toString i ++ "_ff_" ++ toString (j / 2))
        (.and (.signal ("s" ++ toString i ++ "_ff_" ++ toString (j / 2)))
          (.signal ("cmp_s" ++ toString i ++ "_0x" ++ slice hexVal j (j + 2) ++ "_" ++
            toString (j / 2))))⟩]

/-- The loop over the signatures from index `i` on.  The last assignment of a chain
reads the inner loop's variable `j` after that loop; for an empty signature it still
has the value of an earlier one, or none. -/
def portsFrom : ℕ → Option ℕ → List String → Emit Unit
  | _, _, [] => pure ()
  | i, j, hexVal :: rest => do
      .write ((evens hexVal.length).flatMap (stagePorts i hexVal))
      match (evens hexVal.length).getLast?.or j with
      | none => .raise .unboundLocalError
      | some j =>
          .write [.statement ⟨none, .assign ("isMatching_" ++ toString i)
            (.copy (.signal ("out_and_s" ++ toString i ++ "_ff_" ++ toString (j / 2))))⟩]
          portsFrom (i + 1) (some j) rest

def seq_detect_ports (hex_list : List String) : Emit Unit := portsFrom 0 none hex_list

def pull (i : ℕ) : Item :=
  .statement ⟨some ("pull_" ++ toString i),
    .instantiate "pull_up_module" [("clk", .signal "clk"), ("reset", .signal "reset"),
      ("isMatching", .signal ("isMatching_" ++ toString i)),
      ("out_isMatching", .signal ("hold_" ++ toString i))]⟩

def FF_out (i : ℕ) : Item :=
  .statement ⟨some ("FF_out_" ++ toString i),
    .instantiate "FF" [("clk", .signal "clk"), ("reset", .signal "reset"),
      ("input", .signal ("hold_" ++ toString i)),
      ("output", .signal ("output_" ++ toString i))]⟩

def pull_up_port (count : ℕ) : Emit Unit := do
  .write ((List.range count).map pull)
  .write ((List.range count).map FF_out)

def seq_detect_arch (hex_list : List String) : Emit Unit := do
  seq_detect_comps
  pull_up_comps
  seq_detect_signals hex_list
  pull_up_signals hex_list.length
  .write [.statement ⟨none, .assign "input" (.copy (.signal "data_in"))⟩]
  seq_detect_ports hex_list
  pull_up_port hex_list.length

/-- `main`, from the lines of the signature file on. -/
def main (lines : List (List Byte)) : Emit Unit := do
  let sig_list := sort lines
  seq_detect_header sig_list.length
  seq_detect_arch (hexify sig_list)

/-- The netlist that the script emits for a signature file. -/
def detector (lines : List (List Byte)) : Option (Netlist String Value) :=
  match (main lines).result with
  | .ok _ => netlist library (main lines).written
  | .error _ => none

end SeqDetect.Clocked
