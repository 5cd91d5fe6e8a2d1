import SeqDetect.Script.Python

/-!
# The data-triggered back end

`byte_compare.vhd` and `pull_up_module.vhd` of the data-triggered design, and the
script `seq_match.py` that emits `seq_detect.vhd` around them.
-/

namespace SeqDetect.Triggered

open Delta Vhdl Script

/-- The comparator with a given sensitivity list.  It keeps its verdict while it is
not enabled. -/
def comparator (sensitivity : List String) : Entity where
  ports := [⟨"reset", .input, .std_logic⟩, ⟨"enable", .input, .std_logic⟩,
    ⟨"data_in", .input, .std_logic_vector 7 0⟩,
    ⟨"sig_in", .input, .std_logic_vector 7 0⟩, ⟨"is_valid", .output, .std_logic⟩]
  driven := "is_valid"
  process :=
    { sensitivity
      body shown :=
        if shown.now "reset" = .logic .one then
          some (.logic .zero)
        else if shown.now "enable" = .logic .one then
          if shown.now "data_in" = shown.now "sig_in" then some (.logic .one)
          else some (.logic .zero)
        else none }

/-- As written: `enable` is read but not in the sensitivity list. -/
def byte_compare : Entity := comparator ["reset", "data_in", "sig_in"]

/-- The transparent latch that synthesis infers, sensitive to every signal it reads. -/
def byte_compare_latch : Entity := comparator ["reset", "enable", "data_in", "sig_in"]

def pull_up_module : Entity where
  ports := [⟨"enable", .input, .std_logic⟩, ⟨"reset", .input, .std_logic⟩,
    ⟨"isMatching", .input, .std_logic⟩, ⟨"out_isMatching", .output, .std_logic⟩]
  driven := "out_isMatching"
  process :=
    { sensitivity := ["enable", "reset", "isMatching"]
      body shown :=
        if shown.now "reset" = .logic .one then
          some (.logic .zero)
        else if shown.now "enable" = .logic .one then
          if shown.now "isMatching" = .logic .one then some (.logic .one) else none
        else none }

/-- The entities of the design around a given comparator. -/
def libraryOf (compare : Entity) : Library := fun component =>
  if component = "byte_compare" then some compare
  else if component = "pull_up_module" then some pull_up_module
  else none

/-- With no signatures the script declares the port `output_-1`. -/
def seq_detect_header (size : ℕ) : Emit Unit := do
  .write [.port ⟨"reset", .input, .std_logic⟩,
    .port ⟨"data_in", .input, .std_logic_vector 7 0⟩]
  .write ((List.range (size - 1)).map fun i =>
    .port ⟨"output_" ++ toString i, .output, .std_logic⟩)
  .write [.port ⟨"output_" ++ toString ((size : ℤ) - 1), .output, .std_logic⟩]

def seq_detect_comps : Emit Unit :=
  .write [.component ⟨"byte_compare", byte_compare.ports⟩]

def pull_up_comps : Emit Unit :=
  .write [.component ⟨"pull_up_module", pull_up_module.ports⟩]

/-- The declarations for the byte at `hexVal[j:j+2]`. -/
def stageSignals (i : ℕ) (hexVal : String) (j : ℕ) : Emit Unit := do
  if j < hexVal.length then
    .write [.signal ⟨"en_and_cmp_s" ++ toString i ++ "_" ++ toString (j / 2), .std_logic, none⟩]
  .write [.signal ⟨"cmp_s" ++ toString i ++ "_0x" ++ slice hexVal j (j + 2) ++ "_" ++
    toString (j / 2), .std_logic, none⟩]
  let byte ← Emit.ofExcept (decodeHex (slice hexVal j (j + 2)))
  .write [.comment byte]

def signatureSignals (i : ℕ) (hexVal : String) : Emit Unit := do
  let text ← Emit.ofExcept (decodeHex hexVal)
  .write [.comment text]
  (evens hexVal.length).forM (stageSignals i hexVal)
  .write [.signal ⟨"out_s" ++ toString i, .std_logic, some .zero⟩]

def seq_detect_signals (hex_list : List String) : Emit Unit := do
  .write [.signal ⟨"enable", .std_logic, none⟩,
    .signal ⟨"input", .std_logic_vector 7 0, none⟩]
  hex_list.zipIdx.forM fun (hexVal, i) => signatureSignals i hexVal

def pull_up_signals (count : ℕ) : Emit Unit :=
  .write ((List.range count).map fun i => .signal ⟨"isMatching_" ++ toString i, .std_logic, none⟩)

/-- The two statements for the byte at `hexVal[j:j+2]`.  The first comparator is
enabled with the design, every other one by the gate of the stage before. -/
def stagePorts (i : ℕ) (hexVal : String) (j : ℕ) : List Item :=
  [if j = 0 then
      .statement ⟨some ("byte_comp_s" ++ toString i ++ "_" ++ slice hexVal j (j + 2) ++ "_" ++
          toString (j / 2)),
        .instantiate "byte_compare" [("reset", .signal "reset"), ("enable", .signal "enable"),
          ("data_in", .signal "input"), ("sig_in", .hex (slice hexVal j (j + 2))),
          ("is_valid", .signal ("cmp_s" ++ toString i ++ "_0x" ++ slice hexVal j (j + 2) ++ "_" ++
            toString (j / 2)))]⟩
    else
      .statement ⟨some ("byte_comp_s" ++ toString i ++ "_" ++ slice hexVal j (j + 2) ++ "_" ++
          toString (j / 2)),
        .instantiate "byte_compare" [("reset", .signal "reset"),
          ("enable", .signal ("en_and_cmp_s" ++ toString i ++ "_" ++ toString (j / 2 - 1))),
          ("data_in", .signal "input"), ("sig_in", .hex (slice hexVal j (j + 2))),
          ("is_valid", .signal ("cmp_s" ++ toString i ++ "_0x" ++ slice hexVal j (j + 2) ++ "_" ++
            toString (j / 2)))]⟩,
    .statement ⟨some ("and_s" ++ toString i ++ "_" ++ toString (j / 2)),
      .assign ("en_and_cmp_s" ++ toString i ++ "_" ++ toString (j / 2))
        (.and (.signal "enable")
          (.signal ("cmp_s" ++ toString i ++ "_0x" ++ slice hexVal j (j + 2) ++ "_" ++
            toString (j / 2))))⟩]

/-- The loop over the signatures from index `i` on.  The last assignment of a chain
reads the inner loop's variable `j` after that loop; for an empty signature it still
has the value of an earlier one, or none. -/
def portsFrom : ℕ → Option ℕ → List String → Emit Unit
  | _, _, [] => pure ()
  | i, j, hexVal :: rest => do
      .write ((evens hexVal.length).flatMap (stagePorts i hexVal))
      match (evens hexVal.length).getLast?.or j with
      | none => .raise .unboundLocalError
      | some j =>
          .write [.statement ⟨none, .select "reset" ("isMatching_" ++ toString i)
            [(.signal ("cmp_s" ++ toString i ++ "_0x" ++ slice hexVal j (j + 2) ++ "_" ++
              toString (j / 2)), .logic .zero)] (.logic .zero)⟩]
          portsFrom (i + 1) (some j) rest

def seq_detect_ports (hex_list : List String) : Emit Unit := portsFrom 0 none hex_list

def pull (i : ℕ) : Item :=
  .statement ⟨some ("pull_" ++ toString i),
    .instantiate "pull_up_module" [("enable", .signal "enable"), ("reset", .signal "reset"),
      ("isMatching", .signal ("isMatching_" ++ toString i)),
      ("out_isMatching", .signal ("output_" ++ toString i))]⟩

def pull_up_port (count : ℕ) : Emit Unit := .write ((List.range count).map pull)

def seq_detect_arch (hex_list : List String) : Emit Unit := do
  seq_detect_comps
  pull_up_comps
  seq_detect_signals hex_list
  pull_up_signals hex_list.length
  .write [.statement ⟨none, .select "data_in" "enable"
      [(.logic .zero, .bits "00000000")] (.logic .one)⟩,
    .statement ⟨none, .assign "input" (.copy (.signal "data_in"))⟩]
  seq_detect_ports hex_list
  pull_up_port hex_list.length

/-- `main`, from the lines of the signature file on. -/
def main (lines : List (List Byte)) : Emit Unit := do
  let sig_list := sort lines
  seq_detect_header sig_list.length
  seq_detect_arch (hexify sig_list)

/-- The netlist that the script emits for a signature file, with its comparators
bound to `compare`. -/
def detectorWith (compare : Entity) (lines : List (List Byte)) :
    Option (Netlist String Value) :=
  match (main lines).result with
  | .ok _ => netlist (libraryOf compare) (main lines).written
  | .error _ => none

def detector (lines : List (List Byte)) : Option (Netlist String Value) :=
  detectorWith byte_compare lines

/-- The synthesis view of the same design. -/
def synthesized (lines : List (List Byte)) : Option (Netlist String Value) :=
  detectorWith byte_compare_latch lines

end SeqDetect.Triggered
