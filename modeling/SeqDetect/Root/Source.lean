import SeqDetect.Clocked.Sample

/-!
# The root design

`byte_compare.vhd`, `pull_up_module.vhd` and `seq_detect.vhd` at the root of the sources;
`FF.vhd` is the one of the clocked design.  No script emits this `seq_detect.vhd`.
-/

namespace SeqDetect.Root

open Delta Vhdl
open Clocked.Sample (flipflop gate copy)

def byte_compare : Entity where
  ports := [⟨"data_in", .input, .std_logic_vector 7 0⟩,
    ⟨"sig_in", .input, .std_logic_vector 7 0⟩, ⟨"is_valid", .output, .std_logic⟩]
  driven := "is_valid"
  process :=
    { sensitivity := ["data_in", "sig_in"]
      body shown :=
        if shown.now "data_in" = shown.now "sig_in" then some (.logic .one)
        else some (.logic .zero) }

/-- A latch without a clock, set by any high level of `isMatching`. -/
def pull_up_module : Entity where
  ports := [⟨"reset", .input, .std_logic⟩, ⟨"isMatching", .input, .std_logic⟩,
    ⟨"out_isMatching", .output, .std_logic⟩]
  driven := "out_isMatching"
  process :=
    { sensitivity := ["reset", "isMatching"]
      body shown :=
        if shown.now "reset" = .logic .one then
          some (.logic .zero)
        else if shown.now "isMatching" = .logic .one then some (.logic .one)
        else none }

def library : Library := fun component =>
  if component = "FF" then some Clocked.FF
  else if component = "byte_compare" then some byte_compare
  else if component = "pull_up_module" then some pull_up_module
  else none

section Statements

def compare (label literal target : String) : Item :=
  .statement ⟨some label, .instantiate "byte_compare" [("data_in", .signal "input"),
    ("sig_in", .hex literal), ("is_valid", .signal target)]⟩

def pull (label isMatching target : String) : Item :=
  .statement ⟨some label, .instantiate "pull_up_module" [("reset", .signal "reset"),
    ("isMatching", .signal isMatching), ("out_isMatching", .signal target)]⟩

end Statements

/-- The architecture body of `seq_detect.vhd`. -/
def seq_detect : List Item :=
  [
    copy "input" "data_in",
    compare "byte_comp_s0_6a_0" "6a" "cmp_s0_0x6a_0",
    flipflop "flipflop_s0_f0" (.logic .one) "s0_ff_0",
    gate "and_s0_ff_0" "out_and_s0_ff_0" "s0_ff_0" "cmp_s0_0x6a_0",
    compare "byte_comp_s0_61_1" "61" "cmp_s0_0x61_1",
    flipflop "flipflop_s0_f1" (.signal "out_and_s0_ff_0") "s0_ff_1",
    gate "and_s0_ff_1" "out_and_s0_ff_1" "s0_ff_1" "cmp_s0_0x61_1",
    compare "byte_comp_s0_79_2" "79" "cmp_s0_0x79_2",
    flipflop "flipflop_s0_f2" (.signal "out_and_s0_ff_1") "s0_ff_2",
    gate "and_s0_ff_2" "out_and_s0_ff_2" "s0_ff_2" "cmp_s0_0x79_2",
    copy "isMatching_0" "out_and_s0_ff_2",
    compare "byte_comp_s1_6b_0" "6b" "cmp_s1_0x6b_0",
    flipflop "flipflop_s1_f0" (.logic .one) "s1_ff_0",
    gate "and_s1_ff_0" "out_and_s1_ff_0" "s1_ff_0" "cmp_s1_0x6b_0",
    compare "byte_comp_s1_61_1" "61" "cmp_s1_0x61_1",
    flipflop "flipflop_s1_f1" (.signal "out_and_s1_ff_0") "s1_ff_1",
    gate "and_s1_ff_1" "out_and_s1_ff_1" "s1_ff_1" "cmp_s1_0x61_1",
    compare "byte_comp_s1_72_2" "72" "cmp_s1_0x72_2",
    flipflop "flipflop_s1_f2" (.signal "out_and_s1_ff_1") "s1_ff_2",
    gate "and_s1_ff_2" "out_and_s1_ff_2" "s1_ff_2" "cmp_s1_0x72_2",
    compare "byte_comp_s1_72_3" "72" "cmp_s1_0x72_3",
    flipflop "flipflop_s1_f3" (.signal "out_and_s1_ff_2") "s1_ff_3",
    gate "and_s1_ff_3" "out_and_s1_ff_3" "s1_ff_3" "cmp_s1_0x72_3",
    compare "byte_comp_s1_69_4" "69" "cmp_s1_0x69_4",
    flipflop "flipflop_s1_f4" (.signal "out_and_s1_ff_3") "s1_ff_4",
    gate "and_s1_ff_4" "out_and_s1_ff_4" "s1_ff_4" "cmp_s1_0x69_4",
    copy "isMatching_1" "out_and_s1_ff_4",
    compare "byte_comp_s2_73_0" "73" "cmp_s2_0x73_0",
    flipflop "flipflop_s2_f0" (.logic .one) "s2_ff_0",
    gate "and_s2_ff_0" "out_and_s2_ff_0" "s2_ff_0" "cmp_s2_0x73_0",
    compare "byte_comp_s2_74_1" "74" "cmp_s2_0x74_1",
    flipflop "flipflop_s2_f1" (.signal "out_and_s2_ff_0") "s2_ff_1",
    gate "and_s2_ff_1" "out_and_s2_ff_1" "s2_ff_1" "cmp_s2_0x74_1",
    compare "byte_comp_s2_65_2" "65" "cmp_s2_0x65_2",
    flipflop "flipflop_s2_f2" (.signal "out_and_s2_ff_1") "s2_ff_2",
    gate "and_s2_ff_2" "out_and_s2_ff_2" "s2_ff_2" "cmp_s2_0x65_2",
    compare "byte_comp_s2_76_3" "76" "cmp_s2_0x76_3",
    flipflop "flipflop_s2_f3" (.signal "out_and_s2_ff_2") "s2_ff_3",
    gate "and_s2_ff_3" "out_and_s2_ff_3" "s2_ff_3" "cmp_s2_0x76_3",
    compare "byte_comp_s2_65_4" "65" "cmp_s2_0x65_4",
    flipflop "flipflop_s2_f4" (.signal "out_and_s2_ff_3") "s2_ff_4",
    gate "and_s2_ff_4" "out_and_s2_ff_4" "s2_ff_4" "cmp_s2_0x65_4",
    compare "byte_comp_s2_6e_5" "6e" "cmp_s2_0x6e_5",
    flipflop "flipflop_s2_f5" (.signal "out_and_s2_ff_4") "s2_ff_5",
    gate "and_s2_ff_5" "out_and_s2_ff_5" "s2_ff_5" "cmp_s2_0x6e_5",
    copy "isMatching_2" "out_and_s2_ff_5",
    compare "byte_comp_s3_7a_0" "7a" "cmp_s3_0x7a_0",
    flipflop "flipflop_s3_f0" (.logic .one) "s3_ff_0",
    gate "and_s3_ff_0" "out_and_s3_ff_0" "s3_ff_0" "cmp_s3_0x7a_0",
    compare "byte_comp_s3_68_1" "68" "cmp_s3_0x68_1",
    flipflop "flipflop_s3_f1" (.signal "out_and_s3_ff_0") "s3_ff_1",
    gate "and_s3_ff_1" "out_and_s3_ff_1" "s3_ff_1" "cmp_s3_0x68_1",
    compare "byte_comp_s3_69_2" "69" "cmp_s3_0x69_2",
    flipflop "flipflop_s3_f2" (.signal "out_and_s3_ff_1") "s3_ff_2",
    gate "and_s3_ff_2" "out_and_s3_ff_2" "s3_ff_2" "cmp_s3_0x69_2",
    compare "byte_comp_s3_72_3" "72" "cmp_s3_0x72_3",
    flipflop "flipflop_s3_f3" (.signal "out_and_s3_ff_2") "s3_ff_3",
    gate "and_s3_ff_3" "out_and_s3_ff_3" "s3_ff_3" "cmp_s3_0x72_3",
    compare "byte_comp_s3_6f_4" "6f" "cmp_s3_0x6f_4",
    flipflop "flipflop_s3_f4" (.signal "out_and_s3_ff_3") "s3_ff_4",
    gate "and_s3_ff_4" "out_and_s3_ff_4" "s3_ff_4" "cmp_s3_0x6f_4",
    compare "byte_comp_s3_6e_5" "6e" "cmp_s3_0x6e_5",
    flipflop "flipflop_s3_f5" (.signal "out_and_s3_ff_4") "s3_ff_5",
    gate "and_s3_ff_5" "out_and_s3_ff_5" "s3_ff_5" "cmp_s3_0x6e_5",
    compare "byte_comp_s3_67_6" "67" "cmp_s3_0x67_6",
    flipflop "flipflop_s3_f6" (.signal "out_and_s3_ff_5") "s3_ff_6",
    gate "and_s3_ff_6" "out_and_s3_ff_6" "s3_ff_6" "cmp_s3_0x67_6",
    copy "isMatching_3" "out_and_s3_ff_6",
    pull "pull_0" "isMatching_0" "output_0",
    pull "pull_1" "isMatching_1" "output_1",
    pull "pull_2" "isMatching_2" "output_2",
    pull "pull_3" "isMatching_3" "output_3"
  ]

def detector : Option (Netlist String Value) := netlist library seq_detect

end SeqDetect.Root
