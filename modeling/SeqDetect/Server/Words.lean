import SeqDetect.Server.Receive
import SeqDetect.Pattern.Chunks

/-!
# The words of a delivery

The loop of port 8 cuts the bytes below its local `len` into groups of four, the last one
padded, and prints each group as a big-endian word.
-/

namespace SeqDetect.Server

open Delta (Byte)
open Pattern

def bigEndian (octets : Fin 4 → Byte) : BitVec 32 :=
  promoted (octets 0) <<< 24 ||| promoted (octets 1) <<< 16 ||| promoted (octets 2) <<< 8 |||
    promoted (octets 3)

/-- The words that stand for some bytes. -/
def words (bytes : List Byte) : List (BitVec 32) := (chunks 4 0xFF bytes).map bigEndian

/-- The indices that are read. -/
def reads (effects : List Effect) : List ℕ :=
  effects.filterMap fun
    | .read index => some index
    | _ => none

theorem length_words (bytes : List Byte) : (words bytes).length = (bytes.length + 3) / 4 := by
  simp [words, chunks]

theorem bigEndian_injective : Function.Injective bigEndian := by
  have octet : ∀ (octets : Fin 4 → Byte) (r : Fin 4) (i : ℕ), i < 8 →
      (bigEndian octets).getLsbD (8 * (3 - r) + i) = (octets r).getLsbD i := by
    intro octets r i bound
    fin_cases r <;> interval_cases i <;> simp [bigEndian, promoted]
  intro first second same
  funext r
  apply BitVec.eq_of_getLsbD_eq
  intro i bound
  rw [← octet first r i bound, same, octet second r i bound]

theorem words_inj_iff {first second : List Byte} :
    words first = words second ↔
      first = second ∨ WritesOut 4 0xFF first second ∨ WritesOut 4 0xFF second first := by
  rw [words, words, (List.map_injective_iff.mpr bigEndian_injective).eq_iff,
    chunks_inj_iff (by decide)]

theorem promoted_excess : promoted 0xFF = EXCESS := rfl

variable {packet : ℕ → Byte} {len : ℕ}

/-- The four branches of the loop body pad what lies behind `len`. -/
theorem packetSeq_eq {k : ℕ} (inside : 4 * k < len) :
    packetSeq packet len (4 * k) =
      bigEndian (chunk 4 0xFF ((List.range len).map packet) k) := by
  have octet : ∀ r : Fin 4, chunk 4 0xFF ((List.range len).map packet) k r =
      if 4 * k + r < len then packet (4 * k + r) else 0xFF := by
    intro r
    rw [chunk, List.getD_eq_getElem?_getD, List.getElem?_map]
    split
    · rename_i bound
      simp [bound]
    · rename_i bound
      simp [List.getElem?_eq_none (show (List.range len).length ≤ 4 * k + r by simpa using bound)]
  rw [bigEndian, octet, octet, octet, octet, packetSeq]
  by_cases partial_word : 4 * k + 4 > len
  · rcases (by omega : len = 4 * k + 1 ∨ len = 4 * k + 2 ∨ len = 4 * k + 3) with
      rfl | rfl | rfl <;> simp [← promoted_excess]
  · have full : ∀ r : Fin 4, 4 * k + r < len := fun r => by omega
    rw [if_neg partial_word, if_pos (full 0), if_pos (full 1), if_pos (full 2), if_pos (full 3)]
    rfl

theorem printed_seqLoop (packet : ℕ → Byte) (len : ℕ) :
    printed (seqLoop packet len) = words ((List.range len).map packet) := by
  have body : ∀ i, printed ((packetReads len i).map .read ++
      [.xil_printf "%08x\n" (packetSeq packet len i)]) = [packetSeq packet len i] := by
    intro i
    simp [printed, List.filterMap_append, List.filterMap_map]
  rw [words, chunks, seqLoop, printed, List.filterMap_flatMap,
    List.flatMap_map]
  simp only [printed] at body
  simp only [body, List.map_map, List.length_map, List.length_range, ← List.map_eq_flatMap]
  apply List.map_congr_left
  intro k membership
  have inside : 4 * k < len := by
    have := List.mem_range.mp membership
    omega
  simpa using packetSeq_eq inside

theorem mem_packetReads {i k : ℕ} (inside : 4 * k < len) :
    i ∈ packetReads len (4 * k) ↔ i < len ∧ 4 * k ≤ i ∧ i < 4 * k + 4 := by
  by_cases partial_word : 4 * k + 4 > len
  · rcases (by omega : len = 4 * k + 1 ∨ len = 4 * k + 2 ∨ len = 4 * k + 3) with
      rfl | rfl | rfl
    · have octets : packetReads (4 * k + 1) (4 * k) = [4 * k] := by simp [packetReads]
      rw [octets, List.mem_singleton]
      omega
    · have octets : packetReads (4 * k + 2) (4 * k) = [4 * k, 4 * k + 1] := by simp [packetReads]
      rw [octets, List.mem_pair]
      omega
    · have octets : packetReads (4 * k + 3) (4 * k) = [4 * k, 4 * k + 1, 4 * k + 2] := by
        simp [packetReads]
      rw [octets, List.mem_cons, List.mem_pair]
      omega
  · simp only [packetReads, if_neg partial_word, List.mem_cons, List.not_mem_nil, or_false]
    omega

/-- The loop reads every index below `len` and no other one. -/
theorem mem_reads_seqLoop {i : ℕ} : i ∈ reads (seqLoop packet len) ↔ i < len := by
  have body : ∀ k, i ∈ reads ((packetReads len (4 * k)).map .read ++
      [.xil_printf "%08x\n" (packetSeq packet len (4 * k))]) ↔ i ∈ packetReads len (4 * k) := by
    intro k
    simp [reads, List.filterMap_append, List.filterMap_map]
  rw [reads, seqLoop, List.filterMap_flatMap, List.flatMap_map,
    List.mem_flatMap]
  simp only [List.mem_range]
  constructor
  · rintro ⟨k, bound, membership⟩
    exact ((mem_packetReads (by omega)).mp ((body k).mp membership)).1
  · intro bound
    refine ⟨i / 4, by omega, (body _).mpr ((mem_packetReads (by omega)).mpr ?_)⟩
    omega

end SeqDetect.Server
