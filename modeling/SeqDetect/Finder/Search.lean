import SeqDetect.Finder.Run
import SeqDetect.Pattern.Restart

/-!
# What the finder searches for

Between two resets the registers of the finder hold the state of a restarting scan for the
bytes before the first zero byte of `SF_User_Sequence`.  `SF_Sequence_Found` shows the scan as it
was two clock edges ago; at the first edge after a reset it shows what `End_Of_Sequence` held
before the reset, which does not clear it.
-/

namespace SeqDetect.Finder

open Delta Pattern

/-- A value of `std_logic_vector(63 downto 0)` with eight defined bytes. -/
structure Word where
  bytes : List Byte
  size : bytes.length = 8

namespace Word

variable (word : Word)

def value : Value := .word word.bytes

/-- The sequence that is searched for ends before the first zero byte. -/
def target : List Byte := word.bytes.takeWhile (· ≠ 0)

/-- `Sequence` after `p` shifts. -/
def shifted (p : ℕ) : Value := .word (word.bytes.drop p ++ List.replicate p 0)

theorem length_target_le : word.target.length ≤ 8 :=
  word.size ▸ (List.takeWhile_prefix _).length_le

/-- Up to its end the target is what the word holds, and there the word holds a zero byte or
nothing. -/
theorem getD_takeWhile (bytes : List Byte) {p : ℕ}
    (bound : p ≤ (bytes.takeWhile (· ≠ 0)).length) :
    bytes[p]?.getD 0 = (bytes.takeWhile (· ≠ 0))[p]?.getD 0 := by
  induction bytes generalizing p with
  | nil => rfl
  | cons b bytes inductionHypothesis =>
      by_cases zero : b = 0
      · obtain rfl : p = 0 := by simpa [zero] using bound
        simp [zero]
      · rw [List.takeWhile_cons_of_pos (by simpa using zero)] at bound ⊢
        cases p with
        | zero => rfl
        | succ p => exact inductionHypothesis (Nat.le_of_succ_le_succ bound)

theorem getD_eq {p : ℕ} (bound : p ≤ word.target.length) :
    word.bytes[p]?.getD 0 = word.target[p]?.getD 0 :=
  getD_takeWhile word.bytes bound

theorem target_ne_zero {p : ℕ} (bound : p < word.target.length) : word.target[p] ≠ 0 := by
  simpa using List.mem_takeWhile_imp (List.getElem_mem bound)

/-- No byte of the target is zero. -/
theorem getD_eq_zero_iff {p : ℕ} (bound : p ≤ word.target.length) :
    word.target[p]?.getD 0 = 0 ↔ p = word.target.length := by
  rcases Nat.lt_or_eq_of_le bound with inside | rfl
  · rw [List.getElem?_eq_getElem inside, Option.getD_some]
    exact iff_of_false (word.target_ne_zero inside) inside.ne
  · simp

end Word

section Slices

variable {bytes : List Byte}

/-- `(63 downto 56)`. -/
theorem slice_first (size : bytes.length = 8) :
    (Value.word bytes).slice 63 63 56 = .byte (bytes[0]?.getD 0) := by
  rw [Value.slice_word 0 1 rfl rfl, List.drop_zero, List.take_one]
  obtain ⟨b, rest, rfl⟩ := List.exists_cons_of_length_eq_add_one size
  rfl

/-- `(55 downto 48)`. -/
theorem slice_second (size : bytes.length = 8) :
    (Value.word bytes).slice 63 55 48 = .byte (bytes[1]?.getD 0) := by
  rw [Value.slice_word 1 1 rfl rfl, List.take_one]
  obtain ⟨b, rest, rfl⟩ := List.exists_cons_of_length_eq_add_one size
  obtain ⟨c, rest, rfl⟩ := List.exists_cons_of_length_eq_add_one (Nat.succ.inj size)
  rfl

end Slices

namespace Word

variable (word : Word)

theorem length_shifted {p : ℕ} (bound : p ≤ 8) :
    (word.bytes.drop p ++ List.replicate p 0).length = 8 := by
  rw [List.length_append, List.length_drop, word.size, List.length_replicate]
  omega

theorem shifted_zero : word.shifted 0 = word.value := by simp [shifted, value]

theorem getElem?_shifted {p : ℕ} (bound : p ≤ 8) :
    (word.bytes.drop p ++ List.replicate p 0)[0]?.getD 0 = word.bytes[p]?.getD 0 := by
  rcases Nat.lt_or_eq_of_le bound with inside | rfl
  · rw [List.getElem?_append_left (by rw [List.length_drop, word.size]; omega),
      List.getElem?_drop, Nat.add_zero]
  · rw [List.drop_of_length_le word.size.le, List.getElem?_eq_none word.size.le]
    rfl

/-- The first byte of the shifted sequence is the next one to be found. -/
theorem slice_shifted {p : ℕ} (bound : p ≤ 8) :
    (word.shifted p).slice 63 63 56 = .byte (word.bytes[p]?.getD 0) := by
  rw [shifted, slice_first (word.length_shifted bound), word.getElem?_shifted bound]

/-- `Sequence(55 downto 0) & "00000000"`. -/
theorem shift_shifted {p : ℕ} (bound : p < 8) :
    .join [(word.shifted p).slice 63 55 0, .zeros 8] = word.shifted (p + 1) := by
  have inside : p < word.bytes.length := word.size ▸ bound
  rw [shifted, Value.slice_word 1 7 rfl rfl, Value.zeros_word 1]
  rw [List.take_of_length_le (by rw [List.length_drop, word.length_shifted bound.le])]
  rw [List.drop_append_of_le_length (by rw [List.length_drop]; omega), List.drop_drop]
  have joined := Value.join_word
    [word.bytes.drop (p + 1) ++ List.replicate p 0, List.replicate 1 0]
  rw [List.map_cons, List.map_cons, List.map_nil] at joined
  rw [joined, shifted]
  simp [List.replicate_succ']

/-- `SF_User_Sequence(47 downto 0) & "0000000000000000"`. -/
theorem shift_two : .join [word.value.slice 63 47 0, .zeros 16] = word.shifted 2 := by
  have joined := Value.join_word [word.bytes.drop 2, List.replicate 2 0]
  rw [List.map_cons, List.map_cons, List.map_nil] at joined
  rw [value, Value.slice_word 2 6 rfl rfl, Value.zeros_word 2, shifted]
  rw [List.take_of_length_le (by rw [List.length_drop, word.size]), joined]
  simp

end Word

section Scanning

variable {word : Word} {current : Registers} {before after : Inputs}

/-- The registers of a settled finder that has loaded the word, by the state of the scan. -/
def Holds (word : Word) (current : Registers) : Scan Byte → Prop
  | .run matched => matched ≤ word.target.length ∧ current.Mismatch_Occurred = .bit false ∧
      current.Sequence = word.shifted matched
  | .lost latest => word.target ≠ [] ∧ current.Mismatch_Occurred = .bit true ∧
      current.Sequence = word.value ∧ current.Previous_Data = .byte latest

/-- A clock edge out of reset, with the word and a settled byte on the ports. -/
structure Samples (word : Word) (x : Byte) (before after : Inputs) (current : Registers) :
    Prop where
  edge : Edge before after
  reset : after.SF_Reset ≠ .logic .one
  sequence : after.SF_User_Sequence = word.value
  user_data : after.SF_User_Data = .byte x
  data : current.Data = .byte x

theorem Samples.touched {x : Byte} (samples : Samples word x before after current) :
    Touched before after := .inl samples.edge.2

theorem Samples.branch_run {x : Byte} {matched : ℕ}
    (samples : Samples word x before after current) (holds : Holds word current (.run matched)) :
    branch before after current =
      if matched = word.target.length then .ended
      else .normal (decide (x = word.target[matched]?.getD 0)) := by
  obtain ⟨bound, mismatch, sequence⟩ := holds
  have fits : matched ≤ 8 := bound.trans word.length_target_le
  have normal : current.Mismatch_Occurred ≠ .logic .one := by
    rw [mismatch]
    decide
  rw [branch, if_neg samples.reset, if_pos samples.edge, if_neg normal, sequence,
    word.slice_shifted fits, samples.data, Value.zeros_eight, Value.equals_byte, Value.equals_byte]
  simp only [decide_eq_true_eq, word.getD_eq bound, word.getD_eq_zero_iff bound]

theorem Samples.branch_lost {x latest : Byte} (samples : Samples word x before after current)
    (holds : Holds word current (.lost latest)) :
    branch before after current =
      if word.target.length ≤ 1 then .single (decide (x = word.target[0]?.getD 0))
      else .pair (decide (latest = word.target[0]?.getD 0) &&
        decide (x = word.target[1]?.getD 0)) := by
  obtain ⟨nonempty, special, -, previous⟩ := holds
  have positive : 0 < word.target.length := List.length_pos_iff.mpr nonempty
  have short : 1 = word.target.length ↔ word.target.length ≤ 1 := by omega
  have high : current.Mismatch_Occurred = .logic .one := special
  rw [branch, if_neg samples.reset, if_pos samples.edge, if_pos high, samples.sequence,
    Word.value, slice_first word.size, slice_second word.size, samples.data, previous,
    Value.zeros_eight, Value.equals_byte, Value.equals_byte, Value.equals_byte, Value.equals_byte]
  simp only [decide_eq_true_eq, word.getD_eq (Nat.zero_le _), word.getD_eq positive,
    word.getD_eq_zero_iff positive, short]

section Paths

variable {x : Byte} {path : Branch}

/-- What an edge that takes the given path leaves in the registers. -/
theorem Samples.step_eq (samples : Samples word x before after current)
    (taken : branch before after current = path) :
    (current.step before after).Mismatch_Occurred =
        (Mismatch_Occurred path).getD current.Mismatch_Occurred ∧
      (current.step before after).Previous_Data =
        (Previous_Data after current path).getD current.Previous_Data ∧
      (current.step before after).Sequence =
        (Sequence after current path).getD current.Sequence := by
  simp [Registers.step, Registers.next, samples.touched, taken]

/-- A mismatch reloads the word and keeps the byte. -/
theorem Samples.missed (samples : Samples word x before after current)
    (nonempty : word.target ≠ [])
    (taken : branch before after current ∈ [.single false, .pair false, .normal false]) :
    Holds word (current.step before after) (.lost x) := by
  obtain ⟨mismatch, previous, sequence⟩ := samples.step_eq rfl
  rw [Holds, mismatch, previous, sequence, ← samples.user_data, ← samples.sequence]
  simp only [List.mem_cons, List.not_mem_nil, or_false] at taken
  rcases taken with taken | taken | taken <;> rw [taken] <;> exact ⟨nonempty, rfl, rfl, rfl⟩

/-- A match drops the first byte of the sequence. -/
theorem Samples.matched (samples : Samples word x before after current) {matched : ℕ}
    (inside : matched < word.target.length) (sequence : current.Sequence = word.shifted matched)
    (taken : branch before after current ∈ [.single true, .normal true]) :
    Holds word (current.step before after) (.run (matched + 1)) := by
  obtain ⟨mismatch, -, next⟩ := samples.step_eq rfl
  rw [Holds, mismatch, next, ← word.shift_shifted (inside.trans_le word.length_target_le),
    ← sequence]
  simp only [List.mem_cons, List.not_mem_nil, or_false] at taken
  rcases taken with taken | taken <;> rw [taken] <;> exact ⟨inside, rfl, rfl⟩

end Paths

/-- One clock edge is one step of the scan. -/
theorem Holds.edge {x : Byte} {scan : Scan Byte} (holds : Holds word current scan)
    (samples : Samples word x before after current) :
    Holds word (current.step before after) (scan.step word.target x) := by
  cases scan with
  | run matched =>
      have taken := samples.branch_run holds
      obtain ⟨bound, low, shifted⟩ := holds
      rcases Nat.lt_or_eq_of_le bound with inside | rfl
      · rw [if_neg inside.ne, List.getElem?_eq_getElem inside, Option.getD_some] at taken
        rw [Scan.step_run inside]
        split_ifs with same
        · rw [decide_eq_true same.symm] at taken
          exact samples.matched inside shifted (by simp [taken])
        · rw [decide_eq_false (Ne.symm same)] at taken
          exact samples.missed (List.ne_nil_of_length_pos (by omega)) (by simp [taken])
      · rw [if_pos rfl] at taken
        obtain ⟨mismatch, -, next⟩ := samples.step_eq taken
        rw [Scan.step_whole]
        exact ⟨le_rfl, mismatch.trans low, next.trans shifted⟩
  | lost latest =>
      have taken := samples.branch_lost holds
      obtain ⟨nonempty, -, whole, -⟩ := holds
      have positive : 0 < word.target.length := List.length_pos_iff.mpr nonempty
      simp only [Scan.step, List.getElem?_eq_getElem positive, Option.some.injEq]
      rw [List.getElem?_eq_getElem positive, Option.getD_some] at taken
      split_ifs with short first both
      · rw [if_pos short, decide_eq_true first.symm] at taken
        exact samples.matched positive (whole.trans word.shifted_zero.symm) (by simp [taken])
      · rw [if_pos short, decide_eq_false (Ne.symm first)] at taken
        exact samples.missed nonempty (by simp [taken])
      · have second : 1 < word.target.length := by omega
        rw [List.getElem?_eq_getElem second, Option.some.injEq] at both
        rw [if_neg short, List.getElem?_eq_getElem second, Option.getD_some,
          decide_eq_true both.1.symm, decide_eq_true both.2.symm] at taken
        obtain ⟨mismatch, -, next⟩ := samples.step_eq taken
        refine ⟨second, mismatch, next.trans ?_⟩
        rw [Finder.Sequence, samples.sequence]
        exact word.shift_two
      · have second : 1 < word.target.length := by omega
        rw [List.getElem?_eq_getElem second, Option.some.injEq] at both
        have differ : (decide (latest = word.target[0]) && decide (x = word.target[1])) = false := by
          rw [← Bool.decide_and, decide_eq_false]
          exact fun same => both ⟨same.1.symm, same.2.symm⟩
        rw [if_neg short, List.getElem?_eq_getElem second, Option.getD_some, differ] at taken
        exact samples.missed nonempty (by simp [taken])

end Scanning

end SeqDetect.Finder
