import Mathlib.Data.List.DropRight
import Mathlib.Data.List.Infix
import Mathlib.Tactic

/-!
# Occurrences of a word

How the prefixes of a word that end a stream, and the occurrences of the word inside
it, change when the stream grows by one symbol.
-/

namespace SeqDetect.Pattern

variable {α : Type*} {word past : List α} {x : α}

theorem concat_suffix_concat {front : List α} {last : α} :
    front ++ [last] <:+ past ++ [x] ↔ front <:+ past ∧ last = x := by
  rw [List.suffix_concat_iff]
  simp only [List.append_eq_nil_iff, List.cons_ne_nil, and_false, false_or]
  constructor
  · rintro ⟨rest, equality, suffix⟩
    obtain ⟨rfl, same⟩ := List.append_inj' equality rfl
    exact ⟨suffix, List.singleton_inj.mp same⟩
  · rintro ⟨suffix, rfl⟩
    exact ⟨front, rfl, suffix⟩

/-- One more symbol extends the prefix that ends the stream, or breaks it. -/
theorem take_succ_suffix_concat {j : ℕ} (bound : j < word.length) :
    word.take (j + 1) <:+ past ++ [x] ↔ word.take j <:+ past ∧ word[j] = x := by
  rw [List.take_succ_eq_append_getElem bound, concat_suffix_concat]

/-- The first `j` symbols of the word have just been read, none of them as the first
symbol of the stream. -/
def Progress (word : List α) (j : ℕ) (stream : List α) : Prop :=
  stream ≠ [] ∧ word.take j <:+ stream.tail

instance [DecidableEq α] (word : List α) (j : ℕ) : DecidablePred (Progress word j) :=
  fun _ => inferInstanceAs (Decidable (_ ∧ _))

theorem not_progress_nil (j : ℕ) : ¬ Progress word j [] := by
  simp [Progress]

theorem progress_zero_concat : Progress word 0 (past ++ [x]) := by
  simp [Progress]

theorem progress_succ_concat {j : ℕ} (bound : j < word.length) :
    Progress word (j + 1) (past ++ [x]) ↔ Progress word j past ∧ word[j] = x := by
  cases past with
  | nil =>
      have positive : word ≠ [] := List.ne_nil_of_length_pos (by omega)
      simp [Progress, positive]
  | cons first past => simp [Progress, take_succ_suffix_concat bound]

/-- The first symbol of the stream is not among the last `j` of them. -/
theorem progress_iff {stream : List α} {j : ℕ} (bound : j ≤ word.length) :
    Progress word j stream ↔ j + 1 ≤ stream.length ∧ stream.rtake j = word.take j := by
  cases stream with
  | nil => simp [Progress]
  | cons first rest =>
      have size : (word.take j).length = j := List.length_take_of_le bound
      have latest : j ≤ rest.length → (first :: rest).rtake j = rest.drop (rest.length - j) := by
        intro inside
        change (first :: rest).drop (rest.length + 1 - j) = _
        rw [Nat.succ_sub inside, List.drop_succ_cons]
      constructor
      · rintro ⟨-, suffix⟩
        have inside : j ≤ rest.length := size ▸ suffix.length_le
        have same := List.suffix_iff_eq_drop.mp suffix
        rw [size] at same
        exact ⟨Nat.succ_le_succ inside, (latest inside).trans same.symm⟩
      · rintro ⟨enough, same⟩
        rw [latest (Nat.le_of_succ_le_succ enough)] at same
        refine ⟨List.cons_ne_nil _ _, ?_⟩
        rw [← same]
        exact List.drop_suffix _ _

/-- Where a long prefix has been read, the shorter ones that have been read are its borders. -/
theorem Progress.border_iff {stream : List α} {j m : ℕ} (reached : Progress word m stream)
    (shorter : j ≤ m) : Progress word j stream ↔ word.take j <:+ word.take m := by
  constructor
  · rintro ⟨-, suffix⟩
    apply List.suffix_of_suffix_length_le suffix reached.2
    rw [List.length_take, List.length_take]
    exact min_le_min_right _ shorter
  · intro border
    exact ⟨reached.1, border.trans reached.2⟩

/-- The prefixes that have been read are the borders of the longest of them. -/
theorem exists_borders [DecidableEq α] {stream : List α} (some_symbol : stream ≠ [])
    (positive : word ≠ []) :
    ∃ m < word.length, ∀ j < word.length,
      (Progress word j stream ↔ word.take j <:+ word.take m) := by
  have empty : Progress word 0 stream := ⟨some_symbol, by simp⟩
  let m := Nat.findGreatest (fun j => Progress word j stream) (word.length - 1)
  have bound : m < word.length :=
    lt_of_le_of_lt (Nat.findGreatest_le _) (Nat.sub_one_lt (List.length_pos_iff.mpr positive).ne')
  have reached : Progress word m stream :=
    Nat.findGreatest_spec (P := fun j => Progress word j stream) (Nat.zero_le _) empty
  refine ⟨m, bound, ?_⟩
  intro j inside
  rcases Nat.lt_or_ge m j with longer | shorter
  · refine iff_of_false (Nat.findGreatest_is_greatest longer (Nat.le_sub_one_of_lt inside)) ?_
    intro border
    have sizes := border.length_le
    rw [List.length_take_of_le inside.le, List.length_take_of_le bound.le] at sizes
    exact absurd longer (Nat.not_lt.mpr sizes)
  · exact reached.border_iff shorter

/-- An occurrence ends when the last symbol follows the rest of the word. -/
theorem suffix_tail_concat (bound : word.length - 1 < word.length) :
    word <:+ (past ++ [x]).tail ↔
      Progress word (word.length - 1) past ∧ word[word.length - 1] = x := by
  rw [← progress_succ_concat bound, Nat.sub_add_cancel (by omega), Progress, List.take_length]
  simp

theorem infix_tail_concat (positive : word ≠ []) :
    word <:+: (past ++ [x]).tail ↔ word <:+: past.tail ∨ word <:+ (past ++ [x]).tail := by
  cases past with
  | nil => simp [positive]
  | cons first past => simp [List.infix_concat_iff, or_comm]

theorem infix_tail_dropLast_concat :
    word <:+: (past ++ [x]).tail.dropLast ↔ word <:+: past.tail := by
  cases past with
  | nil => simp
  | cons first past => simp

/-- `word` is the block that starts at position `a` of the stream, positions counted
from `1` on. -/
def BlockAt (word stream : List α) (a : ℕ) : Prop :=
  ∀ k < word.length, stream[a - 1 + k]? = word[k]?

/-- A block between the second symbol and the last but one is an occurrence in what
remains when the first and the last symbol are dropped. -/
theorem exists_blockAt_iff {stream : List α} (nonempty : word ≠ []) :
    (∃ a, 2 ≤ a ∧ a + word.length - 1 ≤ stream.length - 1 ∧ BlockAt word stream a) ↔
      word <:+: stream.tail.dropLast := by
  have positive : 0 < word.length := List.length_pos_iff.mpr nonempty
  rw [List.infix_iff_getElem?]
  have inside : ∀ a k, a + 2 + k < stream.length →
      stream.tail.dropLast[k + a]? = stream[a + 2 - 1 + k]? := by
    intro a k bound
    rw [List.getElem?_dropLast, if_pos (by rw [List.length_tail]; omega), List.getElem?_tail]
    congr 1
    omega
  constructor
  · rintro ⟨a, second, last, block⟩
    obtain ⟨a, rfl⟩ := Nat.exists_eq_add_of_le' second
    refine ⟨a, by rw [List.length_dropLast, List.length_tail]; omega, ?_⟩
    intro k bound
    rw [inside a k (by omega), block k bound, List.getElem?_eq_getElem bound]
  · rintro ⟨a, last, block⟩
    rw [List.length_dropLast, List.length_tail] at last
    refine ⟨a + 2, by omega, by omega, ?_⟩
    intro k bound
    rw [← inside a k (by omega), block k bound, List.getElem?_eq_getElem bound]

/-- `b_1 … b_m` of an unbounded stream, whose first symbol has index `0`. -/
def upTo (stream : ℕ → α) (m : ℕ) : List α := (List.range m).map stream

/-- `word` is read from index `a` of the stream on. -/
def OccursAt (word : List α) (stream : ℕ → α) (a : ℕ) : Prop :=
  ∀ k (bound : k < word.length), stream (a + k) = word[k]

@[simp] theorem length_upTo (stream : ℕ → α) (m : ℕ) : (upTo stream m).length = m := by
  simp [upTo]

theorem getElem?_upTo {stream : ℕ → α} {m k : ℕ} (bound : k < m) :
    (upTo stream m)[k]? = some (stream k) := by
  simp [upTo, bound]

theorem infix_upTo_iff {stream : ℕ → α} {m : ℕ} :
    word <:+: upTo stream m ↔ ∃ a, a + word.length ≤ m ∧ OccursAt word stream a := by
  rw [List.infix_iff_getElem?, length_upTo]
  constructor
  · rintro ⟨a, inside, block⟩
    refine ⟨a, by omega, ?_⟩
    intro k bound
    have found := block k bound
    rw [getElem?_upTo (by omega), Nat.add_comm] at found
    exact Option.some.inj found
  · rintro ⟨a, inside, occurs⟩
    refine ⟨a, by omega, ?_⟩
    intro k bound
    rw [getElem?_upTo (by omega), Nat.add_comm, occurs k bound]

theorem tail_dropLast_upTo (stream : ℕ → α) (m : ℕ) :
    (upTo stream m).tail.dropLast = upTo (fun k => stream (k + 1)) (m - 2) := by
  apply List.ext_getElem?
  intro k
  rw [List.getElem?_dropLast, List.length_tail, length_upTo, List.getElem?_tail]
  by_cases inside : k < m - 2
  · rw [if_pos (by omega), getElem?_upTo (by omega), getElem?_upTo inside]
  · rw [if_neg (by omega), List.getElem?_eq_none (by rw [length_upTo]; omega)]

theorem occursAt_succ {stream : ℕ → α} {a : ℕ} :
    OccursAt word (fun k => stream (k + 1)) a ↔ OccursAt word stream (a + 1) := by
  simp only [OccursAt, Nat.add_right_comm]

end SeqDetect.Pattern
