import SeqDetect.Triggered.Stream
import Mathlib.Data.List.Destutter

/-!
# Repeated bytes

Only a change of `data_in` resumes the design, so that a byte that follows an equal one is not
seen at all.
-/

namespace SeqDetect.Triggered

open Delta Vhdl Script Pattern

variable {signature past stream : List Byte} {memory : Memory} {b : Byte}

/-- The bytes that change `data_in`. -/
def changes (stream : List Byte) : List Byte := stream.destutter (· ≠ ·)

theorem Remembers.repeat (remembers : Remembers signature past memory) (same : latest past = b) :
    Remembers signature past (memory.step signature (present b)) := by
  have unchanged : memory.data_in = b := remembers.data_in.trans same
  have released : ∀ j, memory.released signature j = memory.cmp j :=
    Memory.released_eq remembers.reset
  have kept : ∀ j, (memory.step signature (present b)).cmp j = memory.cmp j := by
    intro j
    cases j <;> simp [Memory.step, Memory.next, present, Memory.compared, unchanged, released]
  refine { reset := rfl, data_in := by simp [same], cmp := ?_, output := ?_ }
  · intro j
    rw [kept, remembers.cmp]
  · rw [Memory.output_present remembers.reset, kept, Bool.or_self, ← remembers.output]
    simp only [Bool.or_eq_true, Bool.and_eq_true, or_iff_left_iff_imp]
    exact fun active => remembers.output_of_cmp active.2

/-- Behind a byte, the chain remembers the further changes only. -/
theorem Remembers.changes (remembers : Remembers signature (past ++ [b]) memory)
    (changing : Changing (past ++ [b])) (data : ∀ b ∈ stream, b ≠ 0) :
    Remembers signature (past ++ stream.destutter' (· ≠ ·) b)
      ((stream.map present).foldl (Memory.step signature) memory) := by
  induction stream generalizing past memory b with
  | nil => simpa using remembers
  | cons next rest inductionHypothesis =>
      have others : ∀ b ∈ rest, b ≠ 0 := fun b inside => data b (List.mem_cons_of_mem _ inside)
      rw [List.map_cons, List.foldl_cons, List.destutter'_cons]
      by_cases different : b ≠ next
      · have more : Changing (past ++ [b] ++ [next]) := by
          refine ⟨List.isChain_append.mpr ⟨changing.1, List.isChain_singleton _, ?_⟩, ?_⟩
          · simpa using different
          · intro other inside
            rcases List.mem_append.mp inside with earlier | last
            · exact changing.2 other earlier
            · rw [List.mem_singleton.mp last]
              exact data next List.mem_cons_self
        rw [if_pos different, List.append_cons]
        exact inductionHypothesis (remembers.concat more) more others
      · obtain rfl : b = next := not_not.mp different
        rw [if_neg different]
        exact inductionHypothesis (remembers.repeat (by simp)) changing others

theorem remembers_changes (data : ∀ b ∈ stream, b ≠ 0) :
    Remembers signature (changes stream) (Memory.after signature stream) := by
  cases stream with
  | nil => exact remembers_idle
  | cons b rest =>
      have first : Changing ([] ++ [b]) := ⟨List.isChain_singleton _, by
        simpa using data b List.mem_cons_self⟩
      exact (remembers_idle.concat first).changes first
        fun b inside => data b (List.mem_cons_of_mem _ inside)

/-- Whatever happened before the release, the output tells whether the signature is followed in
the changes of the stream. -/
theorem fires_changes (data : ∀ b ∈ stream, b ≠ 0) (data_in : Byte) (before : List Event) :
    fires signature data_in (before ++ release ++ stream.map present) = true ↔
      FollowedIn signature (changes stream) := by
  rw [fires_after]
  exact (remembers_changes data).output

theorem reports_changes {lines : List (List Byte)} (nonempty : lines ≠ [])
    (admissible : Admissible lines) :
    ∃ net, detector lines = some net ∧
      ∀ powerUp data_in before (stream : List Byte),
        (∀ b ∈ stream, b ≠ 0) → ∃ final,
          net.Reaches powerUp ((Event.mk true data_in).inputs ::
            List.map Event.inputs (before ++ release ++ stream.map present)) final ∧
          ∀ (i : ℕ) (bound : i < (signatures lines).length),
            final (outputName i) = .logic .one ↔
              FollowedIn (signatures lines)[i] (changes stream) := by
  obtain ⟨net, found, runs⟩ := exists_run nonempty admissible
  refine ⟨net, found, ?_⟩
  intro powerUp data_in before stream data
  obtain ⟨final, reaches, outputs⟩ := runs powerUp data_in
    (before ++ release ++ stream.map present)
  refine ⟨final, reaches, ?_⟩
  intro i bound
  rw [outputs i bound, Value.bit_eq_one, fires_changes data]

/-- Of `aab` the design sees `ab` only. -/
theorem reports_changes_aab :
    ∃ net, detector [[0x61, 0x61, 0x62]] = some net ∧
      ∀ powerUp data_in before, ∃ final,
        net.Reaches powerUp ((Event.mk true data_in).inputs ::
          List.map Event.inputs (before ++ release ++ [0x61, 0x61, 0x62].map present)) final ∧
        (final (outputName 0) = .logic .one ↔
          FollowedIn ([0x61, 0x61, 0x62] : List Byte) (changes [0x61, 0x61, 0x62])) := by
  obtain ⟨net, found, reports⟩ := @reports_changes [[0x61, 0x61, 0x62]] (by decide) (by decide)
  refine ⟨net, found, ?_⟩
  intro powerUp data_in before
  obtain ⟨final, reaches, outputs⟩ := reports powerUp data_in before [0x61, 0x61, 0x62] (by decide)
  exact ⟨final, reaches, outputs 0 (by decide)⟩

end SeqDetect.Triggered
