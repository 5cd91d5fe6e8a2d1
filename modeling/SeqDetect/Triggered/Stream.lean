import SeqDetect.Triggered.Detector
import SeqDetect.Pattern.Followed

/-!
# Streams of changing bytes

With `reset` low and one change of `data_in` per byte, a comparator is renewed exactly
while the stage before it is active, and otherwise keeps a verdict that may be long out of
date.  So a chain reports every signature that the stream follows, which contains more
than the contiguous occurrences.
-/

namespace SeqDetect.Triggered

open Delta Vhdl Script Pattern

/-- A byte is put on `data_in` while `reset` is low. -/
def present (b : Byte) : Event := ⟨false, b⟩

/-- `reset` is high and is released while `data_in` shows no data. -/
def release : List Event := [⟨true, 0⟩, ⟨false, 0⟩]

/-- The bytes of a signature are data. -/
theorem ne_zero_of_mem {lines : List (List Byte)} (admissible : Admissible lines)
    {signature : List Byte} (membership : signature ∈ signatures lines) :
    ∀ b ∈ signature, b ≠ 0 := by
  rintro b inside rfl
  have tooSmall := (admissible.of_mem membership).2 0 inside
  simp at tooSmall

theorem expects_zero {signature : List Byte} (nonzero : ∀ b ∈ signature, b ≠ 0) (j : ℕ) :
    expects signature j 0 = false :=
  decide_eq_false fun zero => nonzero 0 (List.mem_of_getElem? zero) rfl

/-- Data bytes, each of which differs from the one before. -/
def Changing (stream : List Byte) : Prop :=
  stream.IsChain (· ≠ ·) ∧ ∀ b ∈ stream, b ≠ 0

instance (stream : List Byte) : Decidable (Changing stream) :=
  inferInstanceAs (Decidable (_ ∧ _))

theorem Changing.of_prefix {past stream : List Byte} (isPrefix : past <+: stream)
    (changing : Changing stream) : Changing past := by
  obtain ⟨rest, rfl⟩ := isPrefix
  exact ⟨(List.isChain_append.mp changing.1).1, fun b membership =>
    changing.2 b (List.mem_append_left _ membership)⟩

theorem Changing.of_concat {past : List Byte} {b : Byte} (changing : Changing (past ++ [b])) :
    Changing past :=
  changing.of_prefix (List.prefix_append _ _)

/-- The latest byte of a stream; before the first one there is no data. -/
def latest (stream : List Byte) : Byte := stream.getLast?.getD 0

@[simp] theorem latest_nil : latest [] = 0 := rfl

@[simp] theorem latest_concat (past : List Byte) (b : Byte) : latest (past ++ [b]) = b := by
  simp [latest]

theorem Changing.ne_latest {past : List Byte} {b : Byte} (changing : Changing (past ++ [b])) :
    b ≠ latest past := by
  rcases List.eq_nil_or_concat' past with rfl | ⟨front, c, rfl⟩
  · exact changing.2 b (by simp)
  · rw [latest_concat]
    have adjacent := (List.isChain_append.mp changing.1).2.2 c (by simp) b (by simp)
    exact adjacent.symm

theorem carries_of_ne {b : Byte} (data : b ≠ 0) : carries b = true := decide_eq_true data

namespace Memory

variable {signature : List Byte} {memory : Memory} {b : Byte}

/-- After a release without data nothing is remembered. -/
def idle : Memory := ⟨false, 0, fun _ => false, false⟩

theorem next_reset (signature : List Byte) (memory : Memory) (data_in : Byte)
    (verdict : ℕ → Bool) : memory.next signature ⟨true, data_in⟩ verdict = cleared data_in := rfl

@[simp] theorem data_in_cleared (data_in : Byte) : (cleared data_in).data_in = data_in := rfl

@[simp] theorem cmp_cleared (data_in : Byte) (j : ℕ) : (cleared data_in).cmp j = false := rfl

@[simp] theorem released_cleared (j : ℕ) : (cleared 0#8).released signature j = false := by
  cases j <;> simp [released, enabled, cleared, carries]

/-- A release without data leaves every comparator low, whichever way it is resumed. -/
theorem next_cleared {verdict : ℕ → Bool} (low : ∀ j, verdict j = false) :
    (cleared 0).next signature ⟨false, 0⟩ verdict = idle := by
  simp only [next, idle, cleared, mk.injEq, true_and]
  exact ⟨funext fun j => by simp [low], by simp [carries]⟩

theorem foldl_release (signature : List Byte) (memory : Memory) :
    release.foldl (step signature) memory = idle := by
  simp only [release, List.foldl_cons, List.foldl_nil, step, next_reset]
  apply next_cleared
  intro j
  cases j <;> simp [compared]

theorem foldl_release_latch (signature : List Byte) (memory : Memory) :
    release.foldl (stepLatch signature) memory = idle := by
  simp only [release, List.foldl_cons, List.foldl_nil, stepLatch, next_reset]
  apply next_cleared
  intro j
  cases j <;> simp [rippled, enabled, carries]

/-- The first comparator takes every byte of data. -/
theorem cmp_zero_present (changes : b ≠ memory.data_in) (data : b ≠ 0) :
    (memory.step signature (present b)).cmp 0 = expects signature 0 b := by
  simp [step, next, present, compared, changes, carries_of_ne data]

section Low

variable (low : memory.reset = false)
include low

theorem released_eq (j : ℕ) : memory.released signature j = memory.cmp j := by
  simp [released, low]

/-- Every other one takes a byte while the stage before it is active. -/
theorem cmp_succ_present (changes : b ≠ memory.data_in) (j : ℕ) :
    (memory.step signature (present b)).cmp (j + 1) =
      if carries memory.data_in && memory.cmp j then expects signature (j + 1) b
      else memory.cmp (j + 1) := by
  simp [step, next, present, compared, enabled, changes, released_eq low]

theorem output_present :
    (memory.step signature (present b)).output =
      (memory.output || carries b && (memory.cmp (signature.length - 1) ||
        (memory.step signature (present b)).cmp (signature.length - 1))) := by
  simp [step, next, present, released_eq low]

end Low

/-- The memory after a stream of bytes that follows a release. -/
def after (signature stream : List Byte) : Memory :=
  (stream.map present).foldl (step signature) idle

theorem after_concat (past : List Byte) (b : Byte) :
    after signature (past ++ [b]) = (after signature past).step signature (present b) := by
  simp [after]

@[simp] theorem reset_present : (memory.step signature (present b)).reset = false := rfl

@[simp] theorem data_in_present : (memory.step signature (present b)).data_in = b := rfl

end Memory

/-- The memory after a stream of changing bytes. -/
structure Remembers (signature past : List Byte) (memory : Memory) : Prop where
  reset : memory.reset = false
  data_in : memory.data_in = latest past
  cmp : ∀ j, memory.cmp j = true ↔ Followed signature j past
  output : memory.output = true ↔ FollowedIn signature past

section Streams

variable {signature past : List Byte} {memory : Memory} {b : Byte}

theorem remembers_idle : Remembers signature [] Memory.idle where
  reset := rfl
  data_in := rfl
  cmp j := by simp [Memory.idle, not_followed_nil]
  output := by simp [Memory.idle, not_followedIn_nil]

/-- A stage that is active has seen data. -/
theorem carries_latest {j : ℕ} (data : ∀ b ∈ past, b ≠ 0) (active : Followed signature j past) :
    carries (latest past) = true := by
  rcases List.eq_nil_or_concat' past with rfl | ⟨front, c, rfl⟩
  · exact absurd active (not_followed_nil j)
  · rw [latest_concat]
    exact carries_of_ne (data c (by simp))

theorem Remembers.enabled_iff (remembers : Remembers signature past memory)
    (data : ∀ b ∈ past, b ≠ 0) (j : ℕ) :
    (carries memory.data_in && memory.cmp j) = true ↔ Followed signature j past := by
  rw [Bool.and_eq_true, remembers.cmp, remembers.data_in, and_iff_right_iff_imp]
  exact carries_latest data

/-- The last stage cannot be active without the output. -/
theorem Remembers.output_of_cmp (remembers : Remembers signature past memory)
    (active : memory.cmp (signature.length - 1) = true) : memory.output = true :=
  remembers.output.mpr ⟨past, List.prefix_rfl, (remembers.cmp _).mp active⟩

theorem Remembers.concat (remembers : Remembers signature past memory)
    (changing : Changing (past ++ [b])) :
    Remembers signature (past ++ [b]) (memory.step signature (present b)) := by
  have changes : b ≠ memory.data_in := by
    rw [remembers.data_in]
    exact changing.ne_latest
  have data : b ≠ 0 := changing.2 b (by simp)
  have verdicts : ∀ j, (memory.step signature (present b)).cmp j = true ↔
      Followed signature j (past ++ [b]) := by
    intro j
    cases j with
    | zero =>
        rw [Memory.cmp_zero_present changes data, followed_zero_concat]
        simp [expects]
    | succ j =>
        rw [Memory.cmp_succ_present remembers.reset changes, followed_succ_concat,
          ← remembers.enabled_iff changing.of_concat.2 j, ← remembers.cmp (j + 1)]
        by_cases active : (carries memory.data_in && memory.cmp j) = true
        · simp [active, expects]
        · simp [active]
  refine { reset := rfl, data_in := by simp, cmp := verdicts, output := ?_ }
  rw [Memory.output_present remembers.reset, carries_of_ne data, Bool.true_and, ← Bool.or_assoc,
    Bool.or_eq_true, Bool.or_eq_true, or_iff_left_of_imp remembers.output_of_cmp, verdicts,
    remembers.output, followedIn_concat]

theorem remembers_after {stream : List Byte} (changing : Changing stream) :
    Remembers signature stream (Memory.after signature stream) := by
  induction stream using List.reverseRecOn with
  | nil => exact remembers_idle
  | append_singleton past b inductionHypothesis =>
      rw [Memory.after_concat]
      exact (inductionHypothesis changing.of_concat).concat changing

/-- Nothing that happened before a release matters after it. -/
theorem fires_after (stream : List Byte) (data_in : Byte) (before : List Event) :
    fires signature data_in (before ++ release ++ stream.map present) =
      (Memory.after signature stream).output := by
  rw [fires, List.foldl_append, List.foldl_append, Memory.foldl_release, Memory.after]

/-- Whatever happened before the release, the output tells whether the signature is
followed in the stream. -/
theorem fires_stream {stream : List Byte} (changing : Changing stream) (data_in : Byte)
    (before : List Event) :
    fires signature data_in (before ++ release ++ stream.map present) = true ↔
      FollowedIn signature stream := by
  rw [fires_after]
  exact (remembers_after changing).output

end Streams

/-- After a release of `reset` and the stream, the output is high exactly if the signature
occurs in the stream. -/
def ReportsContiguous (net : Netlist String Value) (output : String)
    (signature stream : List Byte) : Prop :=
  ∀ powerUp data_in before, ∃ final,
    net.Reaches powerUp ((Event.mk true data_in).inputs ::
      List.map Event.inputs (before ++ release ++ stream.map present)) final ∧
    (final output = .logic .one ↔ signature <:+: stream)

theorem reportsContiguous_iff_of_shows {net : Netlist String Value} {own : List (List Byte)}
    (runs : Shows net own fires) {i : ℕ} (bound : i < own.length) (nonempty : own[i] ≠ [])
    {stream : List Byte} (changing : Changing stream) :
    ReportsContiguous net (outputName i) own[i] stream ↔
      (FollowedIn own[i] stream → own[i] <:+: stream) := by
  constructor
  · intro reports followed
    obtain ⟨final, reaches, high⟩ := reports (fun _ => .bit false) 0 []
    obtain ⟨_, reached, outputs⟩ := runs (fun _ => .bit false) 0
      ([] ++ release ++ stream.map present)
    obtain rfl := reaches.unique reached
    rw [← high, outputs i bound, Value.bit_eq_one, fires_stream changing]
    exact followed
  · intro contiguous powerUp data_in before
    obtain ⟨final, reaches, outputs⟩ := runs powerUp data_in
      (before ++ release ++ stream.map present)
    refine ⟨final, reaches, ?_⟩
    rw [outputs i bound, Value.bit_eq_one, fires_stream changing]
    exact ⟨contiguous, followedIn_of_infix nonempty⟩

theorem reportsContiguous_iff {lines : List (List Byte)} (nonempty : lines ≠ [])
    (admissible : Admissible lines) :
    ∃ net, detector lines = some net ∧
      ∀ (i : ℕ) (bound : i < (signatures lines).length) (stream : List Byte),
        Changing stream →
          (ReportsContiguous net (outputName i) (signatures lines)[i] stream ↔
            (FollowedIn (signatures lines)[i] stream → (signatures lines)[i] <:+: stream)) := by
  obtain ⟨net, found, runs⟩ := exists_run nonempty admissible
  refine ⟨net, found, ?_⟩
  intro i bound stream changing
  exact reportsContiguous_iff_of_shows runs bound
    (admissible.of_mem (List.getElem_mem bound)).1 changing

theorem reportsContiguous_iff_abc :
    ∃ net, detector [[0x61, 0x62, 0x63]] = some net ∧
      (ReportsContiguous net (outputName 0) [0x61, 0x62, 0x63] [0x78, 0x61, 0x62, 0x63] ↔
        (FollowedIn ([0x61, 0x62, 0x63] : List Byte) [0x78, 0x61, 0x62, 0x63] →
          ([0x61, 0x62, 0x63] : List Byte) <:+: [0x78, 0x61, 0x62, 0x63])) := by
  obtain ⟨net, found, reports⟩ := @reportsContiguous_iff [[0x61, 0x62, 0x63]]
    (by decide) (by decide)
  exact ⟨net, found, reports 0 (by decide) [0x78, 0x61, 0x62, 0x63] (by decide)⟩

/-- In the stream `abxc` the second stage of `abc` is still active after `x`. -/
theorem reports_abc_in_abxc :
    ∃ net, detector [[0x61, 0x62, 0x63]] = some net ∧
      Changing [0x61, 0x62, 0x78, 0x63] ∧
      ¬ ReportsContiguous net "output_0" [0x61, 0x62, 0x63] [0x61, 0x62, 0x78, 0x63] := by
  obtain ⟨net, found, runs⟩ := @exists_run [[0x61, 0x62, 0x63]] (by decide) (by decide)
  refine ⟨net, found, by decide, ?_⟩
  intro reports
  obtain ⟨final, reaches, high⟩ := reports (fun _ => .bit false) 0 []
  obtain ⟨_, reached, outputs⟩ := runs (fun _ => .bit false) 0
    ([] ++ release ++ [0x61, 0x62, 0x78, 0x63].map present)
  obtain rfl := reaches.unique reached
  have output : final "output_0" = _ := outputs 0 (by decide)
  rw [output, Value.bit_eq_one] at high
  exact absurd (high.mp (by decide)) (by decide)

end SeqDetect.Triggered
