import SeqDetect.Triggered.Stream

/-!
# Idle periods

While `data_in` is `x"00"` the first comparator is disabled, but the change to `x"00"`
still reaches the stages after an active one, and the byte after it reaches none of them.
So an idle period is harmless unless it comes between a followed part of the signature
and the byte that continues it.
-/

namespace SeqDetect.Triggered

open Delta Vhdl Script Pattern

/-- The data of a stream with idle periods. -/
def data (spaced : List Byte) : List Byte := spaced.filter (· ≠ 0)

/-- No idle period comes between a followed part of the signature and the byte that
continues it. -/
def Undisturbed (signature spaced : List Byte) : Prop :=
  ∀ before b rest, spaced = before ++ 0 :: b :: rest → b ≠ 0 →
    ∀ j, Followed signature j (data before) → signature[j + 1]? ≠ some b

theorem data_concat_zero (past : List Byte) : data (past ++ [0]) = data past := by
  simp [data]

theorem data_concat {b : Byte} (carried : b ≠ 0) (past : List Byte) :
    data (past ++ [b]) = data past ++ [b] := by
  rw [data, List.filter_append, List.filter_singleton, decide_eq_true carried]
  rfl

/-- A byte that is still on `data_in` is the latest one of the data. -/
theorem latest_data {past : List Byte} (carried : latest past ≠ 0) :
    latest (data past) = latest past := by
  rcases List.eq_nil_or_concat' past with rfl | ⟨front, b, rfl⟩
  · rfl
  · rw [latest_concat] at carried
    rw [data_concat carried, latest_concat, latest_concat]

theorem Undisturbed.of_prefix {signature past stream : List Byte} (isPrefix : past <+: stream)
    (undisturbed : Undisturbed signature stream) : Undisturbed signature past := by
  obtain ⟨others, rfl⟩ := isPrefix
  intro before b rest split
  exact undisturbed before b (rest ++ others) (by simp [split])

namespace Memory

variable {signature : List Byte} {memory : Memory}

@[simp] theorem carries_zero : carries 0#8 = false := rfl

theorem output_idle : (memory.step signature (present 0)).output = memory.output := by
  simp [step, next, present]

section Low

variable (low : memory.reset = false)
include low

theorem cmp_zero_idle : (memory.step signature (present 0)).cmp 0 = memory.cmp 0 := by
  simp [step, next, present, compared, released_eq low]

/-- The byte `x"00"` reaches every comparator after an active stage. -/
theorem cmp_succ_idle (nonzero : ∀ j, expects signature j 0 = false) (j : ℕ) :
    (memory.step signature (present 0)).cmp (j + 1) =
      (memory.cmp (j + 1) && !(carries memory.data_in && memory.cmp j)) := by
  by_cases changes : 0 ≠ memory.data_in
  · rw [cmp_succ_present low changes, nonzero]
    cases carries memory.data_in && memory.cmp j <;> simp
  · have unchanged : memory.data_in = 0 := (not_ne_iff.mp changes).symm
    simp [step, next, present, compared, unchanged, released_eq low]

end Low

end Memory

/-- The memory of a stream with idle periods beside the memory of its data. -/
structure Beside (signature past : List Byte) (spaced plain : Memory) : Prop where
  remembers : Remembers signature (data past) plain
  reset : spaced.reset = false
  data_in : spaced.data_in = latest past
  cmp_zero : spaced.cmp 0 = plain.cmp 0
  cmp_succ : ∀ j, spaced.cmp (j + 1) =
    (plain.cmp (j + 1) && (carries (latest past) || !plain.cmp j))
  output : spaced.output = plain.output

section Idle

variable {signature past : List Byte} {spaced plain : Memory} {b : Byte}

theorem beside_idle : Beside signature [] Memory.idle Memory.idle where
  remembers := remembers_idle
  reset := rfl
  data_in := rfl
  cmp_zero := rfl
  cmp_succ _ := rfl
  output := rfl

theorem Beside.cmp_of_carries (beside : Beside signature past spaced plain)
    (carried : carries (latest past) = true) (j : ℕ) : spaced.cmp j = plain.cmp j := by
  cases j with
  | zero => exact beside.cmp_zero
  | succ j => simp [beside.cmp_succ, carried]

theorem Beside.cmp_le (beside : Beside signature past spaced plain) {j : ℕ}
    (active : spaced.cmp j = true) : plain.cmp j = true := by
  cases j with
  | zero => rwa [← beside.cmp_zero]
  | succ j =>
      rw [beside.cmp_succ, Bool.and_eq_true] at active
      exact active.1

theorem Beside.concat_zero (beside : Beside signature past spaced plain)
    (nonzero : ∀ j, expects signature j 0 = false) :
    Beside signature (past ++ [0]) (spaced.step signature (present 0)) plain where
  remembers := by
    rw [data_concat_zero]
    exact beside.remembers
  reset := rfl
  data_in := by simp
  cmp_zero := by rw [Memory.cmp_zero_idle beside.reset, beside.cmp_zero]
  cmp_succ j := by
    rw [Memory.cmp_succ_idle beside.reset nonzero, beside.data_in, latest_concat]
    by_cases carried : carries (latest past) = true
    · rw [beside.cmp_of_carries carried, beside.cmp_of_carries carried, carried]
      simp
    · rw [Bool.not_eq_true] at carried
      rw [beside.cmp_succ, carried]
      simp
  output := by rw [Memory.output_idle, beside.output]

theorem Beside.concat_data (beside : Beside signature past spaced plain) (carried : b ≠ 0)
    (changing : Changing (data past ++ [b]))
    (undisturbed : latest past = 0 → ∀ j, Followed signature j (data past) →
      signature[j + 1]? ≠ some b) :
    Beside signature (past ++ [b]) (spaced.step signature (present b))
      (plain.step signature (present b)) := by
  have changes : b ≠ plain.data_in := by
    rw [beside.remembers.data_in]
    exact changing.ne_latest
  have changesSpaced : b ≠ spaced.data_in := by
    rw [beside.data_in]
    by_cases empty : latest past = 0
    · rwa [empty]
    · rw [← latest_data empty]
      exact changing.ne_latest
  have verdicts : ∀ j, (spaced.step signature (present b)).cmp j =
      (plain.step signature (present b)).cmp j := by
    intro j
    cases j with
    | zero =>
        rw [Memory.cmp_zero_present changesSpaced carried, Memory.cmp_zero_present changes carried]
    | succ j =>
        rw [Memory.cmp_succ_present beside.reset changesSpaced,
          Memory.cmp_succ_present beside.remembers.reset changes, beside.data_in,
          beside.cmp_succ]
        have enabled := beside.remembers.enabled_iff changing.of_concat.2 j
        by_cases empty : latest past = 0
        · have unread : carries (latest past) = false := by
            rw [empty]
            rfl
          rw [unread]
          by_cases active : plain.cmp j = true
          · have followed := (beside.remembers.cmp j).mp active
            have missed : expects signature (j + 1) b = false :=
              decide_eq_false (undisturbed empty j followed)
            rw [enabled.mpr followed, missed, active]
            simp
          · simp [active]
        · rw [beside.remembers.data_in, latest_data empty, carries_of_ne empty,
            beside.cmp_of_carries (carries_of_ne empty)]
          simp
  refine { remembers := ?_, reset := rfl, data_in := by simp, cmp_zero := verdicts 0,
           cmp_succ := ?_, output := ?_ }
  · rw [data_concat carried]
    exact beside.remembers.concat changing
  · intro j
    rw [verdicts, latest_concat, carries_of_ne carried]
    simp
  · have collected : spaced.cmp (signature.length - 1) = true → plain.output = true := by
      intro active
      exact beside.remembers.output_of_cmp (beside.cmp_le active)
    rw [Memory.output_present beside.reset, Memory.output_present beside.remembers.reset,
      verdicts, beside.output, carries_of_ne carried, Bool.true_and, Bool.true_and,
      ← Bool.or_assoc, ← Bool.or_assoc, Bool.or_eq_left_iff_imp.mpr collected,
      Bool.or_eq_left_iff_imp.mpr beside.remembers.output_of_cmp]

/-- After an idle period a stage misses the byte that it waits for. -/
theorem Beside.disturbed (beside : Beside signature past spaced plain) (carried : b ≠ 0)
    (changing : Changing (data past ++ [b])) (empty : latest past = 0) {j : ℕ}
    (followed : Followed signature j (data past)) (awaited : signature[j + 1]? = some b) :
    (spaced.step signature (present b)).cmp (j + 1) ≠
      (plain.step signature (present b)).cmp (j + 1) := by
  have changes : b ≠ plain.data_in := by
    rw [beside.remembers.data_in]
    exact changing.ne_latest
  have changesSpaced : b ≠ spaced.data_in := by
    rwa [beside.data_in, empty]
  have enabled := (beside.remembers.enabled_iff changing.of_concat.2 j).mpr followed
  have unread : carries (latest past) = false := by
    rw [empty]
    rfl
  rw [Memory.cmp_succ_present beside.reset changesSpaced,
    Memory.cmp_succ_present beside.remembers.reset changes, enabled, beside.data_in,
    beside.cmp_succ, unread, (beside.remembers.cmp j).mpr followed]
  simp [expects, awaited]

theorem beside_after {stream : List Byte} (nonzero : ∀ j, expects signature j 0 = false)
    (changing : Changing (data stream)) (undisturbed : Undisturbed signature stream) :
    Beside signature stream
      (Memory.after signature stream)
      (Memory.after signature (data stream)) := by
  induction stream using List.reverseRecOn with
  | nil => exact beside_idle
  | append_singleton past b inductionHypothesis =>
      rw [Memory.after_concat]
      by_cases carried : b ≠ 0
      · rw [data_concat carried] at changing ⊢
        rw [Memory.after_concat]
        have earlier := inductionHypothesis changing.of_concat
          (undisturbed.of_prefix (List.prefix_append _ _))
        refine earlier.concat_data carried changing ?_
        intro empty j followed
        rcases List.eq_nil_or_concat' past with rfl | ⟨front, c, rfl⟩
        · exact absurd followed (not_followed_nil j)
        · rw [latest_concat] at empty
          subst empty
          rw [data_concat_zero] at followed
          exact undisturbed front b [] (by simp) carried j followed
      · obtain rfl := not_ne_iff.mp carried
        rw [data_concat_zero] at changing ⊢
        exact (inductionHypothesis changing
          (undisturbed.of_prefix (List.prefix_append _ _))).concat_zero nonzero

/-- A disturbed stage misses its byte, so the verdicts tell the two streams apart. -/
theorem undisturbed_iff {stream : List Byte} (nonzero : ∀ j, expects signature j 0 = false)
    (changing : Changing (data stream)) :
    Undisturbed signature stream ↔ ∀ past b, past ++ [b] <+: stream → b ≠ 0 → ∀ j,
      (Memory.after signature (past ++ [b])).cmp j =
        (Memory.after signature (data (past ++ [b]))).cmp j := by
  constructor
  · intro undisturbed past b isPrefix carried
    refine (beside_after nonzero (changing.of_prefix (isPrefix.filter _))
      (undisturbed.of_prefix isPrefix)).cmp_of_carries ?_
    rw [latest_concat]
    exact carries_of_ne carried
  · intro agree
    induction stream using List.reverseRecOn with
    | nil => exact fun before b rest split => by simp at split
    | append_singleton stream c inductionHypothesis =>
        have inside : stream <+: stream ++ [c] := List.prefix_append _ _
        have changingStream := changing.of_prefix (inside.filter _)
        have undisturbed := inductionHypothesis changingStream fun past b isPrefix =>
          agree past b (isPrefix.trans inside)
        intro before b rest split carried j followed awaited
        rcases List.eq_nil_or_concat' rest with rfl | ⟨others, last, rfl⟩
        · have whole : stream ++ [c] = before ++ [0] ++ [b] := by
            simpa using split
          obtain ⟨rfl, same⟩ := List.append_inj' whole rfl
          rw [List.singleton_inj.mp same, data_concat carried] at changing
          rw [← data_concat_zero] at followed
          have same := agree (before ++ [0]) b (whole ▸ List.prefix_rfl) carried (j + 1)
          rw [data_concat carried, Memory.after_concat (before ++ [0]),
            Memory.after_concat (data _)] at same
          exact (beside_after nonzero changingStream undisturbed).disturbed carried changing
            (latest_concat _ _) followed awaited same
        · have whole : stream ++ [c] = before ++ 0 :: b :: others ++ [last] := by
            simpa using split
          obtain ⟨rfl, -⟩ := List.append_inj' whole rfl
          exact undisturbed before b others rfl carried j followed awaited

/-- An undisturbed stream gives the output of its data alone. -/
theorem fires_undisturbed {stream : List Byte} (nonzero : ∀ j, expects signature j 0 = false)
    (changing : Changing (data stream)) (undisturbed : Undisturbed signature stream)
    (data_in : Byte) (before : List Event) :
    fires signature data_in (before ++ release ++ stream.map present) =
      fires signature data_in (before ++ release ++ (data stream).map present) := by
  rw [fires_after, fires_after]
  exact (beside_after nonzero changing undisturbed).output

end Idle

/-- After a release of `reset`, the output is the same with the idle periods as without
them. -/
def IdlesTransparent (net : Netlist String Value) (output : String) (stream : List Byte) :
    Prop :=
  ∀ powerUp data_in before, ∃ final plainFinal,
    net.Reaches powerUp ((Event.mk true data_in).inputs ::
      List.map Event.inputs (before ++ release ++ stream.map present)) final ∧
    net.Reaches powerUp ((Event.mk true data_in).inputs ::
      List.map Event.inputs (before ++ release ++ (data stream).map present)) plainFinal ∧
    final output = plainFinal output

theorem idles_transparent_of_undisturbed {lines : List (List Byte)} (nonempty : lines ≠ [])
    (admissible : Admissible lines) :
    ∃ net, detector lines = some net ∧
      ∀ (i : ℕ) (bound : i < (signatures lines).length) (stream : List Byte),
        Changing (data stream) → Undisturbed (signatures lines)[i] stream →
          IdlesTransparent net (outputName i) stream := by
  obtain ⟨net, found, runs⟩ := exists_run nonempty admissible
  refine ⟨net, found, ?_⟩
  intro i bound stream changing undisturbed powerUp data_in before
  have nonzero := expects_zero (ne_zero_of_mem admissible (List.getElem_mem bound))
  obtain ⟨final, reaches, outputs⟩ := runs powerUp data_in
    (before ++ release ++ stream.map present)
  obtain ⟨plainFinal, plainReaches, plainOutputs⟩ := runs powerUp data_in
    (before ++ release ++ (data stream).map present)
  refine ⟨final, plainFinal, reaches, plainReaches, ?_⟩
  rw [outputs i bound, plainOutputs i bound, fires_undisturbed nonzero changing undisturbed]

/-- `x` and an idle period before `ab` do not disturb it. -/
theorem idles_transparent_of_undisturbed_ab :
    ∃ net, detector [[0x61, 0x62]] = some net ∧
      IdlesTransparent net (outputName 0) [0x78, 0, 0x61, 0x62, 0] := by
  obtain ⟨net, found, transparent⟩ := @idles_transparent_of_undisturbed [[0x61, 0x62]]
    (by decide) (by decide)
  refine ⟨net, found, transparent 0 (by decide) [0x78, 0, 0x61, 0x62, 0] (by decide) ?_⟩
  intro before b rest split carried j followed awaited
  obtain _ | ⟨c, _ | ⟨d, _ | ⟨e, _ | ⟨f, before⟩⟩⟩⟩ := before <;> simp at split
  · obtain ⟨rfl, rfl, rfl⟩ := split
    have awaits : ([0x61, 0x62] : List Byte)[j + 1]? = some 0x61 := awaited
    rcases j with _ | j <;> simp at awaits
  · exact absurd (congrArg List.length split.2.2.2.2) (by simp; omega)

/-- An idle period between `a` and `b` loses the match. -/
theorem idle_disturbs_ab :
    ∃ net, detector [[0x61, 0x62]] = some net ∧ Changing (data [0x61, 0, 0x62]) ∧
      ¬ IdlesTransparent net "output_0" [0x61, 0, 0x62] := by
  obtain ⟨net, found, runs⟩ := @exists_run [[0x61, 0x62]] (by decide) (by decide)
  refine ⟨net, found, by decide, ?_⟩
  intro transparent
  obtain ⟨final, plainFinal, reaches, plainReaches, same⟩ :=
    transparent (fun _ => .bit false) 0 []
  obtain ⟨_, reached, outputs⟩ := runs (fun _ => .bit false) 0
    ([] ++ release ++ [0x61, 0, 0x62].map present)
  obtain ⟨_, plainReached, plainOutputs⟩ := runs (fun _ => .bit false) 0
    ([] ++ release ++ (data [0x61, 0, 0x62]).map present)
  obtain rfl := reaches.unique reached
  obtain rfl := plainReaches.unique plainReached
  have output : final "output_0" = _ := outputs 0 (by decide)
  have plainOutput : plainFinal "output_0" = _ := plainOutputs 0 (by decide)
  rw [output, plainOutput, Value.bit_inj] at same
  exact absurd same (by decide)

end SeqDetect.Triggered
