import SeqDetect.Triggered.Idle

/-!
# The two views of a comparator

A comparator whose process also lists `enable` is a latch that is transparent while it is
enabled.  The two views part at the events that raise an enable signal only when the byte
is already on `data_in`: the comparator as it is written is asleep then, the latch compares
the byte.  On a schedule without such an event they agree.  A one-byte signature has only
the comparator whose enable signal comes with the byte; every longer one has schedules that
tell the views apart, for an idle period keeps its second byte from the written design.
-/

namespace SeqDetect.Triggered

open Delta Vhdl Script Pattern

namespace Memory

variable {signature : List Byte} {memory latch : Memory} {b : Byte}

/-- The new byte resumes comparator `j` while it is enabled. -/
def resumed (memory : Memory) (data_in : Byte) : ℕ → Bool
  | 0 => data_in ≠ memory.data_in && carries data_in
  | j + 1 => data_in ≠ memory.data_in && memory.enabled (j + 1)

/-- Comparator `j + 1` gets its enable signal from stage `j`, but the byte does not resume
it any more. -/
def overdue (signature : List Byte) (memory : Memory) (data_in : Byte) (j : ℕ) : Bool :=
  carries data_in && !memory.resumed data_in (j + 1) &&
    (memory.released signature j || (memory.resumed data_in j && expects signature j data_in))

/-- An event whose overdue comparators have the verdict on its byte anyway. -/
def Timely (signature : List Byte) (memory : Memory) (event : Event) : Prop :=
  event.reset = false → ∀ j < signature.length - 1,
    memory.overdue signature event.data_in j = true →
      memory.released signature (j + 1) = expects signature (j + 1) event.data_in

instance (signature : List Byte) (memory : Memory) (event : Event) :
    Decidable (Timely signature memory event) :=
  inferInstanceAs (Decidable (_ → _))

/-- Every event of the schedule is timely for the memory that it meets. -/
def OnTime (signature : List Byte) : Memory → List Event → Prop
  | _, [] => True
  | memory, event :: events =>
      Timely signature memory event ∧ OnTime signature (memory.step signature event) events

instance decidableOnTime (signature : List Byte) : (memory : Memory) → (events : List Event) →
    Decidable (OnTime signature memory events)
  | _, [] => inferInstanceAs (Decidable True)
  | memory, event :: events =>
      have := decidableOnTime signature (memory.step signature event) events
      inferInstanceAs (Decidable (_ ∧ _))

theorem compared_eq (memory : Memory) (data_in : Byte) (j : ℕ) :
    memory.compared signature data_in j =
      if memory.resumed data_in j then expects signature j data_in
      else memory.released signature j := by
  cases j <;> rfl

/-- The memories of the two views of one chain.  The verdict of an enabled comparator is
the one on the byte that `data_in` shows. -/
structure Alike (signature : List Byte) (memory latch : Memory) : Prop where
  reset : memory.reset = latch.reset
  data_in : memory.data_in = latch.data_in
  cmp : ∀ j < signature.length, memory.cmp j = latch.cmp j
  output : memory.output = latch.output
  current : ∀ j < signature.length, memory.enabled j = true →
    memory.released signature j = expects signature j memory.data_in

theorem alike_cleared (data_in : Byte) :
    Alike signature (cleared data_in) (cleared data_in) where
  reset := rfl
  data_in := rfl
  cmp _ _ := rfl
  output := rfl
  current j _ enabled := by simp [Memory.released, cleared] at enabled ⊢; simp [enabled]

section Step

variable (alike : Alike signature memory latch)
include alike

theorem Alike.enabled {j : ℕ} (bound : j < signature.length) :
    latch.enabled j = memory.enabled j := by
  cases j with
  | zero => rw [Memory.enabled, Memory.enabled, alike.data_in]
  | succ j => rw [Memory.enabled, Memory.enabled, alike.data_in, alike.cmp j (by omega)]

theorem Alike.released {j : ℕ} (bound : j < signature.length) :
    latch.released signature j = memory.released signature j := by
  rw [Memory.released, Memory.released, alike.enabled bound, alike.reset, alike.data_in,
    alike.cmp j bound]

theorem Alike.verdict_zero (nonempty : 0 < signature.length) (data_in : Byte) :
    latch.rippled signature data_in 0 = memory.compared signature data_in 0 := by
  rw [Memory.compared, Memory.rippled, alike.released nonempty]
  by_cases changes : data_in ≠ memory.data_in
  · simp [changes]
  · obtain rfl := not_ne_iff.mp changes
    cases carried : carries memory.data_in with
    | true => simp [alike.current 0 nonempty (by rw [Memory.enabled, carried])]
    | false => simp

/-- Where stage `j` has the same verdict in both views, so has the next one, unless it is
overdue. -/
theorem Alike.verdict_succ {data_in : Byte} {j : ℕ} (bound : j + 1 < signature.length)
    (same : latch.rippled signature data_in j = memory.compared signature data_in j) :
    latch.rippled signature data_in (j + 1) =
      if memory.overdue signature data_in j then expects signature (j + 1) data_in
      else memory.compared signature data_in (j + 1) := by
  have opened : (memory.released signature j || memory.compared signature data_in j) =
      (memory.released signature j ||
        (memory.resumed data_in j && expects signature j data_in)) := by
    rw [compared_eq]
    cases memory.resumed data_in j <;> simp
  rw [Memory.rippled, same, alike.enabled bound, alike.released bound,
    alike.released (by omega : j < signature.length), opened, overdue, compared_eq memory _ (j + 1)]
  by_cases enabled : memory.enabled (j + 1) = true
  · by_cases changes : data_in ≠ memory.data_in
    · simp [resumed, changes, enabled]
    · obtain rfl := not_ne_iff.mp changes
      simp [enabled, alike.current _ bound enabled]
  · simp [resumed, enabled]

/-- An event is timely exactly if it gives every comparator the same verdict in both
views. -/
theorem Alike.timely_iff {event : Event} : Timely signature memory event ↔
    (event.reset = false → ∀ j < signature.length,
      latch.rippled signature event.data_in j = memory.compared signature event.data_in j) := by
  constructor
  · intro timely low j bound
    induction j with
    | zero => exact alike.verdict_zero bound event.data_in
    | succ j inductionHypothesis =>
        rw [alike.verdict_succ bound (inductionHypothesis (by omega))]
        split
        case isTrue late =>
          have asleep : memory.resumed event.data_in (j + 1) = false := by
            simp only [overdue, Bool.and_eq_true, Bool.not_eq_true'] at late
            exact late.1.2
          rw [compared_eq, asleep, timely low j (by omega) late]
          rfl
        case isFalse => rfl
  · intro verdicts low j bound late
    have asleep : memory.resumed event.data_in (j + 1) = false := by
      simp only [overdue, Bool.and_eq_true, Bool.not_eq_true'] at late
      exact late.1.2
    have same := verdicts low (j + 1) (by omega)
    rw [alike.verdict_succ (by omega) (verdicts low j (by omega)), if_pos late, compared_eq,
      asleep] at same
    exact same.symm

theorem Alike.cmp_step_iff {event : Event} : Timely signature memory event ↔
    ∀ j < signature.length, (memory.step signature event).cmp j =
      (latch.stepLatch signature event).cmp j := by
  rw [alike.timely_iff]
  cases raised : event.reset with
  | true => simp [step, stepLatch, next, raised]
  | false => simp [step, stepLatch, next, raised, eq_comm]

theorem Alike.step {event : Event} (timely : Timely signature memory event)
    (nonempty : signature ≠ []) :
    Alike signature (memory.step signature event) (latch.stepLatch signature event) := by
  have positive := List.length_pos_of_ne_nil nonempty
  have last : signature.length - 1 < signature.length := by omega
  have verdicts := alike.cmp_step_iff.mp timely
  refine { reset := rfl, data_in := rfl, cmp := verdicts, output := ?_, current := ?_ }
  · have verdict := verdicts _ last
    cases raised : event.reset with
    | true => simp [Memory.step, stepLatch, next, raised]
    | false =>
        simp only [Memory.step, stepLatch, next, raised, Bool.not_false, Bool.true_and]
          at verdict ⊢
        rw [alike.released last, alike.cmp _ last, alike.output, verdict]
  · intro j bound enabled
    cases raised : event.reset with
    | true =>
        cases j with
        | zero =>
            have carried : carries event.data_in = true := enabled
            simp [Memory.released, Memory.step, next, raised, carried, Memory.enabled]
        | succ j => simp [Memory.enabled, Memory.step, next, raised] at enabled
    | false =>
        have shown : (memory.step signature event).released signature j =
            (latch.stepLatch signature event).cmp j := by
          rw [← verdicts j bound]
          simp [Memory.released, Memory.step, next, raised]
        rw [shown]
        cases j with
        | zero =>
            have carried : carries event.data_in = true := enabled
            simp [stepLatch, next, raised, rippled, carried, Memory.step]
        | succ j =>
            have opens : carries event.data_in = true ∧
                latch.rippled signature event.data_in j = true := by
              rw [Memory.enabled, Bool.and_eq_true, verdicts j (by omega)] at enabled
              simpa [Memory.step, stepLatch, next, raised] using enabled
            simp [stepLatch, next, raised, rippled, opens, Memory.step]

end Step

/-- A schedule on time keeps the views together. -/
theorem Alike.foldl (alike : Alike signature memory latch) (nonempty : signature ≠ [])
    {events : List Event} (onTime : OnTime signature memory events) :
    Alike signature (events.foldl (Memory.step signature) memory)
      (events.foldl (stepLatch signature) latch) := by
  induction events generalizing memory latch with
  | nil => exact alike
  | cons event events inductionHypothesis =>
      exact inductionHypothesis (alike.step onTime.1 nonempty) onTime.2

theorem OnTime.of_prefix {past events : List Event} (isPrefix : past <+: events)
    (onTime : OnTime signature memory events) : OnTime signature memory past := by
  induction past generalizing memory events with
  | nil => trivial
  | cons event past inductionHypothesis =>
      obtain ⟨others, rfl⟩ := isPrefix
      exact ⟨onTime.1, inductionHypothesis (List.prefix_append past others) onTime.2⟩

/-- The schedules on time are those on which the comparators of the two views have the same
verdicts all along. -/
theorem Alike.onTime_iff (alike : Alike signature memory latch) (nonempty : signature ≠ [])
    (events : List Event) :
    OnTime signature memory events ↔ ∀ past, past <+: events → ∀ j < signature.length,
      (past.foldl (Memory.step signature) memory).cmp j =
        (past.foldl (stepLatch signature) latch).cmp j := by
  constructor
  · intro onTime past isPrefix
    exact (alike.foldl nonempty (onTime.of_prefix isPrefix)).cmp
  · intro verdicts
    induction events generalizing memory latch with
    | nil => trivial
    | cons event events inductionHypothesis =>
        have timely : Timely signature memory event :=
          alike.cmp_step_iff.mpr (verdicts [event] (by simp))
        refine ⟨timely, inductionHypothesis (alike.step timely nonempty) ?_⟩
        intro past isPrefix
        exact verdicts (event :: past) ((List.prefix_cons_inj event).mpr isPrefix)

/-- The only comparator of a one-byte signature waits for no other stage. -/
theorem onTime_single (single : signature.length = 1) (memory : Memory)
    (events : List Event) : OnTime signature memory events := by
  induction events generalizing memory with
  | nil => trivial
  | cons event events inductionHypothesis =>
      exact ⟨fun _ j bound => absurd bound (by omega), inductionHypothesis _⟩

/-- No comparator from number `m` on has been active. -/
structure Late (m : ℕ) (memory : Memory) : Prop where
  low : memory.reset = false
  silent : memory.output = false
  cmp : ∀ j, m ≤ j → memory.cmp j = false

theorem late_idle : Late 0 idle := ⟨rfl, rfl, fun _ _ => rfl⟩

/-- A comparator whose predecessor is not active keeps its verdict. -/
theorem cmp_succ_inactive (low : memory.reset = false) {j : ℕ}
    (inactive : (carries memory.data_in && memory.cmp j) = false) :
    (memory.step signature (present b)).cmp (j + 1) = memory.cmp (j + 1) := by
  by_cases changes : b ≠ memory.data_in
  · simp [cmp_succ_present low changes, inactive]
  · simp [step, next, present, compared, not_ne_iff.mp changes, released_eq low]

/-- A byte activates no comparator but the next ones after active ones. -/
theorem Late.present {m n : ℕ} (late : Late m memory) (later : m ≤ n) (positive : 0 < n)
    (bound : n < signature.length)
    (inactive : ∀ j, n ≤ j + 1 → (carries memory.data_in && memory.cmp j) = false) :
    Late n (memory.step signature (present b)) := by
  have verdicts : ∀ j, n ≤ j → (memory.step signature (Triggered.present b)).cmp j = false := by
    intro j above
    obtain ⟨k, rfl⟩ : ∃ k, j = k + 1 := ⟨j - 1, by omega⟩
    rw [cmp_succ_inactive late.low (inactive k above)]
    exact late.cmp _ (by omega)
  refine ⟨rfl, ?_, verdicts⟩
  rw [output_present late.low, late.silent, verdicts _ (by omega), late.cmp _ (by omega)]
  simp

theorem Late.advance {m : ℕ} (late : Late m memory) (bound : m + 1 < signature.length) :
    Late (m + 1) (memory.step signature (Triggered.present b)) := by
  refine late.present (by omega) (by omega) bound fun j above => ?_
  rw [late.cmp j (by omega), Bool.and_false]

theorem Late.foldl {m : ℕ} (late : Late m memory) (bytes : List Byte)
    (bound : m + bytes.length < signature.length) :
    Late (m + bytes.length)
      ((bytes.map Triggered.present).foldl (step signature) memory) := by
  induction bytes generalizing m memory with
  | nil => exact late
  | cons b bytes inductionHypothesis =>
      rw [List.length_cons] at bound
      have next : Late (m + 1) (memory.step signature (Triggered.present b)) :=
        late.advance (by omega)
      have advanced := inductionHypothesis next (by omega)
      rwa [List.length_cons, Nat.add_comm bytes.length, ← Nat.add_assoc]

/-- An idle period activates no comparator. -/
theorem Late.zero {m : ℕ} (late : Late (m + 1) memory)
    (nonzero : ∀ j, expects signature j 0 = false) :
    Late (m + 1) (memory.step signature (Triggered.present 0)) where
  low := rfl
  silent := by rw [output_idle, late.silent]
  cmp j above := by
    obtain ⟨k, rfl⟩ : ∃ k, j = k + 1 := ⟨j - 1, by omega⟩
    rw [cmp_succ_idle late.low nonzero, late.cmp _ above, Bool.false_and]

/-- Comparator `j` of the synthesis view has just found its byte. -/
structure Reached (signature : List Byte) (j : ℕ) (latch : Memory) : Prop where
  low : latch.reset = false
  cmp : latch.cmp j = true
  output : j + 1 = signature.length → latch.output = true

/-- The enable signal of the verdict reaches the next comparator with the byte. -/
theorem Reached.advance {j : ℕ} (reached : Reached signature j latch) (carried : b ≠ 0)
    (awaited : signature[j + 1]? = some b) :
    Reached signature (j + 1) (latch.stepLatch signature (present b)) := by
  have verdict : latch.rippled signature b (j + 1) = true := by
    simp [rippled, released_eq reached.low, reached.cmp, carries_of_ne carried, expects, awaited]
  refine { low := rfl, cmp := ?_, output := ?_ }
  · simp [stepLatch, next, Triggered.present, verdict]
  · intro last
    have final : signature.length - 1 = j + 1 := by omega
    simp [stepLatch, next, Triggered.present, final, verdict, carries_of_ne carried]

/-- An idle period leaves the first verdict alone. -/
theorem Reached.zero (reached : Reached signature 0 latch) (long : signature.length ≠ 1) :
    Reached signature 0 (latch.stepLatch signature (present 0)) where
  low := rfl
  cmp := by simp [stepLatch, next, Triggered.present, rippled, released_eq reached.low,
    reached.cmp]
  output last := absurd last.symm long

theorem Reached.foldl {j : ℕ} (reached : Reached signature j latch) (bytes : List Byte)
    (rest : signature.drop (j + 1) = bytes) (nonzero : ∀ b ∈ bytes, b ≠ 0) :
    Reached signature (j + bytes.length)
      ((bytes.map present).foldl (stepLatch signature) latch) := by
  induction bytes generalizing j latch with
  | nil => exact reached
  | cons b bytes inductionHypothesis =>
      have awaited : signature[j + 1]? = some b := by
        rw [← Nat.add_zero (j + 1), ← List.getElem?_drop, rest, List.getElem?_cons_zero]
      have others : signature.drop (j + 1 + 1) = bytes := by
        rw [← List.drop_drop, rest, List.drop_one, List.tail_cons]
      have advanced := inductionHypothesis
        (reached.advance (nonzero b List.mem_cons_self) awaited) others
        fun c membership => nonzero c (List.mem_cons_of_mem _ membership)
      rwa [List.length_cons, Nat.add_comm bytes.length, ← Nat.add_assoc]

section Apart

variable {first second : Byte} {rest : List Byte}

theorem output_apart (nonzero : ∀ b ∈ first :: second :: rest, b ≠ 0) :
    (after (first :: second :: rest) (first :: 0 :: second :: rest)).output = false := by
  have started : Late 1 (idle.step (first :: second :: rest) (present first)) :=
    late_idle.advance (by simp)
  have paused := started.zero (expects_zero nonzero)
  have resumed : Late 1 (((idle.step (first :: second :: rest) (present first)).step
      (first :: second :: rest) (present 0)).step (first :: second :: rest) (present second)) :=
    paused.present le_rfl Nat.one_pos (by simp) fun j _ => by simp
  exact (resumed.foldl rest (by simp; omega)).silent

theorem output_apart_latch (nonzero : ∀ b ∈ first :: second :: rest, b ≠ 0) :
    ((List.map present (first :: 0 :: second :: rest)).foldl
      (stepLatch (first :: second :: rest)) idle).output = true := by
  have data := carries_of_ne (nonzero first List.mem_cons_self)
  have started : Reached (first :: second :: rest) 0
      (idle.stepLatch (first :: second :: rest) (present first)) := by
    refine { low := rfl, cmp := ?_, output := fun last => by simp at last }
    simp [stepLatch, next, Triggered.present, rippled, data, expects]
  refine ((started.zero (by simp)).foldl (second :: rest) (by simp) fun b membership =>
    nonzero b (List.mem_cons_of_mem _ membership)).output ?_
  simp only [List.length_cons]
  omega

end Apart

end Memory

/-- On a schedule on time the outputs of the two views are equal. -/
theorem fires_eq_latchFires {signature : List Byte} (nonempty : signature ≠ [])
    {data_in : Byte} {events : List Event}
    (onTime : Memory.OnTime signature (.cleared data_in) events) :
    fires signature data_in events = latchFires signature data_in events :=
  ((Memory.alike_cleared data_in).foldl nonempty onTime).output

/-- The views agree on every schedule exactly if the signature has one byte. -/
theorem verdicts_agree_iff {signature : List Byte} (nonempty : signature ≠ [])
    (nonzero : ∀ b ∈ signature, b ≠ 0) :
    (∀ data_in events, fires signature data_in events = latchFires signature data_in events) ↔
      signature.length = 1 := by
  constructor
  · intro agree
    match signature, nonempty, nonzero, agree with
    | [single], _, _, _ => rfl
    | first :: second :: rest, _, nonzero, agree =>
        have same := agree 0 ([] ++ release ++ (first :: 0 :: second :: rest).map present)
        rw [fires_after, Memory.output_apart nonzero, latchFires, List.nil_append,
          List.foldl_append, Memory.foldl_release_latch, Memory.output_apart_latch nonzero] at same
        exact absurd same Bool.false_ne_true
  · intro single data_in events
    exact fires_eq_latchFires nonempty (Memory.onTime_single single _ events)

/-- Two outputs of two netlists are equal in every state that the schedule reaches after a
first reset. -/
def SameAlong (net : Netlist String Value) (output : String) (other : Netlist String Value)
    (otherOutput : String) (data_in : Byte) (events : List Event) : Prop :=
  ∀ powerUp otherPowerUp past, past <+: events → ∃ final otherFinal,
    net.Reaches powerUp ((Event.mk true data_in).inputs :: List.map Event.inputs past) final ∧
    other.Reaches otherPowerUp ((Event.mk true data_in).inputs :: List.map Event.inputs past)
      otherFinal ∧
    final output = otherFinal otherOutput

theorem views_agree_of_onTime {lines : List (List Byte)} (nonempty : lines ≠ [])
    (admissible : Admissible lines) :
    ∃ net view, detector lines = some net ∧ synthesized lines = some view ∧
      ∀ (i : ℕ) (bound : i < (signatures lines).length) (data_in : Byte) (events : List Event),
        Memory.OnTime (signatures lines)[i] (.cleared data_in) events →
          SameAlong net (outputName i) view (outputName i) data_in events := by
  obtain ⟨net, found, runs⟩ := exists_run nonempty admissible
  obtain ⟨view, viewFound, viewRuns⟩ := exists_latch_run nonempty admissible
  refine ⟨net, view, found, viewFound, ?_⟩
  intro i bound data_in events onTime powerUp viewPowerUp past isPrefix
  have signature := (admissible.of_mem (List.getElem_mem bound)).1
  obtain ⟨final, reaches, outputs⟩ := runs powerUp data_in past
  obtain ⟨viewFinal, viewReaches, viewOutputs⟩ := viewRuns viewPowerUp data_in past
  refine ⟨final, viewFinal, reaches, viewReaches, ?_⟩
  rw [outputs i bound, viewOutputs i bound,
    fires_eq_latchFires signature (onTime.of_prefix isPrefix)]

/-- The views agree on `a x a b`, which sets the output, and behind it on `x` and an idle
period. -/
theorem views_agree_of_onTime_ab :
    ∃ net view, detector [[0x61, 0x62]] = some net ∧ synthesized [[0x61, 0x62]] = some view ∧
      SameAlong net (outputName 0) view (outputName 0) 0
        (release ++ [0x61, 0x78, 0x61, 0x62, 0x78, 0].map present) := by
  obtain ⟨net, view, found, viewFound, agree⟩ := @views_agree_of_onTime [[0x61, 0x62]]
    (by decide) (by decide)
  exact ⟨net, view, found, viewFound, agree 0 (by decide) 0 _ (by decide)⟩

/-- The byte `b` after an idle period reaches the second comparator of `ab` in the synthesis
view only. -/
theorem views_disagree_ab :
    ∃ net view, detector [[0x61, 0x62]] = some net ∧ synthesized [[0x61, 0x62]] = some view ∧
      ¬ SameOutput net "output_0" view "output_0" := by
  obtain ⟨net, found, runs⟩ := @exists_run [[0x61, 0x62]] (by decide) (by decide)
  obtain ⟨view, viewFound, viewRuns⟩ := @exists_latch_run [[0x61, 0x62]] (by decide) (by decide)
  refine ⟨net, view, found, viewFound, ?_⟩
  intro same
  have verdicts := (sameOutput_iff runs viewRuns (i := 0) (j := 0) (by decide) (by decide)).mp same
  exact absurd (verdicts 0 (release ++ [0x61, 0, 0x62].map present)) (by decide)

end SeqDetect.Triggered
