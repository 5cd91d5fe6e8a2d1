import SeqDetect.Finder.Observed

/-!
# The output of the finder

What the output shows after every schedule, when it reports every occurrence, and what a reset
leaves of an earlier report.
-/

namespace SeqDetect.Finder

open Delta Pattern

section Runs

variable (past : List Inputs) (clk : Bool) (byte : Byte) (word : Word)

theorem run_schedule (events : List Event) :
    Machine.run (schedule past clk byte word events) =
      events.foldl Machine.react
        (((Machine.run past).update (presented clk byte word)).react (.SF_Reset true)) := by
  rw [schedule, Machine.run_append, List.foldl_cons]
  exact ((Machine.run past).update (presented clk byte word)).foldl_updates (.SF_Reset true :: events)

/-- Does `End_Of_Sequence` hold `'1'` when the reset is applied? -/
def earlier : Bool :=
  decide (((Machine.run past).update (presented clk byte word)).registers.End_Of_Sequence =
    .logic .one)

/-- The reset loads the word. -/
theorem follows_reset :
    Follows word ⟨⟨clk, true, byte, []⟩, earlier past clk byte word⟩
      (((Machine.run past).update (presented clk byte word)).react (.SF_Reset true)) := by
  refine Follows.load ((Machine.settled_run past).update _).data rfl ?_ rfl rfl ?_
  · exact .inr (by simp [Machine.update, presented, Event.apply])
  · simp [earlier]

/-- At power-up `End_Of_Sequence` is not set, and presenting a word does not set it. -/
theorem earlier_nil : earlier [] clk byte word = false := by
  rw [earlier, decide_eq_false_iff_not]
  have normal : branch Machine.powerUp.inputs (presented clk byte word) Machine.powerUp.registers ∈
      [.idle, .normal true, .normal false] := by
    have undefined_zeros : ((undefined 64).slice 63 63 56).equals (.zeros 8) = false := by decide
    simp only [branch, Machine.powerUp, presented, undefined_zeros]
    cases clk <;> simp [Value.bit, Edge]
  have ended : (Machine.powerUp.registers.step Machine.powerUp.inputs
      (presented clk byte word)).End_Of_Sequence ∈ [.logic .U, .logic .zero] := by
    simp only [Registers.step, Registers.next]
    split
    · simp only [List.mem_cons, List.not_mem_nil, or_false] at normal
      rcases normal with taken | taken | taken <;> rw [taken] <;>
        simp [End_Of_Sequence, Machine.powerUp]
    · simp [Machine.powerUp]
  intro high
  change (Machine.powerUp.registers.step Machine.powerUp.inputs _).End_Of_Sequence = _ at high
  rw [high] at ended
  simp at ended

theorem exists_run (events : List Event) :
    ∃ final, SequenceFinder.Reaches powerUp
        ((schedule past clk byte word events).map Inputs.stimulus) final ∧
      final .SF_Sequence_Found = found
        ((expect word.target clk byte (earlier past clk byte word) events).found word.target) := by
  obtain ⟨final, reaches, shows⟩ := reaches_machine (schedule past clk byte word events)
  refine ⟨final, reaches, ?_⟩
  have follows := (follows_reset past clk byte word).foldl events
  rw [← run_schedule] at follows
  exact (congrArg Registers.SF_Sequence_Found shows.registers).trans follows.found

/-- The output after every schedule, up to one bit that the reset has left. -/
theorem output_eq :
    ∃ earlier : Bool, (past = [] → earlier = false) ∧ ∀ events, ∃ final,
      SequenceFinder.Reaches powerUp
        ((schedule past clk byte word events).map Inputs.stimulus) final ∧
      final .SF_Sequence_Found =
        found ((expect word.target clk byte earlier events).found word.target) := by
  refine ⟨earlier past clk byte word, ?_, exists_run past clk byte word⟩
  rintro rfl
  exact earlier_nil clk byte word

variable {past clk byte word}

theorem found_inj {a b : Bool} : found a = found b ↔ a = b := by
  simp [found]

/-- From the second edge on, the output shows the scan without the last two samples. -/
theorem Expected.found_of_length {target : List Byte} {seen : Expected}
    (enough : 2 ≤ seen.samples.length) :
    seen.found target = decide (Completes target seen.samples.dropLast.dropLast) := by
  have first : seen.samples ≠ [] := List.ne_nil_of_length_pos (by omega)
  have second : seen.samples.dropLast ≠ [] :=
    List.ne_nil_of_length_pos (by rw [List.length_dropLast]; omega)
  rw [Expected.found, if_neg first, Expected.ended, if_neg second]

theorem found_iff_completes {events : List Event} {final : State Port}
    (reaches : SequenceFinder.Reaches powerUp
      ((schedule past clk byte word events).map Inputs.stimulus) final)
    (enough : 2 ≤ (observe clk byte events).samples.length) :
    final .SF_Sequence_Found = found true ↔
      Completes word.target (observe clk byte events).samples.dropLast.dropLast := by
  obtain ⟨other, reachesOther, output⟩ := exists_run past clk byte word events
  obtain rfl := reaches.unique reachesOther
  have same := expect_toObserved word.target clk byte (earlier past clk byte word) events
  rw [output, found_inj, Expected.found_of_length (by rwa [same]), same, decide_eq_true_eq]

/-- Release the reset and sample one byte at each clock edge. -/
def streaming (bytes : List Byte) : List Event :=
  .SF_Reset false :: bytes.flatMap fun x => [.SF_clk false, .SF_User_Data x, .SF_clk true]

theorem samples_streaming (clk : Bool) (byte : Byte) (bytes : List Byte) :
    (observe clk byte (streaming bytes)).samples = bytes := by
  suffices general : ∀ (bytes : List Byte) (seen : Observed), seen.SF_Reset = false →
      ((bytes.flatMap fun x => [Event.SF_clk false, .SF_User_Data x, .SF_clk true]).foldl
        Observed.after seen).samples = seen.samples ++ bytes by
    exact (general bytes ⟨clk, false, byte, []⟩ rfl).trans (List.nil_append bytes)
  intro bytes
  induction bytes with
  | nil => simp
  | cons x bytes inductionHypothesis =>
      intro seen running
      rw [List.flatMap_cons, List.foldl_append, inductionHypothesis]
      · simp [Observed.after, running]
      · simp [Observed.after, running]

/-- What the finder reports from the second edge on has been sampled. -/
theorem found_sound {events : List Event} {final : State Port}
    (reaches : SequenceFinder.Reaches powerUp
      ((schedule past clk byte word events).map Inputs.stimulus) final)
    (enough : 2 ≤ (observe clk byte events).samples.length)
    (reported : final .SF_Sequence_Found = found true) :
    word.target <:+: (observe clk byte events).samples.dropLast.dropLast :=
  ((found_iff_completes reaches enough).mp reported).sound

/-- The sequence `a`, found in the stream `ba`. -/
theorem found_sound_a :
    ([0x61] : List Byte) <:+:
      (observe false 0 (streaming [0x62, 0x61, 0, 0])).samples.dropLast.dropLast := by
  obtain ⟨final, reaches, output⟩ := exists_run [] false 0 ⟨[0x61, 0, 0, 0, 0, 0, 0, 0], rfl⟩
    (streaming [0x62, 0x61, 0, 0])
  refine found_sound reaches (by decide) (output.trans ?_)
  rw [earlier_nil]
  decide

/-- An occurrence is always reported two edges after its last byte. -/
def FindsEvery (word : Word) : Prop :=
  ∀ (past : List Inputs) (clk : Bool) (byte : Byte) (events : List Event) (final : State Port),
    SequenceFinder.Reaches powerUp
      ((schedule past clk byte word events).map Inputs.stimulus) final →
    2 ≤ (observe clk byte events).samples.length →
    word.target <:+: (observe clk byte events).samples.dropLast.dropLast →
      final .SF_Sequence_Found = found true

/-- The finder reports every occurrence exactly when every proper border of a proper beginning
of the sequence expects the byte that this beginning expects. -/
theorem findsEvery_iff (word : Word) : FindsEvery word ↔ Restartable word.target := by
  constructor
  · intro finds
    rw [← complete_iff_restartable]
    intro stream occurs
    have samples := samples_streaming false 0 (stream ++ [0, 0])
    have before : (stream ++ [0, 0] : List Byte).dropLast.dropLast = stream := by
      simp [List.dropLast_append_of_ne_nil]
    obtain ⟨final, reaches, -⟩ := exists_run [] false 0 word (streaming (stream ++ [0, 0]))
    have enough : 2 ≤ (observe false 0 (streaming (stream ++ [0, 0]))).samples.length := by
      rw [samples]
      simp
    have reported := finds [] false 0 _ final reaches enough (by rwa [samples, before])
    rwa [found_iff_completes reaches enough, samples, before] at reported
  · intro restartable past clk byte events final reaches enough occurs
    rw [found_iff_completes reaches enough]
    exact restartable.completes occurs

/-- Apply the reset, release it, and sample one byte. -/
def restart (byte : Byte) : List Event :=
  [.SF_Reset true, .SF_Reset false, .SF_clk false, .SF_User_Data byte, .SF_clk true]

/-- A reset does not clear the verdict: whatever byte is sampled first after it, the output is
then what the next edge would have shown without the reset. -/
theorem reset_keeps_verdict (past : List Inputs) (clk : Bool) (byte next : Byte) (word : Word)
    (events : List Event) :
    ∃ again through,
      SequenceFinder.Reaches powerUp ((schedule past clk byte word
        (events ++ .SF_Reset false :: restart next)).map Inputs.stimulus) again ∧
      SequenceFinder.Reaches powerUp ((schedule past clk byte word
        (events ++ [.SF_Reset false, .SF_clk false, .SF_clk true])).map Inputs.stimulus) through ∧
      again .SF_Sequence_Found = through .SF_Sequence_Found := by
  obtain ⟨again, reachesAgain, outputAgain⟩ :=
    exists_run past clk byte word (events ++ .SF_Reset false :: restart next)
  obtain ⟨through, reachesThrough, outputThrough⟩ :=
    exists_run past clk byte word (events ++ [.SF_Reset false, .SF_clk false, .SF_clk true])
  refine ⟨again, through, reachesAgain, reachesThrough, ?_⟩
  rw [outputAgain, outputThrough, found_inj, expect_append, expect_append]
  simp [restart, Expected.after, Observed.after, Expected.found, Expected.ended]

end Runs

end SeqDetect.Finder
