import SeqDetect.Clocked.Detector
import SeqDetect.Triggered.Repeats

/-!
# The same bytes for both designs

The clocked design takes the bytes with one edge each, the data-triggered one with one change
each.  They disagree on the first byte, on repeated bytes, and on words that are followed with
gaps.
-/

namespace SeqDetect.Generators

open Delta Vhdl Script Pattern

variable {signature stream : List Byte}

/-- What the outputs for one signature say of a stream. -/
def AgreeOn (signature stream : List Byte) : Prop :=
  signature <:+: stream.tail ↔ FollowedIn signature (Triggered.changes stream)

theorem tail_dropLast_concat (stream : List Byte) (b : Byte) :
    (stream ++ [b]).tail.dropLast = stream.tail := by
  cases stream with
  | nil => rfl
  | cons first rest => simp

/-- Where every byte differs from the one before it, nothing that the clocked design reports
escapes the other one. -/
theorem followedIn_changes (nonempty : signature ≠ []) (changing : Triggered.Changing stream)
    (reported : signature <:+: stream.tail) : FollowedIn signature (Triggered.changes stream) := by
  rw [Triggered.changes, List.destutter_eq_self_iff _ _ |>.mpr changing.1]
  exact followedIn_of_infix nonempty (reported.trans stream.tail_suffix.isInfix)

theorem backends_agree_iff {lines : List (List Byte)} (nonempty : lines ≠ [])
    (admissible : Admissible lines) :
    ∃ clocked triggered, Clocked.detector lines = some clocked ∧
      Triggered.detector lines = some triggered ∧
      ∀ powerUp clk data_in otherPowerUp otherData before (stream : List Byte),
        (∀ b ∈ stream, b ≠ 0) → ∃ final otherFinal,
          clocked.Reaches powerUp (Clocked.initialReset clk data_in ::
            List.map Clocked.Event.inputs (.reset false :: Clocked.clockIn (stream ++ [0])))
            final ∧
          triggered.Reaches otherPowerUp ((Triggered.Event.mk true otherData).inputs ::
            List.map Triggered.Event.inputs
              (before ++ Triggered.release ++ stream.map Triggered.present)) otherFinal ∧
          ∀ (i : ℕ) (bound : i < (signatures lines).length),
            (final (outputName i) = otherFinal (outputName i) ↔
              AgreeOn (signatures lines)[i] stream) ∧
            (Triggered.Changing stream → final (outputName i) = .logic .one →
              otherFinal (outputName i) = .logic .one) := by
  obtain ⟨clocked, found, runs⟩ := Clocked.exists_run nonempty admissible
  obtain ⟨triggered, otherFound, otherRuns⟩ := Triggered.exists_run nonempty admissible
  refine ⟨clocked, triggered, found, otherFound, ?_⟩
  intro powerUp clk data_in otherPowerUp otherData before stream data
  obtain ⟨final, reaches, outputs⟩ :=
    runs powerUp clk data_in (.reset false :: Clocked.clockIn (stream ++ [0]))
  obtain ⟨otherFinal, otherReaches, otherOutputs⟩ := otherRuns otherPowerUp otherData
    (before ++ Triggered.release ++ stream.map Triggered.present)
  refine ⟨final, otherFinal, reaches, otherReaches, ?_⟩
  intro i bound
  have some_byte := (admissible.of_mem (List.getElem_mem bound)).1
  have fired : Triggered.fires (signatures lines)[i] otherData
      (before ++ Triggered.release ++ stream.map Triggered.present) = true ↔
        FollowedIn (signatures lines)[i] (Triggered.changes stream) :=
    Triggered.fires_changes data otherData before
  rw [outputs i bound, otherOutputs i bound, (Clocked.observe_clockIn clk data_in _).2,
    tail_dropLast_concat]
  constructor
  · rw [AgreeOn, ← fired, Value.bit_inj, Bool.eq_iff_iff, decide_eq_true_eq]
  · intro changing reported
    rw [Value.bit_eq_one, decide_eq_true_eq] at reported
    rw [Value.bit_eq_one, fired]
    exact followedIn_changes some_byte changing reported

/-- The signatures `ab` and `b`. -/
theorem backends_agree_iff_ab_b :
    ∃ clocked triggered, Clocked.detector [[0x61, 0x62], [0x62]] = some clocked ∧
      Triggered.detector [[0x61, 0x62], [0x62]] = some triggered ∧
      ∀ powerUp clk data_in otherPowerUp otherData before (stream : List Byte),
        (∀ b ∈ stream, b ≠ 0) → ∃ final otherFinal,
          clocked.Reaches powerUp (Clocked.initialReset clk data_in ::
            List.map Clocked.Event.inputs (.reset false :: Clocked.clockIn (stream ++ [0])))
            final ∧
          triggered.Reaches otherPowerUp ((Triggered.Event.mk true otherData).inputs ::
            List.map Triggered.Event.inputs
              (before ++ Triggered.release ++ stream.map Triggered.present)) otherFinal ∧
          ∀ (i : ℕ) (bound : i < (signatures [[0x61, 0x62], [0x62]]).length),
            (final (outputName i) = otherFinal (outputName i) ↔
              AgreeOn (signatures [[0x61, 0x62], [0x62]])[i] stream) ∧
            (Triggered.Changing stream → final (outputName i) = .logic .one →
              otherFinal (outputName i) = .logic .one) :=
  backends_agree_iff (by decide) (by decide)

end SeqDetect.Generators
