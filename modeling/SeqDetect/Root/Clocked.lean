import SeqDetect.Root.Agreement

/-!
# One byte for each clock cycle

Between two edges the latch of the root design sees the byte that is still on `data_in` as the
next one, so that a byte that has been sampled counts twice.  A signature that ends in two
different bytes is reported as soon as its last byte arrives, and only then.
-/

namespace SeqDetect.Root

open Delta Vhdl Script Pattern
open Clocked (Event Observed observe initialReset clockIn observe_concat)

variable {level : Bool} {byte b : Byte} {signature : Signature} {past stream : List Byte}

/-- The last two bytes of the signature differ. -/
def EndsChanging (signature : Signature) : Prop :=
  ∃ front c d, signature.bytes = front ++ [c] ++ [d] ∧ c ≠ d

theorem endsChanging_detected : ∀ i : Fin detected.length, EndsChanging (detected.get i)
  | ⟨0, _⟩ => ⟨[0x6a], 0x61, 0x79, rfl, by decide⟩
  | ⟨1, _⟩ => ⟨[0x6b, 0x61, 0x72], 0x72, 0x69, rfl, by decide⟩
  | ⟨2, _⟩ => ⟨[0x73, 0x74, 0x65, 0x76], 0x65, 0x6e, rfl, by decide⟩
  | ⟨3, _⟩ => ⟨[0x7a, 0x68, 0x69, 0x72, 0x6f], 0x6e, 0x67, rfl, by decide⟩
  | ⟨_ + 4, bound⟩ => absurd bound (by simp [detected])

/-- The byte that an edge has just sampled completes nothing as the next one. -/
theorem EndsChanging.not_suffix (ends : EndsChanging signature) :
    ¬ signature.bytes <:+ (past ++ [b] ++ [b]).tail := by
  obtain ⟨front, c, d, bytes, different⟩ := ends
  intro suffix
  have whole := suffix.trans (List.tail_suffix _)
  rw [bytes, concat_suffix_concat, concat_suffix_concat] at whole
  exact different (whole.1.2.trans whole.2.symm)

theorem clockIn_concat (past : List Byte) (b : Byte) :
    clockIn (past ++ [b]) = clockIn past ++ [.clk false] ++ [.data_in b] ++ [.clk true] := by
  simp [clockIn]

/-- After the edge for the last byte it is still on `data_in`. -/
theorem observe_clockIn_concat (level : Bool) (byte : Byte) (past : List Byte) (b : Byte) :
    observe level byte (.reset false :: clockIn (past ++ [b])) =
      ⟨true, false, b, past ++ [b]⟩ := by
  have before := Clocked.observe_clockIn level byte past
  rw [clockIn_concat, ← List.cons_append, ← List.cons_append, ← List.cons_append,
    observe_concat, observe_concat, observe_concat]
  simp [Observed.after, before]

/-- The latch is set by the byte that completes the signature, before its edge. -/
theorem EndsChanging.latches_clockIn_iff (ends : EndsChanging signature) (level : Bool)
    (byte : Byte) (stream : List Byte) :
    Latches level byte signature (.reset false :: clockIn stream) ↔
      signature.bytes <:+: stream.tail := by
  induction stream using List.reverseRecOn with
  | nil =>
      have unarmed : ¬ (observe level byte [.reset false]).Armed signature := by
        simp [Observed.Armed, observe, Observed.after, signature.nonempty]
      have start : ¬ Latches level byte signature [] := not_latches_of_reset rfl
      have single : Latches level byte signature ([] ++ [.reset false]) ↔ _ :=
        latches_concat level byte [] (.reset false)
      simpa [clockIn, unarmed, start, signature.nonempty] using single
  | append_singleton past b inductionHypothesis =>
      have seen := Clocked.observe_clockIn level byte past
      have falling : ¬ (observe level byte
          (.reset false :: clockIn past ++ [.clk false])).Armed signature := by
        rcases List.eq_nil_or_concat' past with rfl | ⟨front, last, rfl⟩
        · simp [Observed.Armed, observe, Observed.after, clockIn, signature.nonempty]
        · rw [observe_concat, observe_clockIn_concat]
          simpa [Observed.Armed, Observed.after] using @EndsChanging.not_suffix last _ front ends
      have rising : ¬ (observe level byte
          (.reset false :: clockIn past ++ [.clk false] ++ [.data_in b] ++ [.clk true])).Armed
            signature := by
        rw [List.cons_append, List.cons_append, List.cons_append, ← clockIn_concat,
          observe_clockIn_concat]
        exact ends.not_suffix
      have arriving : (observe level byte
          (.reset false :: clockIn past ++ [.clk false] ++ [.data_in b])).Armed signature ↔
            signature.bytes <:+ (past ++ [b]).tail := by
        rw [observe_concat, observe_concat, Observed.Armed]
        simp [Observed.after, seen]
      rw [clockIn_concat, ← List.cons_append, ← List.cons_append, ← List.cons_append,
        latches_concat, latches_concat, latches_concat, inductionHypothesis, arriving,
        infix_tail_concat signature.nonempty]
      simp only [falling, rising, ne_eq, reduceCtorEq, not_false_eq_true, true_and, or_false]

/-- Fed with one byte for each clock cycle, the root design has reported exactly the
signatures that occur behind the first byte, without a further edge. -/
theorem reports_clocked_in :
    ∃ net, detector = some net ∧ ∀ powerUp level byte (stream : List Byte),
      ∃ final, net.Reaches powerUp (initialReset level byte ::
          List.map Event.inputs (.reset false :: clockIn stream)) final ∧
        ∀ i : Fin detected.length,
          final (outputName i) = .logic .one ↔ (detected.get i).bytes <:+: stream.tail := by
  obtain ⟨net, found, runs⟩ := exists_run
  refine ⟨net, found, ?_⟩
  intro powerUp level byte stream
  obtain ⟨final, reaches, outputs⟩ := runs powerUp level byte (.reset false :: clockIn stream)
  refine ⟨final, reaches, ?_⟩
  intro i
  rw [outputs i, Value.bit_eq_one, decide_eq_true_eq]
  exact (endsChanging_detected i).latches_clockIn_iff level byte stream

end SeqDetect.Root
