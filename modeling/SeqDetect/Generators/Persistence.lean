import SeqDetect.Delta.Persistence
import SeqDetect.Root.Agreement
import SeqDetect.Triggered.Detector

/-!
# Reports stay

In all three designs an output that reports its signature does so until the next reset, whatever
happens on the other ports.
-/

namespace SeqDetect.Generators

open Delta Vhdl Script

section Verdicts

/-- Without a reset, samples are only added. -/
theorem samples_extend {clk : Bool} {data_in : Byte} (events : List Clocked.Event)
    {event : Clocked.Event} (quiet : event ≠ .reset true) :
    (Clocked.observe clk data_in events).samples <+:
      (Clocked.observe clk data_in (events ++ [event])).samples := by
  rw [Clocked.observe_concat]
  cases event with
  | clk level =>
      simp only [Clocked.Observed.after]
      split
      · exact List.prefix_append _ _
      · exact List.prefix_rfl
  | reset level =>
      have released : level = false := by simpa using quiet
      simp [Clocked.Observed.after, released]
  | data_in byte => exact List.prefix_rfl

theorem infix_kept {signature samples others : List Byte} (more : samples <+: others)
    (occurs : signature <:+: samples.tail.dropLast) : signature <:+: others.tail.dropLast := by
  obtain ⟨rest, rfl⟩ := more
  cases samples with
  | nil =>
      rw [List.infix_nil.mp occurs]
      exact List.nil_infix
  | cons first samples =>
      rcases List.eq_nil_or_concat' rest with rfl | ⟨rest, last, rfl⟩
      · rwa [List.append_nil]
      · have whole : (first :: samples ++ (rest ++ [last])).tail.dropLast = samples ++ rest := by
          rw [List.cons_append, List.tail_cons, ← List.append_assoc, List.dropLast_concat]
        rw [whole]
        exact occurs.trans ((List.dropLast_prefix _).trans (List.prefix_append _ _)).isInfix

theorem fires_kept {signature : List Byte} {data_in : Byte} {events : List Triggered.Event}
    {event : Triggered.Event} (quiet : event.reset = false)
    (fired : Triggered.fires signature data_in events = true) :
    Triggered.fires signature data_in (events ++ [event]) = true := by
  rw [Triggered.fires] at fired ⊢
  rw [List.foldl_append, List.foldl_cons, List.foldl_nil, Triggered.Memory.step,
    Triggered.Memory.next, fired, quiet]
  rfl

end Verdicts

/-- The three designs: the two that the scripts emit for a file, and the committed root design. -/
theorem reports_persist {lines : List (List Byte)} (nonempty : lines ≠ [])
    (admissible : Admissible lines) :
    (∃ net, Clocked.detector lines = some net ∧ ∀ clk data_in, ∀ i < (signatures lines).length,
      net.Persists (Clocked.initialReset clk data_in) Clocked.Event.inputs (· ≠ .reset true)
        (outputName i) (.logic .one)) ∧
    (∃ net, Triggered.detector lines = some net ∧ ∀ data_in, ∀ i < (signatures lines).length,
      net.Persists (Triggered.Event.mk true data_in).inputs Triggered.Event.inputs
        (·.reset = false) (outputName i) (.logic .one)) ∧
    ∃ net, Root.detector = some net ∧ ∀ clk data_in (i : Fin Root.detected.length),
      net.Persists (Clocked.initialReset clk data_in) Clocked.Event.inputs (· ≠ .reset true)
        (outputName i) (.logic .one) := by
  refine ⟨?_, ?_, ?_⟩
  · obtain ⟨net, found, runs⟩ := Clocked.exists_run nonempty admissible
    refine ⟨net, found, ?_⟩
    intro clk data_in i bound
    refine Netlist.persists_of_verdict (fun events => (signatures lines)[i] <:+:
      (Clocked.observe clk data_in events).samples.tail.dropLast) ?_ ?_
    · intro powerUp events
      obtain ⟨final, reaches, outputs⟩ := runs powerUp clk data_in events
      exact ⟨final, reaches, by rw [outputs i bound, Value.bit_eq_one, decide_eq_true_eq]⟩
    · exact fun events event quiet => infix_kept (samples_extend events quiet)
  · obtain ⟨net, found, runs⟩ := Triggered.exists_run nonempty admissible
    refine ⟨net, found, ?_⟩
    intro data_in i bound
    refine Netlist.persists_of_verdict (fun events =>
      Triggered.fires (signatures lines)[i] data_in events = true) ?_ ?_
    · intro powerUp events
      obtain ⟨final, reaches, outputs⟩ := runs powerUp data_in events
      exact ⟨final, reaches, by rw [outputs i bound, Value.bit_eq_one]⟩
    · exact fun events event quiet => fires_kept quiet
  · obtain ⟨net, found, runs⟩ := Root.exists_run
    refine ⟨net, found, ?_⟩
    intro clk data_in i
    refine Netlist.persists_of_verdict
      (Root.Latches clk data_in Root.detected[i]) ?_ ?_
    · intro powerUp events
      obtain ⟨final, reaches, outputs⟩ := runs powerUp clk data_in events
      exact ⟨final, reaches, by rw [outputs i, Value.bit_eq_one, decide_eq_true_eq]⟩
    · intro events event quiet latched
      exact (Root.latches_concat clk data_in events event).mpr (.inl ⟨quiet, latched⟩)

/-- For a file with the one line `ab`. -/
theorem reports_persist_ab :
    (∃ net, Clocked.detector [[0x61, 0x62]] = some net ∧
      ∀ clk data_in, ∀ i < (signatures [[0x61, 0x62]]).length,
        net.Persists (Clocked.initialReset clk data_in) Clocked.Event.inputs (· ≠ .reset true)
          (outputName i) (.logic .one)) ∧
    (∃ net, Triggered.detector [[0x61, 0x62]] = some net ∧
      ∀ data_in, ∀ i < (signatures [[0x61, 0x62]]).length,
        net.Persists (Triggered.Event.mk true data_in).inputs Triggered.Event.inputs
          (·.reset = false) (outputName i) (.logic .one)) ∧
    ∃ net, Root.detector = some net ∧ ∀ clk data_in (i : Fin Root.detected.length),
      net.Persists (Clocked.initialReset clk data_in) Clocked.Event.inputs (· ≠ .reset true)
        (outputName i) (.logic .one) :=
  reports_persist (by decide) (by decide)

end SeqDetect.Generators
