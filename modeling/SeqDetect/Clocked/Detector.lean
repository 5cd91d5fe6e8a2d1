import SeqDetect.Clocked.Matcher

/-!
# The clocked detector

Every schedule of port changes that follows a first reset runs through the emitted
netlist, and every output then tells whether its signature has occurred among the
samples, apart from the first and the latest of them.
-/

namespace SeqDetect.Clocked

open Delta Vhdl Script Pattern

/-- The stimulus that an event is for the whole design. -/
def Event.inputs : Event → Netlist.Stimulus String Value
  | clk level => [("clk", .bit level)]
  | reset level => [("reset", .bit level)]
  | data_in byte => [("data_in", .byte byte)]

def initialReset (clk : Bool) (data_in : Byte) : Netlist.Stimulus String Value :=
  [("clk", .bit clk), ("reset", .bit true), ("data_in", .byte data_in)]

/-- The run lemma: after every schedule, all chains match what has been observed. -/
theorem exists_matching_run {lines : List (List Byte)} (nonempty : lines ≠ [])
    (admissible : Admissible lines) :
    ∃ net, detector lines = some net ∧ ∀ powerUp clk data_in events,
      ∃ final, net.Reaches powerUp
          (initialReset clk data_in :: List.map Event.inputs events) final ∧
        ∀ (i : ℕ) (bound : i < (signatures lines).length), ∃ signature : Signature,
          signature.bytes = (signatures lines)[i] ∧
          Matches (observe clk data_in events) fun wire => final (ident i signature wire).name := by
  obtain ⟨chains, net, bytes, found, realizes⟩ := exists_detector nonempty admissible
  refine ⟨net, found, ?_⟩
  intro powerUp clk data_in events
  obtain ⟨final, reaches, tracks⟩ := realizes.exists_run (initialReset clk data_in) Event.inputs
    (fun _ => rfl) (fun _ event => by cases event <;> rfl)
    (fun i => matcher chains[i] clk data_in) powerUp events
  refine ⟨final, reaches, ?_⟩
  intro i bound
  obtain ⟨inChains, same⟩ := getElem_signatures bytes bound
  exact ⟨chains[i], same.symm, tracks ⟨i, inChains⟩⟩

theorem exists_run {lines : List (List Byte)} (nonempty : lines ≠ [])
    (admissible : Admissible lines) :
    ∃ net, detector lines = some net ∧ ∀ powerUp clk data_in events,
      ∃ final, net.Reaches powerUp
          (initialReset clk data_in :: List.map Event.inputs events) final ∧
        ∀ (i : ℕ) (bound : i < (signatures lines).length),
          final (outputName i) = .bit ((signatures lines)[i] <:+:
            (observe clk data_in events).samples.tail.dropLast) := by
  obtain ⟨net, found, runs⟩ := exists_matching_run nonempty admissible
  refine ⟨net, found, ?_⟩
  intro powerUp clk data_in events
  obtain ⟨final, reaches, chains⟩ := runs powerUp clk data_in events
  refine ⟨final, reaches, ?_⟩
  intro i bound
  obtain ⟨signature, same, matched⟩ := chains i bound
  rw [← same]
  exact matched.output

/-- The signature is a block `b_a … b_(a+n-1)` of the samples `b_1 … b_T` with `2 ≤ a` and
`a + n - 1 ≤ T - 1`. -/
def Reported (signature samples : List Byte) : Prop :=
  ∃ a, 2 ≤ a ∧ a + signature.length - 1 ≤ samples.length - 1 ∧ BlockAt signature samples a

/-- After every schedule, each output is low while `reset` is high and otherwise shows
whether its signature is reported by the samples since the release of reset. -/
def ExactMatcher (net : Netlist String Value) (signatures : List (List Byte)) : Prop :=
  ∀ powerUp clk data_in events,
    ∃ final, net.Reaches powerUp
        (initialReset clk data_in :: List.map Event.inputs events) final ∧
      ∀ (i : ℕ) (bound : i < signatures.length),
        let seen := observe clk data_in events
        (seen.reset = true → final (outputName i) = .logic .zero) ∧
        (seen.reset = false →
          (final (outputName i) = .logic .one ↔ Reported signatures[i] seen.samples) ∧
          (final (outputName i) = .logic .zero ↔ ¬ Reported signatures[i] seen.samples))

theorem detector_exactMatcher {lines : List (List Byte)} (nonempty : lines ≠ [])
    (admissible : Admissible lines) :
    ∃ net, detector lines = some net ∧ ExactMatcher net (signatures lines) := by
  obtain ⟨net, found, runs⟩ := exists_run nonempty admissible
  refine ⟨net, found, ?_⟩
  intro powerUp clk data_in events
  obtain ⟨final, reaches, outputs⟩ := runs powerUp clk data_in events
  refine ⟨final, reaches, ?_⟩
  intro i bound
  have some_byte := (admissible.of_mem (List.getElem_mem bound)).1
  dsimp only
  rw [outputs i bound, Reported, exists_blockAt_iff some_byte]
  constructor
  · intro high
    simp [observe_restarts high, some_byte]
  · intro low
    simp

/-- Overlapping and duplicate signatures: `aa`, `a` and once more `aa`. -/
theorem detector_exactMatcher_overlapping :
    ∃ net, detector [[0x61, 0x61], [0x61], [0x61, 0x61]] = some net ∧
      ExactMatcher net (signatures [[0x61, 0x61], [0x61], [0x61, 0x61]]) :=
  detector_exactMatcher (by decide) (by decide)

section FirstByte

/-- The bytes are put on `data_in` one after the other, each followed by a rising edge. -/
def clockIn (bytes : List Byte) : List Event :=
  bytes.flatMap fun byte => [.clk false, .data_in byte, .clk true]

theorem foldl_clockIn (bytes : List Byte) {seen : Observed} (low : seen.reset = false) :
    ((clockIn bytes).foldl Observed.after seen).reset = false ∧
      ((clockIn bytes).foldl Observed.after seen).samples = seen.samples ++ bytes := by
  induction bytes generalizing seen with
  | nil => simpa [clockIn] using low
  | cons byte bytes inductionHypothesis =>
      have three : (clockIn (byte :: bytes)).foldl Observed.after seen =
          (clockIn bytes).foldl Observed.after
            (((seen.after (.clk false)).after (.data_in byte)).after (.clk true)) := rfl
      rw [three]
      have stillLow : (((seen.after (.clk false)).after (.data_in byte)).after
          (.clk true)).reset = false := low
      have rest := inductionHypothesis stillLow
      simpa [Observed.after, low] using rest

theorem observe_clockIn (clk : Bool) (data_in : Byte) (bytes : List Byte) :
    (observe clk data_in (.reset false :: clockIn bytes)).reset = false ∧
      (observe clk data_in (.reset false :: clockIn bytes)).samples = bytes := by
  have released : (Observed.after ⟨clk, true, data_in, []⟩ (.reset false)).reset = false := rfl
  simpa [observe, Observed.after] using foldl_clockIn bytes released

/-- No byte of the stream is lost: whenever `b_1 … b_T` have been sampled since the release
of reset, every occurrence of the signature in `b_1 … b_m` with `m + 2 ≤ T` is reported. -/
def KeepsBytes (net : Netlist String Value) (output : String) (signature : List Byte)
    (stream : ℕ → Byte) : Prop :=
  ∀ powerUp clk data_in events,
    ∃ final, net.Reaches powerUp
        (initialReset clk data_in :: List.map Event.inputs events) final ∧
      ∀ m T, (observe clk data_in events).reset = false →
        (observe clk data_in events).samples = upTo stream T →
        m + 2 ≤ T → signature <:+: upTo stream m → final output = .logic .one

variable {net : Netlist String Value} {output : String} {signature : List Byte}

/-- The first byte is not compared, so an occurrence that starts with it is reported only
if the next byte starts an occurrence as well. -/
theorem keepsBytes_iff_of_runs
    (runs : ∀ powerUp clk data_in events, ∃ final,
      net.Reaches powerUp (initialReset clk data_in :: List.map Event.inputs events) final ∧
        final output = .bit (signature <:+:
          (observe clk data_in events).samples.tail.dropLast))
    (stream : ℕ → Byte) :
    KeepsBytes net output signature stream ↔
      (OccursAt signature stream 0 → OccursAt signature stream 1) := by
  constructor
  · intro keeps first
    have observed := observe_clockIn false 0 (upTo stream (signature.length + 2))
    obtain ⟨final, reaches, shows⟩ := keeps (fun _ => .bit false) false 0
      (.reset false :: clockIn (upTo stream (signature.length + 2)))
    obtain ⟨other, reachesOther, value⟩ := runs (fun _ => .bit false) false 0
      (.reset false :: clockIn (upTo stream (signature.length + 2)))
    obtain rfl := reaches.unique reachesOther
    have high := shows signature.length (signature.length + 2) observed.1 observed.2 le_rfl
      (infix_upTo_iff.mpr ⟨0, by omega, first⟩)
    rw [value, observed.2, tail_dropLast_upTo, Value.bit_eq_one, decide_eq_true_eq,
      infix_upTo_iff] at high
    obtain ⟨a, inside, occurs⟩ := high
    obtain rfl : a = 0 := by omega
    exact occursAt_succ.mp occurs
  · intro second powerUp clk data_in events
    obtain ⟨final, reaches, value⟩ := runs powerUp clk data_in events
    refine ⟨final, reaches, ?_⟩
    intro m T low samples late occurs
    rw [value, samples, tail_dropLast_upTo, Value.bit_eq_one, decide_eq_true_eq, infix_upTo_iff]
    obtain ⟨a, inside, occursAt⟩ := infix_upTo_iff.mp occurs
    cases a with
    | zero => exact ⟨0, by omega, occursAt_succ.mpr (second occursAt)⟩
    | succ a => exact ⟨a, by omega, occursAt_succ.mpr occursAt⟩

theorem keepsBytes_iff {lines : List (List Byte)} (nonempty : lines ≠ [])
    (admissible : Admissible lines) :
    ∃ net, detector lines = some net ∧
      ∀ (i : ℕ) (bound : i < (signatures lines).length) (stream : ℕ → Byte),
        KeepsBytes net (outputName i) (signatures lines)[i] stream ↔
          (OccursAt (signatures lines)[i] stream 0 →
            OccursAt (signatures lines)[i] stream 1) := by
  obtain ⟨net, found, runs⟩ := exists_run nonempty admissible
  refine ⟨net, found, ?_⟩
  intro i bound
  apply keepsBytes_iff_of_runs
  intro powerUp clk data_in events
  obtain ⟨final, reaches, outputs⟩ := runs powerUp clk data_in events
  exact ⟨final, reaches, outputs i bound⟩

theorem keepsBytes_iff_overlapping :
    ∃ net, detector [[0x61, 0x61], [0x61]] = some net ∧
      ∀ (i : ℕ) (bound : i < (signatures [[0x61, 0x61], [0x61]]).length) (stream : ℕ → Byte),
        KeepsBytes net (outputName i) (signatures [[0x61, 0x61], [0x61]])[i] stream ↔
          (OccursAt (signatures [[0x61, 0x61], [0x61]])[i] stream 0 →
            OccursAt (signatures [[0x61, 0x61], [0x61]])[i] stream 1) :=
  keepsBytes_iff (by decide) (by decide)

/-- The signature `a` is missed when `a` is the first byte after reset and the rest is idle. -/
theorem loses_first_byte : ∃ net, detector [[0x61]] = some net ∧
    ¬ KeepsBytes net "output_0" [0x61] fun k => if k = 0 then 0x61 else 0 := by
  obtain ⟨net, found, runs⟩ := @exists_run [[0x61]] (by decide) (by decide)
  refine ⟨net, found, ?_⟩
  rw [keepsBytes_iff_of_runs fun powerUp clk data_in events => by
    obtain ⟨final, reaches, outputs⟩ := runs powerUp clk data_in events
    exact ⟨final, reaches, outputs 0 (by decide)⟩]
  simp [OccursAt]

end FirstByte

end SeqDetect.Clocked
