import SeqDetect.Delta.Kernel

/-!
# Values that stay

An output keeps a value through every continuation by quiet events if the runs decide that value
by a verdict on the events, and no quiet event takes the verdict back.
-/

namespace SeqDetect.Delta.Netlist

variable {Signal Val Event : Type*} [DecidableEq Signal] [DecidableEq Val]
variable {net : Netlist Signal Val} {first : Stimulus Signal Val}
  {inputs : Event → Stimulus Signal Val} {quiet : Event → Prop} {output : Signal} {value : Val}

/-- Once the output has the value, it has it after every continuation by quiet events. -/
def Persists (net : Netlist Signal Val) (first : Stimulus Signal Val)
    (inputs : Event → Stimulus Signal Val) (quiet : Event → Prop) (output : Signal)
    (value : Val) : Prop :=
  ∀ powerUp events more final later, (∀ event ∈ more, quiet event) →
    net.Reaches powerUp (first :: List.map inputs events) final →
    net.Reaches powerUp (first :: List.map inputs (events ++ more)) later →
    final output = value → later output = value

theorem persists_of_verdict (verdict : List Event → Prop)
    (runs : ∀ powerUp events, ∃ final,
      net.Reaches powerUp (first :: List.map inputs events) final ∧
        (final output = value ↔ verdict events))
    (kept : ∀ events event, quiet event → verdict events → verdict (events ++ [event])) :
    net.Persists first inputs quiet output value := by
  intro powerUp events more final later allQuiet reaches reachesLater holds
  obtain ⟨_, reached, decides⟩ := runs powerUp events
  obtain rfl := reaches.unique reached
  obtain ⟨_, reachedLater, decidesLater⟩ := runs powerUp (events ++ more)
  obtain rfl := reachesLater.unique reachedLater
  rw [decidesLater]
  clear reachesLater reachedLater decidesLater
  induction more using List.reverseRecOn with
  | nil => simpa using decides.mp holds
  | append_singleton more event inductionHypothesis =>
      rw [← List.append_assoc]
      exact kept _ event (allQuiet event (by simp))
        (inductionHypothesis fun event inside => allQuiet event (List.mem_append_left _ inside))

end SeqDetect.Delta.Netlist
