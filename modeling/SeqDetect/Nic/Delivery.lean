import SeqDetect.Nic.Interleaving

/-!
# What the interface delivers

Received frames keep their order.  A race delays the receive queue by one frame for good, and it
costs a buffer in the same way as a leak does.
-/

namespace SeqDetect.Nic

section Draining

variable {state : Run} {waiting backlog : List Frame}

/-- The accesses that the main line has ahead of it until the queue appears empty. -/
def Interface.ahead (nic : Interface) : ℕ :=
  match nic.control with
  | .idle => 7 * nic.recv_q.len.toNat
  | .sized => 7 * nic.recv_q.len.toNat - 1
  | .checked => 7 * nic.recv_q.len.toNat - 2
  | .read _ => 7 * nic.recv_q.len.toNat - 3
  | .advanced _ => 7 * nic.recv_q.len.toNat - 4
  | .loaded _ len => 7 * len.toNat - 5
  | .stored _ => 7 * nic.recv_q.len.toNat + 1

/-- Without an interrupt, seven accesses are a `pq_dequeue` and the delivery of its result. -/
theorem poll_uninterrupted {nic : Interface} (past : List Effect) (idle : nic.control = .idle)
    (waits : nic.recv_q.len ≠ 0) :
    (List.replicate 7 Event.poll).foldl Run.step ⟨nic, past⟩ =
      ⟨(deliver { nic with recv_q := (pq_dequeue nic.recv_q).2 } (pq_dequeue nic.recv_q).1).1,
        past ++ (deliver { nic with recv_q := (pq_dequeue nic.recv_q).2 }
          (pq_dequeue nic.recv_q).1).2⟩ := by
  obtain ⟨q, send_q, free, held, control⟩ := nic
  obtain rfl : control = .idle := idle
  replace waits : ¬q.len = 0 := waits
  simp only [List.replicate, List.foldl_cons, List.foldl_nil, Run.step, step, poll, if_neg waits,
    pq_dequeue, List.append_nil]
  cases q.data q.tail with
  | none => rfl
  | some frame => simp only [deliver]

theorem poll_effects (nic : Interface) :
    queued (poll nic).2 = [] ∧ races (poll nic).2 = 0 ∧ leaks (poll nic).2 = 0 ∧
      transmitted (poll nic).2 = [] := by
  obtain ⟨q, send_q, free, held, control⟩ := nic
  cases control with
  | idle | sized => simp only [poll]; split_ifs <;> simp [queued, races, leaks, transmitted]
  | checked | read | advanced | loaded => simp [poll, queued, races, leaks, transmitted]
  | stored ptail =>
      simp only [poll]
      cases q.data ptail with
      | none => simp [deliver, queued, races, leaks, transmitted]
      | some frame => simp only [deliver]; split_ifs <;> simp [queued, races, leaks, transmitted]

theorem ahead_poll (balanced : Balanced state waiting backlog) :
    (state.step .poll).nic.ahead = state.nic.ahead - 1 := by
  obtain ⟨⟨q, send_q, free, held, control⟩, past⟩ := state
  have counts := balanced.receives.counts
  cases control with
  | idle | sized =>
      simp only [Counts] at counts
      simp only [Run.step, step, poll]
      split_ifs with nothing <;> simp [Interface.ahead, nothing] <;> omega
  | checked =>
      simp only [Run.step, step, poll, Interface.ahead]
      omega
  | read ptail =>
      simp only [Run.step, step, poll, Interface.ahead]
      omega
  | advanced ptail =>
      simp only [Run.step, step, poll, Interface.ahead]
      omega
  | loaded ptail len =>
      obtain ⟨-, -, positive, -⟩ := counts
      simp only [Run.step, step, poll, Interface.ahead]
      omega
  | stored ptail =>
      simp only [Run.step, step, poll]
      cases q.data ptail with
      | none => simp [deliver, Interface.ahead]
      | some frame => simp only [deliver]; split_ifs <;> simp [Interface.ahead]

theorem Balanced.finished (balanced : Balanced state waiting backlog)
    (done : state.nic.ahead = 0) :
    state.nic.control = .idle ∧ waiting.length = races state.effects := by
  obtain ⟨⟨q, send_q, free, held, control⟩, past⟩ := state
  have counts := balanced.receives.counts
  cases control <;> simp only [Counts, Interface.ahead] at counts done <;> simp <;> omega

/-- The accesses take the frames one by one, and leave everything else as it is. -/
theorem after_polls (balanced : Balanced state waiting backlog) (count : ℕ) :
    let final := (List.replicate count Event.poll).foldl Run.step state
    (∃ waiting, Balanced final waiting backlog) ∧ queued final.effects = queued state.effects ∧
      races final.effects = races state.effects ∧ leaks final.effects = leaks state.effects ∧
      final.nic.ahead = state.nic.ahead - count := by
  induction count generalizing state waiting with
  | zero => exact ⟨⟨waiting, balanced⟩, rfl, rfl, rfl, rfl⟩
  | succ count inductionHypothesis =>
      obtain ⟨rest, next⟩ := balanced_poll balanced
      obtain ⟨noneQueued, noRace, noLeak, -⟩ := poll_effects state.nic
      obtain ⟨last, queued, races, leaks, ahead⟩ := inductionHypothesis next
      refine ⟨last, queued.trans ?_, races.trans ?_, leaks.trans ?_, ahead.trans ?_⟩
      · simp [Run.step, step, noneQueued]
      · simp [Run.step, step, noRace]
      · simp [Run.step, step, noLeak]
      · rw [ahead_poll balanced]
        omega

end Draining

section Order

theorem Balanced.behind {state : Run} {waiting backlog : List Frame}
    (balanced : Balanced state waiting backlog) : races state.effects ≤ waiting.length := by
  have counts := balanced.receives.counts
  revert counts
  cases state.nic.control <;> intro counts <;> simp only [Counts] at counts <;> omega

/-- Every buffer of the pool is free, with the stack, in a queue, or leaked. -/
theorem buffers_conserved (events : List Event) :
    (run events).nic.free + (run events).nic.held + (queued (run events).effects).length +
        (accepted (run events).effects).length + leaks (run events).effects =
      PBUF_POOL_SIZE + (delivered (run events).effects).length +
        (transmitted (run events).effects).length := by
  obtain ⟨waiting, backlog, balanced⟩ := balanced_run events
  have pool := balanced.pool
  rw [balanced.arrivals, balanced.departures, List.length_append, List.length_append]
  omega

/-- The pool is smaller than the queues, which therefore take every frame, however the length of
the receive queue is corrupted. -/
theorem queues_never_full (events : List Event) (frame : Frame) :
    (pq_enqueue (run events).nic.recv_q frame).isSome ∧
      (pq_enqueue (run events).nic.send_q frame).isSome := by
  obtain ⟨waiting, backlog, balanced⟩ := balanced_run events
  obtain ⟨received, enqueued, -⟩ := pq_enqueue_stores balanced.receives.stores balanced.room.1
    balanced.receives.counts.le frame
  obtain ⟨sent, copied, -⟩ := balanced.sends.enqueue balanced.room.2 frame
  rw [enqueued, copied]
  exact ⟨rfl, rfl⟩

/-- The buffers that are lost for good. -/
def lost (effects : List Effect) : ℕ := leaks effects + races effects

theorem lost_append (past new : List Effect) : lost (past ++ new) = lost past + lost new := by
  simp only [lost, leaks_append, races_append]
  omega

end Order

end SeqDetect.Nic
