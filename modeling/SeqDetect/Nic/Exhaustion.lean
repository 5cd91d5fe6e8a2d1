import SeqDetect.Nic.Recovery

/-!
# Exhaustion

With frames to send, the interface comes to rest from every state, for their completions raise the
interrupts that are missing.  But a completion of both transmit buffers can be made to cost a
buffer of the pool, as long as there are two.
-/

namespace SeqDetect.Nic

section Rounds

variable {link : Link} {waiting backlog : List Frame}

theorem control_receive (link : Link) (meanwhile : Meanwhile) :
    (link.receive meanwhile).run.nic.control = link.run.nic.control := by
  have recv (nic : Interface) (frame : Frame) :
      (xemacif_recv_handler nic frame).1.control = nic.control := by
    rw [xemacif_recv_handler]
    cases pq_enqueue nic.recv_q frame <;> split_ifs <;> rfl
  simp only [Link.receive]
  split_ifs
  · simp only [Link.react, Run.step, Nic.step, recv, transfers_run, XIntc_AckIntr]
  · rw [transfers_run]

theorem control_send (link : Link) (meanwhile : Meanwhile) :
    (link.send meanwhile).run.nic.control = link.run.nic.control := by
  have run := statuses_run link meanwhile
  simp only [Link.send]
  split_ifs
  · simp only [Link.react, Run.step, Nic.step, xemacif_send_handler, transfers_run,
      XIntc_AckIntr, run]
    split_ifs <;> rfl
  · rw [run]

theorem control_round (coming : link.Coming) :
    (round.foldl Link.step link).run.nic.control = link.run.nic.control := by
  rw [foldl_round coming, XEmacLite_InterruptHandler, control_send, control_receive, Link.sent,
    transfers_run]

/-- A round leaves both transmit buffers vacant, up to the frame that it sends. -/
theorem Live.vacant_round (live : Live link waiting backlog) (coming : link.Coming) :
    (round.foldl Link.step link).tx.vacant = if backlog = [] then 2 else 1 := by
  obtain ⟨sameTx, -, -⟩ := receive_keeps { link.sent with edge := false }
  obtain ⟨rest, received⟩ := live.sent.forget.receive undisturbed
  have vacated : ((link.sent.tx.acknowledge false).acknowledge true).vacant = 2 := by
    have ping : ((link.sent.tx.acknowledge false).tx true).completed =
        (link.sent.tx.tx true).completed :=
      completed_acknowledge _ (by decide)
    have active (buffer : Bool) : (link.sent.tx.tx buffer).active =
        (link.sent.tx.tx buffer).completed := by
      rw [completed_sent, Link.sent, transfers_active]
    simp only [Transmitter.vacant, acknowledge_active, ping, active]
    cases (link.sent.tx.tx false).completed <;> cases (link.sent.tx.tx true).completed <;> rfl
  rw [foldl_round coming, XEmacLite_InterruptHandler]
  simp only [Link.send, statuses_undisturbed, sameTx]
  cases backlog with
  | nil =>
      rw [if_pos rfl]
      split_ifs
      · rw [Link.react_send_nil (by exact received.balanced.sends.length)]
        exact vacated
      · exact vacated
  | cons frame backlog =>
      have armed := (live.sent.armed.acknowledge false).acknowledge true
      have available := armed.available_iff.mpr (by omega)
      rw [if_neg (List.cons_ne_nil _ _), if_pos live.completes]
      simp only [undisturbed, transfers_nil, XIntc_AckIntr]
      rw [available]
      obtain ⟨next, -, sent⟩ := @Link.react_send_cons rest backlog
        { Link.receive { link.sent with edge := false } undisturbed with
          tx := (link.sent.tx.acknowledge false).acknowledge true, edge := false } frame
        received.balanced
      rw [sent]
      exact (armed.transmit frame).2.trans (by rw [vacated])

end Rounds

section Rest

variable {link : Link} {waiting backlog : List Frame}

/-- The completion of a frame raises an interrupt, which reads a frame and acknowledges all
completions. -/
theorem Live.after_output (live : Live link waiting []) (idle : link.run.nic.control = .idle)
    (vacant : 0 < link.tx.vacant) (p : Server.Chain) :
    let final := (.output p :: round).foldl Link.step link
    (∃ waiting, Live final waiting []) ∧ final.run.nic.control = .idle ∧ final.tx.vacant = 2 ∧
      final.rx.filled = link.rx.filled - 1 := by
  obtain ⟨sent, nic, -, -, coming⟩ := live.output_direct idle vacant p
  obtain ⟨next, -⟩ := sent.after_round
  rw [List.foldl_cons]
  refine ⟨next, ?_, sent.vacant_round coming, ?_⟩
  · rw [control_round coming, nic, idle]
  · rw [filled_round coming]
    rfl

theorem exists_quiescent (live : Live link waiting backlog) :
    ∃ (more : List Link.Event) (waiting : List Frame),
      Quiescent (more.foldl Link.step link) waiting ∧
      (more.foldl Link.step link).rx.filled = 0 ∧ (more.foldl Link.step link).tx.vacant = 2 := by
  obtain ⟨p⟩ : Nonempty Server.Chain := ⟨⟨⟨fun _ => 0, 60⟩, [], 60, rfl, by decide⟩⟩
  obtain ⟨drain, -, ⟨behind, drained⟩, silent, -⟩ := live.drains
  obtain ⟨rest, -, ⟨resting, quiescent⟩, -, tx⟩ := drained.quiesces
  have vacant : 0 < ((drain ++ rest).foldl Link.step link).tx.vacant := by
    rw [List.foldl_append, tx, Nat.pos_iff_ne_zero]
    intro full
    have coming := drained.coming (.inr full)
    generalize drain.foldl Link.step link = device at coming silent
    rcases coming with edge | ⟨buffer, busy⟩
    · simp [Link.prospects, edge] at silent
    · cases buffer <;> simp [Link.prospects, Transmitter.sending, busy] at silent
  rw [← List.foldl_append] at quiescent
  have atMost : ((drain ++ rest).foldl Link.step link).rx.filled ≤ 2 := by
    have ping := Bool.toNat_le (((drain ++ rest).foldl Link.step link).rx.rx false).done
    have pong := Bool.toNat_le (((drain ++ rest).foldl Link.step link).rx.rx true).done
    rw [Receiver.filled]
    omega
  obtain ⟨⟨once, first⟩, idle, two, read⟩ := quiescent.live.after_output quiescent.idle vacant p
  obtain ⟨⟨twice, second⟩, -, stillTwo, empty⟩ := first.after_output idle (by omega) p
  obtain ⟨last, -, ⟨final, quiet⟩, rx, lastTx⟩ := second.quiesces
  refine ⟨drain ++ rest ++ (.output p :: round) ++ (.output p :: round) ++ last, final, ?_⟩
  rw [List.foldl_append, List.foldl_append, List.foldl_append]
  refine ⟨quiet, ?_, ?_⟩
  · rw [rx, empty, read]
    omega
  · rw [lastTx, stillTwo]

/-- With frames to send, the interface recovers from whatever has happened. -/
theorem exists_receiving (events : List Link.Event) :
    ∃ more, ∀ buffer ram, receiveLength ram ≠ 0 →
      queued (Link.after (events ++ more ++
          [.transfer (.arrive buffer ram), .interrupt undisturbed])).run.effects =
        queued (Link.after (events ++ more)).run.effects ++
          [(List.range (receiveLength ram).toNat).map ram] := by
  obtain ⟨waiting, backlog, live⟩ := live_linked.steps events
  obtain ⟨more, rest, quiescent, unfilled, -⟩ := exists_quiescent live
  refine ⟨more, fun buffer ram some_byte => ?_⟩
  rw [Link.after_append, Link.after_append]
  exact quiescent.queued_arrived unfilled buffer some_byte

end Rest

section Exhaustion

variable {link : Link} {waiting backlog : List Frame}

theorem lost_foldl (state : Run) (accesses : List Event) :
    lost state.effects ≤ lost (accesses.foldl Run.step state).effects := by
  induction accesses generalizing state with
  | nil => exact le_rfl
  | cons access accesses inductionHypothesis =>
      refine le_trans ?_ (inductionHypothesis (state.step access))
      rw [Run.step, lost_append]
      exact Nat.le_add_right _ _

/-- What is lost stays lost. -/
theorem lost_after (link : Link) (events : List Link.Event) :
    lost link.run.effects ≤ lost (events.foldl Link.step link).run.effects := by
  induction events generalizing link with
  | nil => exact le_rfl
  | cons event events inductionHypothesis =>
      obtain ⟨accesses, step⟩ := link.step_run event
      refine le_trans ?_ (inductionHypothesis (link.step event))
      rw [step]
      exact lost_foldl link.run accesses

/-- Two frames go to the device, and two more are copied. -/
theorem Quiescent.after_outputs (quiescent : Quiescent link waiting) (vacant : link.tx.vacant = 2)
    (two : lost link.run.effects + 2 ≤ PBUF_POOL_SIZE) (p : Server.Chain) :
    let final := (List.replicate 4 (Link.Event.output p)).foldl Link.step link
    Live final waiting [p.bytes, p.bytes] ∧ final.run.nic.control = .idle ∧
      lost final.run.effects = lost link.run.effects := by
  have free := quiescent.free
  obtain ⟨first, nic, taken, kept, -⟩ :=
    quiescent.live.output_direct quiescent.idle (by omega) p
  obtain ⟨second, again, full, still, -⟩ :=
    first.output_direct (nic ▸ quiescent.idle) (by omega) p
  have unchanged := again.trans nic
  obtain ⟨third, idle, fewer, sameTx, same⟩ :=
    second.output_copied (unchanged ▸ quiescent.idle) (by omega) (by rw [unchanged]; omega) p
  obtain ⟨fourth, stillIdle, -, -, total⟩ :=
    third.output_copied idle (by rw [sameTx]; omega) (by rw [fewer, unchanged]; omega) p
  exact ⟨fourth, stillIdle, total.trans (same.trans (still.trans kept))⟩

/-- After a completion of both, the fifth frame finds a vacant buffer although one waits. -/
def leaking (p : Server.Chain) : List Link.Event :=
  List.replicate 4 (.output p) ++ round ++ [.output p]

theorem Quiescent.leaks_one (quiescent : Quiescent link waiting) (vacant : link.tx.vacant = 2)
    (two : lost link.run.effects + 2 ≤ PBUF_POOL_SIZE) (p : Server.Chain) :
    (∃ waiting backlog, Live ((leaking p).foldl Link.step link) waiting backlog) ∧
      lost link.run.effects < lost ((leaking p).foldl Link.step link).run.effects := by
  obtain ⟨queued, idle, kept⟩ := quiescent.after_outputs vacant two p
  rw [leaking, List.foldl_append, List.foldl_append]
  generalize (List.replicate 4 (Link.Event.output p)).foldl Link.step link = full
    at queued idle kept ⊢
  have coming := queued.coming (.inl (List.cons_ne_nil _ _))
  obtain ⟨⟨rest, sent⟩, -⟩ := queued.after_round
  have one := (queued.vacant_round coming).trans (if_neg (List.cons_ne_nil _ _))
  have grown := lost_after full round
  obtain ⟨⟨backlog, last⟩, leaked⟩ := sent.output_leaked ((control_round coming).trans idle)
    (by omega) p
  refine ⟨⟨rest, backlog, last⟩, ?_⟩
  rw [List.foldl_cons, List.foldl_nil, leaked]
  omega

theorem exists_exhausted_after (live : Live link waiting backlog) :
    ∃ more, lost (List.foldl Link.step link more).run.effects + 1 = PBUF_POOL_SIZE := by
  generalize bound : PBUF_POOL_SIZE - lost link.run.effects = spare
  induction spare using Nat.strong_induction_on generalizing link waiting backlog with
  | _ spare inductionHypothesis =>
      have left := live.spare
      obtain ⟨more, rest, quiescent, -, vacant⟩ := exists_quiescent live
      have grown := lost_after link more
      have stillLeft := quiescent.live.spare
      rcases Nat.lt_or_ge (lost (more.foldl Link.step link).run.effects + 1) PBUF_POOL_SIZE with
        two | last
      swap
      · exact ⟨more, le_antisymm stillLeft last⟩
      obtain ⟨p⟩ : Nonempty Server.Chain := ⟨⟨⟨fun _ => 0, 60⟩, [], 60, rfl, by decide⟩⟩
      obtain ⟨⟨waiting, backlog, next⟩, leaked⟩ := quiescent.leaks_one vacant two p
      obtain ⟨rest, exhausted⟩ := inductionHypothesis _ (by omega) next rfl
      refine ⟨more ++ leaking p ++ rest, ?_⟩
      rwa [List.foldl_append, List.foldl_append]

/-- All buffers of the pool but one can be lost, whatever has happened. -/
theorem exists_exhausted (events : List Link.Event) :
    ∃ more, leaks (Link.after (events ++ more)).run.effects +
      races (Link.after (events ++ more)).run.effects + 1 = PBUF_POOL_SIZE := by
  obtain ⟨waiting, backlog, live⟩ := live_linked.steps events
  obtain ⟨more, exhausted⟩ := exists_exhausted_after live
  refine ⟨more, ?_⟩
  rw [Link.after_append]
  exact exhausted

end Exhaustion

end SeqDetect.Nic
