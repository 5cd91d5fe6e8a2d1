import SeqDetect.Nic.Rounds

/-!
# Recovery

Every interrupt reads one received frame, and sends one of the backlog after a completion.  As
long as the main line sends nothing new, the receive buffers are emptied exactly if they hold no
more frames than there are interrupts to come.  Otherwise the interface is deaf: both buffers may
be full with no interrupt left, for the handler can lose the edges of the frames that it does not
read.
-/

namespace SeqDetect.Nic

open Delta (Byte)

section Prospects

variable {link : Link} {waiting backlog : List Frame}

def Link.Event.isOutput : Link.Event → Bool
  | .output _ => true
  | _ => false

/-- The interrupts to come without a new frame: one for a latched edge, one for each frame that
the device is sending and one for each that waits. -/
def Link.prospects (link : Link) : ℕ :=
  link.edge.toNat + link.tx.sending + link.run.nic.send_q.len.toNat

theorem recv_send_q (nic : Interface) (frame : Frame) :
    (xemacif_recv_handler nic frame).1.send_q = nic.send_q := by
  rw [xemacif_recv_handler]
  cases pq_enqueue nic.recv_q frame <;> split_ifs <;> rfl

theorem react_receive_prospects (link : Link) (frame : Frame) :
    (link.react (.receiveInterrupt frame)).prospects = link.prospects := by
  obtain ⟨nothing, -⟩ := received_effects link.run.nic frame
  simp only [Link.prospects, Link.react, Run.step, Nic.step, nothing, List.foldl_nil, recv_send_q]

theorem sending_acknowledge (device : Transmitter) (buffer : Bool) :
    (device.acknowledge buffer).sending = device.sending := by
  simp only [Transmitter.sending, acknowledge_busy]

end Prospects

section Turns

variable {link : Link} {waiting backlog : List Frame}

/-- After a completion the handler takes the next frame of the backlog, if there is one. -/
theorem Kept.prospects_send (kept : Kept link waiting backlog) (forgotten : link.edge = false) :
    (link.send undisturbed).prospects = link.prospects := by
  have vacated := (kept.armed.statuses undisturbed).2.1
  have armed := (kept.armed.acknowledge false).acknowledge true
  simp only [statuses_undisturbed] at vacated
  simp only [Link.send, statuses_undisturbed]
  split_ifs with completes
  swap
  · simp only [Link.prospects, sending_acknowledge]
  have available := armed.available_iff.mpr (vacated completes)
  simp only [undisturbed, transfers_nil, XIntc_AckIntr]
  rw [available]
  cases backlog with
  | nil =>
      have nothing : link.run.nic.send_q.len = 0 := kept.balanced.sends.length
      rw [Link.react_send_nil (by exact nothing)]
      simp only [Link.prospects, sending_acknowledge, forgotten]
  | cons frame backlog =>
      obtain ⟨next, sends, sent⟩ := @Link.react_send_cons waiting backlog
        { link with tx := (link.tx.acknowledge false).acknowledge true, edge := false } frame
        kept.balanced
      rw [sent]
      simp only [Link.prospects, Transmitter.sending_transmit, available, sending_acknowledge,
        forgotten, sends.length, kept.balanced.sends.length, List.length_cons, Bool.toNat_false,
        Bool.toNat_true]
      omega

/-- The interrupt of a latched edge reads a frame, and leaves the prospects of the others. -/
theorem Live.interrupted (live : Live link waiting backlog) (edge : link.edge = true) :
    let final := link.step (.interrupt undisturbed)
    (∃ waiting backlog, Live final waiting backlog) ∧ final.prospects + 1 = link.prospects ∧
      final.rx.filled = link.rx.filled - 1 := by
  have entered : ({ link with edge := false } : Link).prospects + 1 = link.prospects := by
    simp only [Link.prospects, edge, Bool.toNat_false, Bool.toNat_true]
    omega
  obtain ⟨-, filled, -⟩ := receive_keeps { link with edge := false }
  obtain ⟨rest, received⟩ := live.toKept.forget.receive undisturbed
  have forgotten : (Link.receive { link with edge := false } undisturbed).edge = false ∧
      (Link.receive { link with edge := false } undisturbed).prospects =
        ({ link with edge := false } : Link).prospects := by
    rw [receive_undisturbed]
    split_ifs
    · exact ⟨rfl, react_receive_prospects _ _⟩
    · exact ⟨rfl, rfl⟩
  simp only [Link.step, if_pos edge, XEmacLite_InterruptHandler]
  refine ⟨⟨rest, _, received.send undisturbed⟩, ?_, ?_⟩
  · rw [received.prospects_send forgotten.1, forgotten.2, entered]
  · rw [(send_keeps _).1, filled]

/-- While there are prospects, the device can raise the next interrupt. -/
theorem Live.exists_turn (live : Live link waiting backlog) (more : 0 < link.prospects) :
    ∃ turn : List Link.Event, (∀ event ∈ turn, event.isOutput = false) ∧
      (∃ waiting backlog, Live (turn.foldl Link.step link) waiting backlog) ∧
      (turn.foldl Link.step link).prospects + 1 = link.prospects ∧
      (turn.foldl Link.step link).rx.filled = link.rx.filled - 1 := by
  have coming : link.Coming := by
    by_cases waits : backlog = []
    swap
    · exact live.coming (.inl waits)
    subst waits
    by_contra silent
    rw [Link.Coming, not_or, not_exists] at silent
    have nothing : link.run.nic.send_q.len = 0 := live.balanced.sends.length
    simp [Link.prospects, Transmitter.sending, nothing, silent] at more
  rcases coming with edge | ⟨buffer, busy⟩
  · exact ⟨[.interrupt undisturbed], by simp [Link.Event.isOutput], live.interrupted edge⟩
  · by_cases edge : link.edge = true
    · exact ⟨[.interrupt undisturbed], by simp [Link.Event.isOutput], live.interrupted edge⟩
    refine ⟨[.transfer (.complete buffer), .interrupt undisturbed],
      by simp [Link.Event.isOutput], ?_⟩
    have completed := live.transfer (.complete buffer)
    have raised : (link.transfer (.complete buffer)).edge = true := by
      simp [Link.transfer, busy]
    have same : (link.transfer (.complete buffer)).prospects = link.prospects := by
      rw [Bool.not_eq_true] at edge
      cases buffer with
      | false => simp [Link.transfer, Link.prospects, Transmitter.sending, busy, edge]
      | true =>
          simp [Link.transfer, Link.prospects, Transmitter.sending, busy, edge]
          omega
    have sameRx : (link.transfer (.complete buffer)).rx = link.rx := by
      simp [Link.transfer, busy]
    have next := completed.interrupted raised
    rw [same, sameRx] at next
    exact next

/-- In the end every prospect has read its frame. -/
theorem Live.drains (live : Live link waiting backlog) :
    ∃ more : List Link.Event, (∀ event ∈ more, event.isOutput = false) ∧
      (∃ waiting, Live (more.foldl Link.step link) waiting []) ∧
      (more.foldl Link.step link).prospects = 0 ∧
      (more.foldl Link.step link).rx.filled = link.rx.filled - link.prospects := by
  generalize count : link.prospects = prospects
  induction prospects generalizing link waiting backlog with
  | zero =>
      have nothing : backlog = [] := by
        have length := live.balanced.sends.length
        rw [Link.prospects] at count
        exact List.length_eq_zero_iff.mp (by omega)
      subst nothing
      exact ⟨[], by simp, ⟨waiting, live⟩, count, rfl⟩
  | succ prospects inductionHypothesis =>
      obtain ⟨turn, own, ⟨rest, left, next⟩, fewer, read⟩ := live.exists_turn (by omega)
      obtain ⟨more, others, drained, none_left, empty⟩ := inductionHypothesis next (by omega)
      refine ⟨turn ++ more, ?_, ?_⟩
      · intro event membership
        exact (List.mem_append.mp membership).elim (own event) (others event)
      · rw [List.foldl_append]
        exact ⟨drained, none_left, by omega⟩

end Turns

section Quiescence

variable {link : Link} {waiting backlog : List Frame}

theorem foldl_polls (link : Link) (count : ℕ) :
    (List.replicate count Link.Event.poll).foldl Link.step link =
      { link with run := (List.replicate count Event.poll).foldl Run.step link.run } := by
  induction count generalizing link with
  | zero => rfl
  | succ count inductionHypothesis =>
      obtain ⟨-, -, -, nothing⟩ := poll_effects link.run.nic
      rw [List.replicate_succ, List.foldl_cons, inductionHypothesis]
      simp only [Link.step, Link.react, Nic.step, nothing, List.foldl_nil, List.replicate_succ,
        List.foldl_cons]

theorem Live.polls (live : Live link waiting backlog) (count : ℕ) :
    ∃ waiting, Live ((List.replicate count Link.Event.poll).foldl Link.step link)
      waiting backlog := by
  induction count generalizing link waiting with
  | zero => exact ⟨waiting, live⟩
  | succ count inductionHypothesis =>
      obtain ⟨rest, next⟩ := live.poll
      exact inductionHypothesis next

/-- The stack gives all its buffers back. -/
theorem Live.released (live : Live link waiting backlog) (idle : link.run.nic.control = .idle) :
    let final := (List.replicate link.run.nic.held Link.Event.release).foldl Link.step link
    Live final waiting backlog ∧ final.run.nic.control = .idle ∧ final.run.nic.held = 0 ∧
      final.run.effects = link.run.effects ∧ final.rx = link.rx ∧ final.tx = link.tx := by
  generalize count : link.run.nic.held = held
  induction held generalizing link with
  | zero => exact ⟨live, idle, count, rfl, rfl, rfl⟩
  | succ held inductionHypothesis =>
      have given : Nic.step link.run.nic .release =
          ({ link.run.nic with held := held, free := link.run.nic.free + 1 }, []) := by
        simp [Nic.step, idle, count]
      have stepped : link.step .release = { link with
          run := ⟨{ link.run.nic with held := held, free := link.run.nic.free + 1 },
            link.run.effects⟩ } := by
        simp [Link.step, Link.react, Run.step, given, transmitted]
      have next := live.release
      rw [stepped] at next
      rw [List.replicate_succ, List.foldl_cons, stepped]
      exact inductionHypothesis next idle rfl

/-- Nothing is under way: every buffer that is not lost is free. -/
structure Quiescent (link : Link) (waiting : List Frame) : Prop where
  live : Live link waiting []
  idle : link.run.nic.control = .idle
  free : link.run.nic.free + lost link.run.effects = PBUF_POOL_SIZE

/-- With nothing to send, polling and releasing are all that is left to the main line. -/
theorem Live.quiesces (live : Live link waiting []) :
    ∃ more : List Link.Event, (∀ event ∈ more, event.isOutput = false) ∧
      (∃ waiting, Quiescent (more.foldl Link.step link) waiting) ∧
      (more.foldl Link.step link).rx = link.rx ∧ (more.foldl Link.step link).tx = link.tx := by
  obtain ⟨stuck, polled⟩ := live.polls link.run.nic.ahead
  obtain ⟨-, -, -, -, ahead⟩ := after_polls live.balanced link.run.nic.ahead
  have polls := foldl_polls link link.run.nic.ahead
  generalize List.foldl Run.step link.run _ = state at polls ahead
  rw [polls] at polled
  obtain ⟨idle, total⟩ := polled.balanced.finished (by simp only [ahead, Nat.sub_self])
  obtain ⟨released, stillIdle, noneHeld, kept, rx, tx⟩ := polled.released idle
  have pool := released.balanced.pool
  refine ⟨List.replicate link.run.nic.ahead .poll ++ List.replicate state.nic.held .release,
    ?_, ⟨stuck, ?_⟩, ?_⟩
  · intro event membership
    rcases List.mem_append.mp membership with polling | releasing
    · rw [List.eq_of_mem_replicate polling]
      rfl
    · rw [List.eq_of_mem_replicate releasing]
      rfl
  · rw [List.foldl_append, polls]
    refine ⟨released, stillIdle, ?_⟩
    rw [noneHeld, kept] at pool
    rw [kept, lost]
    simp only [List.length_nil] at pool total ⊢
    omega
  · rw [List.foldl_append, polls]
    exact ⟨rx, tx⟩

/-- A frame in either buffer is what the next interrupt reads. -/
theorem recv_arrived {device : Receiver} (empty : device.filled = 0) (buffer : Bool)
    (ram : ℕ → Byte) :
    (XEmacLite_Recv { device with rx := Function.update device.rx buffer ⟨true, ram⟩ }).1 =
      (List.range (receiveLength ram).toNat).map ram := by
  obtain ⟨rx, expected⟩ := device
  simp only [Receiver.filled, Nat.add_eq_zero_iff, Bool.toNat_eq_zero] at empty
  cases expected <;> cases buffer <;> simp [XEmacLite_Recv, Receiver.read, empty]

/-- With nothing to send, the second half of the handler does nothing for the interface. -/
theorem send_run_nil (nothing : link.run.nic.send_q.len = 0) (meanwhile : Meanwhile) :
    (link.send meanwhile).run = link.run := by
  have run := statuses_run link meanwhile
  simp only [Link.send]
  split_ifs
  · rw [Link.react_send_nil]
    · exact (transfers_run _ _).trans run
    · rw [XIntc_AckIntr, transfers_run, run]
      exact nothing
  · exact run

/-- An interrupt outside of `low_level_input` queues the frame that it reads. -/
theorem queued_interrupt (balanced : Balanced link.run waiting []) (edge : link.edge = true)
    (idle : link.run.nic.control = .idle) (free : link.run.nic.free ≠ 0)
    (filled : 0 < link.rx.filled) (some_byte : (XEmacLite_Recv link.rx).1.length ≠ 0) :
    queued (link.step (.interrupt undisturbed)).run.effects =
      queued link.run.effects ++ [(XEmacLite_Recv link.rx).1] := by
  obtain ⟨⟨nic, past⟩, rx, tx, latched⟩ := link
  obtain ⟨next, received, -⟩ := balanced.received free some_byte
  replace idle : nic.control = .idle := idle
  simp only [Link.step, if_pos edge, XEmacLite_InterruptHandler]
  rw [receive_undisturbed, if_pos filled, send_run_nil] <;>
    simp only [Link.react, Run.step, Nic.step, received]
  · simp [idle, Control.isLoaded, queued]
  · exact balanced.sends.length

theorem Quiescent.queued_arrived (quiescent : Quiescent link waiting)
    (unfilled : link.rx.filled = 0) (buffer : Bool) {ram : ℕ → Byte}
    (some_byte : receiveLength ram ≠ 0) :
    queued ((link.step (.transfer (.arrive buffer ram))).step
        (.interrupt undisturbed)).run.effects =
      queued link.run.effects ++ [(List.range (receiveLength ram).toNat).map ram] := by
  have spare := quiescent.live.spare
  have free := quiescent.free
  have empty := unfilled
  simp only [Receiver.filled, Nat.add_eq_zero_iff, Bool.toNat_eq_zero] at empty
  have stored : ¬(link.rx.rx buffer).done = true := by cases buffer <;> simp [empty]
  have frame := recv_arrived unfilled buffer ram
  have next := (quiescent.live.transfer (.arrive buffer ram)).balanced
  rw [← frame]
  rw [Link.transfer, if_neg stored] at next
  rw [show link.step (.transfer (.arrive buffer ram)) = { link with
      rx := { link.rx with rx := Function.update link.rx.rx buffer ⟨true, ram⟩ }
      edge := true } from if_neg stored]
  refine queued_interrupt next rfl quiescent.idle (by simp only; omega) ?_ ?_
  · cases buffer <;> simp [Receiver.filled]
  · rw [frame, List.length_map, List.length_range]
    exact fun zero => some_byte (BitVec.eq_of_toNat_eq zero)

end Quiescence

section Deaf

variable {link : Link}

/-- Both receive buffers are full, and no interrupt is to come. -/
structure Deaf (link : Link) : Prop where
  full : ∀ buffer, (link.rx.rx buffer).done = true
  silent : link.edge = false
  sent : ∀ buffer, (link.tx.tx buffer).busy = false

/-- Only a frame to send can end this. -/
theorem Deaf.step (deaf : Deaf link) {event : Link.Event} (own : event.isOutput = false) :
    Deaf (link.step event) ∧
      queued (link.step event).run.effects = queued link.run.effects := by
  cases event with
  | poll =>
      obtain ⟨noneQueued, -, -, nothing⟩ := poll_effects link.run.nic
      refine ⟨⟨deaf.full, deaf.silent, ?_⟩, ?_⟩
      · simpa only [Link.step, Link.react, Nic.step, nothing, List.foldl_nil] using deaf.sent
      · simp only [Link.step, Link.react, Run.step, Nic.step, queued_append, noneQueued,
          List.append_nil]
  | output p => simp [Link.Event.isOutput] at own
  | release =>
      have silent : (Nic.step link.run.nic .release).2 = [] := by
        simp only [Nic.step]
        split_ifs <;> rfl
      refine ⟨⟨deaf.full, deaf.silent, ?_⟩, ?_⟩
      · simpa only [Link.step, Link.react, silent, transmitted, List.filterMap_nil,
          List.foldl_nil] using deaf.sent
      · simp only [Link.step, Link.react, Run.step, silent, List.append_nil]
  | transfer transfer =>
      have same : link.transfer transfer = link := by
        cases transfer with
        | arrive buffer ram => exact if_pos (deaf.full buffer)
        | complete buffer => exact if_neg (by simp [deaf.sent])
      rw [Link.step, same]
      exact ⟨deaf, rfl⟩
  | interrupt meanwhile =>
      have same : link.step (.interrupt meanwhile) = link := by simp [Link.step, deaf.silent]
      rw [same]
      exact ⟨deaf, rfl⟩

theorem Deaf.steps (deaf : Deaf link) {events : List Link.Event}
    (own : ∀ event ∈ events, event.isOutput = false) :
    queued (events.foldl Link.step link).run.effects = queued link.run.effects := by
  induction events generalizing link with
  | nil => rfl
  | cons event events inductionHypothesis =>
      obtain ⟨next, same⟩ := deaf.step (own event List.mem_cons_self)
      refine (inductionHypothesis next fun event membership => ?_).trans same
      exact own event (List.mem_cons_of_mem _ membership)

/-- A frame is sent, and two frames arrive before the handler acknowledges its completion. -/
def deafening (p : Server.Chain) (first second : ℕ → Byte) : List Link.Event :=
  [.output p, .transfer (.complete false), .interrupt fun
    | .sendAck => [.arrive false first, .arrive true second]
    | _ => []]

theorem deaf_deafening (p : Server.Chain) (first second : ℕ → Byte) :
    Deaf (Link.after (deafening p first second)) where
  full buffer := by cases buffer <;> rfl
  silent := rfl
  sent buffer := by cases buffer <;> rfl

/-- The interface is never given a frame again, unless it is to send one itself. -/
theorem deafened (p : Server.Chain) (first second : ℕ → Byte) {more : List Link.Event}
    (own : ∀ event ∈ more, event.isOutput = false) :
    queued (Link.after (deafening p first second ++ more)).run.effects = [] := by
  rw [Link.after_append, (deaf_deafening p first second).steps own]
  rfl

end Deaf

end SeqDetect.Nic
