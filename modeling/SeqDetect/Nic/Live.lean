import SeqDetect.Nic.Delivery
import SeqDetect.Nic.Link

/-!
# No stall

Frames wait in the send queue only while a transmit buffer is in use and an interrupt is still
to come: latched already, or at the end of a frame that the device is sending.  The handler can
lose an edge, but only after a completion, and then it sends the next frame.  A leak needs two
buffers, and so does a race: the last buffer of the pool is never lost.
-/

namespace SeqDetect.Nic

open Delta (Byte)

section Reactions

variable {nic : Interface} {past : List Effect} {waiting backlog : List Frame} {link : Link}

theorem Link.react_none {event : Nic.Event}
    (nothing : Nic.step link.run.nic event = (link.run.nic, [])) : link.react event = link := by
  obtain ⟨⟨nic, past⟩, rx, tx⟩ := link
  replace nothing : Nic.step nic event = (nic, []) := nothing
  simp [react, Run.step, nothing, transmitted]

theorem Balanced.waits (balanced : Balanced ⟨nic, past⟩ waiting backlog) :
    nic.send_q.len ≠ 0 ↔ backlog ≠ [] := by
  rw [balanced.sends.length, ← List.length_pos_iff]
  omega

/-- A buffer is free for the copy, or there is none. -/
theorem copied_effects (balanced : Balanced ⟨nic, past⟩ waiting backlog) (p : Server.Chain) :
    lost (enqueueCopy nic p).2 = 0 ∧ transmitted (enqueueCopy nic p).2 = [] := by
  by_cases empty : nic.free = 0
  · simp [enqueueCopy, empty, lost, leaks, races, transmitted]
  · obtain ⟨next, enqueued, -⟩ := balanced.sends.enqueue balanced.room.2 p.bytes
    simp [enqueueCopy, empty, enqueued, lost, leaks, races, transmitted]

theorem received_effects (nic : Interface) (frame : Frame) :
    transmitted (xemacif_recv_handler nic frame).2 = [] ∧
      accepted (xemacif_recv_handler nic frame).2 = [] := by
  rw [xemacif_recv_handler]
  cases pq_enqueue nic.recv_q frame <;> split_ifs <;> exact ⟨rfl, rfl⟩

/-- A race takes a buffer besides the one that is being delivered. -/
theorem received_lost (balanced : Balanced ⟨nic, past⟩ waiting backlog) (frame : Frame) :
    lost (xemacif_recv_handler nic frame).2 = 0 ∨
      lost (xemacif_recv_handler nic frame).2 = 1 ∧
        lost past + backlog.length + 2 ≤ PBUF_POOL_SIZE := by
  by_cases empty : nic.free = 0
  · simp [xemacif_recv_handler, empty, lost, leaks, races]
  by_cases nothing : frame.length = 0
  · simp [xemacif_recv_handler, empty, nothing, lost, leaks, races]
  obtain ⟨next, received, -⟩ := balanced.received empty nothing
  have pool := balanced.pool
  have counts := balanced.receives.counts
  rw [received]
  cases control : nic.control with
  | loaded ptail len =>
      rw [control] at counts
      obtain ⟨-, -, positive, total⟩ := counts
      refine .inr ⟨by simp [Control.isLoaded, lost, leaks, races], ?_⟩
      simp only [lost] at pool total ⊢
      omega
  | _ => simp [Control.isLoaded, lost, leaks, races]

/-- With nothing to send, the handler leaves the device alone. -/
theorem Link.react_send_nil (nothing : link.run.nic.send_q.len = 0) (available : Bool) :
    link.react (.sendInterrupt available) = link :=
  react_none (by simp [Nic.step, xemacif_send_handler, nothing])

/-- The first frame that waits is sent, and its buffer is freed. -/
theorem Link.react_send_cons {frame : Frame}
    (balanced : Balanced link.run waiting (frame :: backlog)) :
    ∃ next, Sends next backlog ∧ link.react (.sendInterrupt true) =
      { link with
        run := ⟨{ link.run.nic with send_q := next, free := link.run.nic.free + 1 },
          link.run.effects ++ [.transmitted frame]⟩
        tx := transmit_packet link.tx frame } := by
  obtain ⟨next, dequeued, sends⟩ := balanced.sends.dequeue
  have waits := balanced.waits.mpr (List.cons_ne_nil _ _)
  refine ⟨next, sends, ?_⟩
  simp only [react, Run.step, Nic.step, xemacif_send_handler, ne_eq, waits, not_false_eq_true,
    and_self, if_pos, dequeued]
  rfl

end Reactions

section Device

variable {link : Link}

theorem transfer_active (link : Link) (transfer : Transfer) (buffer : Bool) :
    ((link.transfer transfer).tx.tx buffer).active = (link.tx.tx buffer).active := by
  cases transfer with
  | arrive other ram =>
      rw [Link.transfer]
      split_ifs <;> rfl
  | complete other =>
      rw [Link.transfer]
      split_ifs
      · by_cases same : buffer = other
        · simp [same]
        · simp [same]
      · rfl

theorem transfers_active (link : Link) (several : List Transfer) (buffer : Bool) :
    ((link.transfers several).tx.tx buffer).active = (link.tx.tx buffer).active :=
  Link.transfers_induction
    (fun other transfer same => (transfer_active other transfer buffer).trans same) rfl several

theorem transfers_vacant (link : Link) (several : List Transfer) :
    (link.transfers several).tx.vacant = link.tx.vacant := by
  simp only [Transmitter.vacant, transfers_active]

theorem Transmitter.Armed.transfer (armed : link.tx.Armed) (transfer : Transfer) :
    (link.transfer transfer).tx.Armed := by
  refine ⟨?_, ?_⟩
  · have interrupts := armed.interrupts
    cases transfer <;> simp only [Link.transfer] <;> split_ifs <;> exact interrupts
  · intro buffer busy
    rw [transfer_active]
    refine armed.active buffer ?_
    cases transfer with
    | arrive other ram =>
        simp only [Link.transfer] at busy
        split_ifs at busy <;> exact busy
    | complete other =>
        simp only [Link.transfer] at busy
        split_ifs at busy
        · by_cases same : buffer = other
          · simp [same] at busy
          · simpa [same] using busy
        · exact busy

theorem Transmitter.Armed.transfers (armed : link.tx.Armed) (several : List Transfer) :
    (link.transfers several).tx.Armed :=
  Link.transfers_induction (motive := fun link => link.tx.Armed)
    (fun _ transfer armed => armed.transfer transfer) armed several

/-- An edge is latched, or the device is sending a frame and will raise one. -/
def Link.Coming (link : Link) : Prop :=
  link.edge = true ∨ ∃ buffer, (link.tx.tx buffer).busy = true

theorem Link.Coming.transfer (coming : link.Coming) (transfer : Transfer) :
    (link.transfer transfer).Coming := by
  cases transfer with
  | arrive other ram =>
      rw [Link.transfer]
      split_ifs
      · exact coming
      · exact .inl rfl
  | complete other =>
      rw [Link.transfer]
      split_ifs
      · exact .inl rfl
      · exact coming

theorem Link.Coming.transfers (coming : link.Coming) (several : List Transfer) :
    (link.transfers several).Coming :=
  Link.transfers_induction (fun _ transfer coming => coming.transfer transfer) coming several

/-- The device has a frame to send then. -/
theorem exists_busy_transmit {device : Transmitter}
    (available : XEmacLite_TxBufferAvailable device = true) (frame : Frame) :
    ∃ buffer, ((transmit_packet device frame).tx buffer).busy = true := by
  have sending := device.sending_transmit frame
  rw [available, Transmitter.sending] at sending
  cases ping : ((transmit_packet device frame).tx false).busy with
  | true => exact ⟨false, ping⟩
  | false =>
      refine ⟨true, ?_⟩
      cases pong : ((transmit_packet device frame).tx true).busy with
      | true => rfl
      | false => simp [ping, pong] at sending

theorem acknowledge_of_not {device : Transmitter} {buffer : Bool}
    (incomplete : (device.tx buffer).completed = false) :
    device.acknowledge buffer = device := by
  rw [Transmitter.acknowledge, incomplete]
  rfl

theorem TxBuffer.busy_of_active {buffer : TxBuffer} (active : buffer.active = true)
    (incomplete : buffer.completed = false) : buffer.busy = true := by
  simpa [completed, active] using incomplete

/-- A completion leaves a buffer vacant.  Without one nothing has changed, and a buffer in use
was found busy: its edge cannot have been lost. -/
theorem Transmitter.Armed.statuses (armed : link.tx.Armed) (meanwhile : Meanwhile) :
    (link.statuses meanwhile).2.tx.Armed ∧
      ((link.statuses meanwhile).1 = true → 0 < (link.statuses meanwhile).2.tx.vacant) ∧
      ((link.statuses meanwhile).1 = false →
        (link.statuses meanwhile).2.tx.vacant = link.tx.vacant ∧
          ((link.statuses meanwhile).2.tx.vacant < 2 → (link.statuses meanwhile).2.Coming)) := by
  simp only [Link.statuses]
  have pingArmed := armed.transfers (meanwhile .pingStatus)
  have same := transfers_vacant link (meanwhile .pingStatus)
  generalize link.transfers (meanwhile .pingStatus) = ping at pingArmed same ⊢
  have acknowledged : ({ ping with tx := ping.tx.acknowledge false } : Link).tx.Armed :=
    pingArmed.acknowledge false
  have inactive : (ping.tx.tx false).completed = true →
      ((ping.tx.acknowledge false).tx false).active = false := by
    intro completed
    simp [acknowledge_active, completed]
  have pongArmed := acknowledged.transfers (meanwhile .pongStatus)
  refine ⟨pongArmed.acknowledge true, ?_, ?_⟩
  · intro completes
    rw [Transmitter.vacant, acknowledge_active, acknowledge_active, transfers_active]
    rcases Bool.or_eq_true_iff.mp completes with first | second
    · simp [inactive first]
    · simp [second]
  · intro quiet
    obtain ⟨first, second⟩ := Bool.or_eq_false_iff.mp quiet
    rw [acknowledge_of_not first] at second ⊢
    rw [acknowledge_of_not second, transfers_vacant]
    refine ⟨same, fun used => ?_⟩
    obtain ⟨buffer, active⟩ := Transmitter.exists_active used
    cases buffer with
    | false => exact Link.Coming.transfers (.inr ⟨false, TxBuffer.busy_of_active active first⟩) _
    | true =>
        rw [← transfers_active ping (meanwhile .pongStatus)] at active
        exact .inr ⟨true, TxBuffer.busy_of_active active second⟩

end Device

section Liveness

variable {link : Link} {waiting backlog : List Frame}

/-- Frames wait only while a transmit buffer is in use.  Not all buffers of the pool are lost,
and while frames wait although a transmit buffer is vacant, there is one more to lose. -/
structure Kept (link : Link) (waiting backlog : List Frame) : Prop where
  balanced : Balanced link.run waiting backlog
  armed : link.tx.Armed
  pending : backlog ≠ [] → link.tx.vacant < 2
  spare : lost link.run.effects < PBUF_POOL_SIZE
  spared : backlog ≠ [] → 0 < link.tx.vacant → lost link.run.effects + 1 < PBUF_POOL_SIZE

/-- Outside of the interrupt handler, no frame that waits or has to wait is forgotten. -/
structure Live (link : Link) (waiting backlog : List Frame) : Prop extends
    Kept link waiting backlog where
  coming : backlog ≠ [] ∨ link.tx.vacant = 0 → link.Coming

theorem live_linked : Live linked [] [] where
  balanced := balanced_started
  armed := ⟨rfl, by simp [linked]⟩
  pending := by simp
  spare := by decide
  spared := by simp
  coming := by simp [linked, Transmitter.vacant]

/-- A frame for a vacant buffer, with no others waiting. -/
theorem Live.output_direct (live : Live link waiting []) (idle : link.run.nic.control = .idle)
    (vacant : 0 < link.tx.vacant) (p : Server.Chain) :
    Live (link.step (.output p)) waiting [] ∧
      (link.step (.output p)).run.nic = link.run.nic ∧
      (link.step (.output p)).tx.vacant = link.tx.vacant - 1 ∧
      lost (link.step (.output p)).run.effects = lost link.run.effects ∧
      (link.step (.output p)).Coming := by
  obtain ⟨⟨nic, past⟩, rx, tx⟩ := link
  have available := live.armed.available_iff.mpr vacant
  have nothing : nic.send_q.len = 0 := live.balanced.sends.length
  have output : Nic.step nic (.output p (XEmacLite_TxBufferAvailable tx)) =
      (nic, [.accepted p.bytes, .transmitted p.bytes]) := by
    replace idle : nic.control = .idle := idle
    replace available : XEmacLite_TxBufferAvailable tx = true := available
    simp [Nic.step, idle, available, low_level_output, nothing]
  obtain ⟨armed, taken⟩ := live.armed.transmit p.bytes
  obtain ⟨rest, balanced⟩ := balanced_output live.balanced p (XEmacLite_TxBufferAvailable tx)
  simp only [Link.step, Link.react, Run.step, output] at balanced ⊢
  have none_left : rest = [] := by
    have length := balanced.sends.length
    simp only [nothing] at length
    exact List.length_eq_zero_iff.mp (by omega)
  subst none_left
  have same : lost (past ++ [.accepted p.bytes, .transmitted p.bytes]) = lost past := by
    simp [lost, leaks, races]
  have coming := exists_busy_transmit available p.bytes
  refine ⟨⟨⟨balanced, armed, by simp, ?_, by simp⟩, fun _ => .inr coming⟩, trivial, taken, same,
    .inr coming⟩
  simpa only [same] using live.spare

/-- With no buffer vacant the frame is copied. -/
theorem Live.output_copied (live : Live link waiting backlog)
    (idle : link.run.nic.control = .idle) (full : link.tx.vacant = 0)
    (free : link.run.nic.free ≠ 0) (p : Server.Chain) :
    Live (link.step (.output p)) waiting (backlog ++ [p.bytes]) ∧
      (link.step (.output p)).run.nic.control = .idle ∧
      (link.step (.output p)).run.nic.free = link.run.nic.free - 1 ∧
      (link.step (.output p)).tx = link.tx ∧
      lost (link.step (.output p)).run.effects = lost link.run.effects := by
  obtain ⟨⟨nic, past⟩, rx, tx⟩ := link
  have unavailable : XEmacLite_TxBufferAvailable tx = false := live.armed.unavailable full
  obtain ⟨kept, nothing⟩ := copied_effects live.balanced p
  have balanced := balanced_copied live.balanced free p
  obtain ⟨next, enqueued, -⟩ := live.balanced.sends.enqueue live.balanced.room.2 p.bytes
  replace idle : nic.control = .idle := idle
  replace free : nic.free ≠ 0 := free
  have output : Nic.step nic (.output p (XEmacLite_TxBufferAvailable tx)) = enqueueCopy nic p := by
    simp [Nic.step, idle, unavailable, low_level_output]
  simp only [Link.step, Link.react, Run.step, output, nothing, List.foldl_nil, lost_append, kept]
  refine ⟨⟨⟨balanced, live.armed, ?_, ?_, ?_⟩, ?_⟩, ?_, ?_, trivial, Nat.add_zero _⟩
  · exact fun _ => full.trans_lt (by decide)
  · simpa only [lost_append, kept, Nat.add_zero] using live.spare
  · exact fun _ vacant => absurd full vacant.ne'
  · exact fun _ => live.coming (.inr full)
  · simp [enqueueCopy, free, enqueued, idle]
  · simp [enqueueCopy, free, enqueued]

/-- With a buffer vacant although frames wait, the buffer of the first one leaks. -/
theorem Live.output_leaked {frame : Frame} (live : Live link waiting (frame :: backlog))
    (idle : link.run.nic.control = .idle) (vacant : 0 < link.tx.vacant) (p : Server.Chain) :
    (∃ backlog, Live (link.step (.output p)) waiting backlog) ∧
      lost (link.step (.output p)).run.effects = lost link.run.effects + 1 := by
  obtain ⟨⟨nic, past⟩, rx, tx⟩ := link
  have available : XEmacLite_TxBufferAvailable tx = true := live.armed.available_iff.mpr vacant
  obtain ⟨next, dequeued, sends⟩ := live.balanced.sends.dequeue
  have waits := live.balanced.waits.mpr (List.cons_ne_nil _ _)
  have copied := copied_effects (balanced_sent false live.balanced sends) p
  replace idle : nic.control = .idle := idle
  have output : Nic.step nic (.output p (XEmacLite_TxBufferAvailable tx)) =
      ((enqueueCopy { nic with send_q := next } p).1,
        .transmitted frame :: .leaked :: (enqueueCopy { nic with send_q := next } p).2) := by
    simp [Nic.step, idle, available, low_level_output, waits, dequeued]
  obtain ⟨armed, taken⟩ := live.armed.transmit frame
  obtain ⟨rest, balanced⟩ := balanced_output live.balanced p (XEmacLite_TxBufferAvailable tx)
  have pending : tx.vacant < 2 := live.pending (List.cons_ne_nil _ _)
  have spared := live.spared (List.cons_ne_nil _ _) vacant
  simp only [Link.step, Link.react, Run.step, output] at balanced ⊢
  have new : (enqueueCopy { nic with send_q := next, free := nic.free + false.toNat } p).2 =
      (enqueueCopy { nic with send_q := next } p).2 := rfl
  rw [new] at copied
  generalize (enqueueCopy { nic with send_q := next } p).2 = effects at copied balanced ⊢
  obtain ⟨kept, nothing⟩ := copied
  have sent : transmitted (.transmitted frame :: .leaked :: effects) = [frame] :=
    congrArg (List.cons frame) nothing
  have grown : lost (past ++ .transmitted frame :: .leaked :: effects) = lost past + 1 := by
    have leaked : lost ([.transmitted frame, .leaked] ++ effects) = 1 := by
      rw [lost_append, kept]
      simp [lost, leaks, races]
    rw [lost_append, ← leaked]
    rfl
  have full : (transmit_packet tx frame).vacant = 0 := taken.trans (by simp only; omega)
  rw [sent]
  refine ⟨⟨rest, ⟨balanced, armed, fun _ => full.trans_lt (by decide), ?_, ?_⟩, ?_⟩, grown⟩
  · simpa only [grown] using spared
  · exact fun _ left => absurd full left.ne'
  · exact fun _ => .inr (exists_busy_transmit available frame)

theorem Live.output (live : Live link waiting backlog) (p : Server.Chain) :
    ∃ backlog, Live (link.step (.output p)) waiting backlog := by
  by_cases idle : link.run.nic.control = .idle
  swap
  · refine ⟨backlog, ?_⟩
    rwa [Link.step, Link.react_none (by simp [Nic.step, idle])]
  rcases Nat.eq_zero_or_pos link.tx.vacant with full | vacant
  · by_cases empty : link.run.nic.free = 0
    · refine ⟨backlog, ?_⟩
      rwa [Link.step, Link.react_none (by
        simp [Nic.step, idle, live.armed.unavailable full, low_level_output, enqueueCopy, empty])]
    · exact ⟨_, (live.output_copied idle full empty p).1⟩
  · cases backlog with
    | nil => exact ⟨[], (live.output_direct idle vacant p).1⟩
    | cons frame backlog => exact (live.output_leaked idle vacant p).1

/-- A step that gives the device nothing and loses nothing. -/
theorem Live.quiet {event : Nic.Event} {rest : List Frame} (live : Live link waiting backlog)
    (balanced : Balanced (link.run.step event) rest backlog)
    (nothing : transmitted (Nic.step link.run.nic event).2 = [])
    (kept : lost (Nic.step link.run.nic event).2 = 0) : Live (link.react event) rest backlog := by
  have same : (link.react event).tx = link.tx := by rw [Link.react, nothing, List.foldl_nil]
  have total : lost (link.react event).run.effects = lost link.run.effects :=
    (lost_append _ _).trans (by rw [kept, Nat.add_zero])
  have coming := live.coming
  refine ⟨⟨balanced, same ▸ live.armed, same ▸ live.pending, total ▸ live.spare, ?_⟩, ?_⟩
  · rw [same, total]
    exact live.spared
  · rw [Link.Coming, same]
    exact coming

theorem Live.poll (live : Live link waiting backlog) :
    ∃ waiting, Live (link.step .poll) waiting backlog := by
  obtain ⟨rest, balanced⟩ := balanced_poll live.balanced
  obtain ⟨-, noRace, noLeak, nothing⟩ := poll_effects link.run.nic
  exact ⟨rest, live.quiet balanced nothing (by rw [lost, Nic.step, noRace, noLeak])⟩

theorem Live.release (live : Live link waiting backlog) :
    Live (link.step .release) waiting backlog := by
  have silent : (Nic.step link.run.nic .release).2 = [] := by
    simp only [Nic.step]
    split_ifs <;> rfl
  refine live.quiet (balanced_release live.balanced) ?_ ?_ <;> rw [silent] <;> rfl

/-- What the device does by itself changes nothing for the interface. -/
theorem Kept.transfers (kept : Kept link waiting backlog) (several : List Transfer) :
    Kept (link.transfers several) waiting backlog := by
  refine ⟨?_, kept.armed.transfers several, ?_, ?_, ?_⟩ <;>
    simp only [transfers_run, transfers_vacant]
  · exact kept.balanced
  · exact kept.pending
  · exact kept.spare
  · exact kept.spared

/-- An edge that is forgotten changes nothing for the interface either. -/
theorem Kept.forget (kept : Kept link waiting backlog) :
    Kept { link with edge := false } waiting backlog :=
  ⟨kept.balanced, kept.armed, kept.pending, kept.spare, kept.spared⟩

theorem Kept.receive (kept : Kept link waiting backlog) (meanwhile : Meanwhile) :
    ∃ waiting, Kept (link.receive meanwhile) waiting backlog := by
  have tested := kept.transfers (meanwhile .rxStatus)
  simp only [Link.receive]
  split_ifs
  swap
  · exact ⟨waiting, tested⟩
  have ready := (tested.transfers (meanwhile .recvAck)).forget.transfers (meanwhile .recv)
  simp only [XIntc_AckIntr]
  generalize Link.transfers { Link.transfers _ _ with edge := false } _ = link at ready ⊢
  obtain ⟨⟨nic, past⟩, rx, tx, edge⟩ := link
  simp only
  generalize XEmacLite_Recv rx = received
  obtain ⟨frame, rx⟩ := received
  obtain ⟨rest, balanced⟩ := balanced_receive ready.balanced frame
  obtain ⟨nothing, -⟩ := received_effects nic frame
  have spare := ready.spare
  refine ⟨rest, balanced, ?_, ?_, ?_, ?_⟩ <;>
    simp only [Link.react, Run.step, Nic.step, nothing, List.foldl_nil, lost_append] at spare ⊢
  · exact ready.armed
  · exact ready.pending
  · rcases received_lost ready.balanced frame with same | ⟨more, room⟩ <;> omega
  · intro waits vacant
    have spared := ready.spared waits vacant
    have some_waits := List.length_pos_iff.mpr waits
    simp only at spared
    rcases received_lost ready.balanced frame with same | ⟨more, room⟩ <;> omega

/-- The edges that are forgotten behind a completion are not missed: a frame that waits is sent
next, and without one there is a vacant buffer for the next output. -/
theorem Kept.send (kept : Kept link waiting backlog) (meanwhile : Meanwhile) :
    Live (link.send meanwhile) waiting
      (if (link.statuses meanwhile).1 then backlog.tail else backlog) := by
  obtain ⟨armed, vacated, quiet⟩ := kept.armed.statuses meanwhile
  have run := statuses_run link meanwhile
  simp only [Link.send]
  generalize link.statuses meanwhile = statuses at armed vacated quiet run ⊢
  obtain ⟨TxCompleteIntr, device⟩ := statuses
  cases TxCompleteIntr with
  | false =>
      obtain ⟨same, coming⟩ := quiet rfl
      simp only at same run coming armed
      refine ⟨⟨run ▸ kept.balanced, armed, same ▸ kept.pending, run ▸ kept.spare, ?_⟩, ?_⟩
      · simp only [Bool.false_eq_true, if_false, run, same]
        exact kept.spared
      · rintro (waits | full)
        · exact coming (same ▸ kept.pending waits)
        · exact coming (Nat.lt_of_le_of_lt full.le (by decide))
  | true =>
      have positive := vacated rfl
      rw [← transfers_vacant device (meanwhile .sendAck)] at positive
      replace armed := armed.transfers (meanwhile .sendAck)
      replace run := (transfers_run device (meanwhile .sendAck)).trans run
      simp only [if_true]
      generalize device.transfers (meanwhile .sendAck) = acknowledged at armed positive run ⊢
      have available : XEmacLite_TxBufferAvailable (XIntc_AckIntr acknowledged).tx = true :=
        armed.available_iff.mpr positive
      have balanced : Balanced (XIntc_AckIntr acknowledged).run waiting backlog :=
        run ▸ kept.balanced
      rw [available]
      cases backlog with
      | nil =>
          rw [Link.react_send_nil balanced.sends.length]
          refine ⟨⟨balanced, armed, by simp, run ▸ kept.spare, by simp⟩, ?_⟩
          exact fun full => absurd (full.resolve_left (by simp)) positive.ne'
      | cons frame backlog =>
          obtain ⟨next, sends, sent⟩ := Link.react_send_cons balanced
          obtain ⟨still, taken⟩ := armed.transmit frame
          have left : Balanced ⟨{ acknowledged.run.nic with
              send_q := next, free := acknowledged.run.nic.free + 1 },
                acknowledged.run.effects ++ [.transmitted frame]⟩ waiting backlog :=
            balanced_sent true balanced sends
          have same : lost (acknowledged.run.effects ++ [.transmitted frame]) =
              lost link.run.effects := by
            rw [run]
            simp [lost, leaks, races]
          have behind := left.behind
          have pool := left.pool
          have bound := acknowledged.tx.vacant_le
          rw [sent]
          refine ⟨⟨left, still, ?_, ?_, ?_⟩, ?_⟩
          · intro _
            exact taken.trans_lt (by omega)
          · simpa only [XIntc_AckIntr, same] using kept.spare
          · intro waits _
            have some_waits := List.length_pos_iff.mpr waits
            simp only [List.tail_cons] at some_waits
            simp only [XIntc_AckIntr, lost] at behind pool ⊢
            omega
          · exact fun _ => .inr (exists_busy_transmit available frame)

theorem Live.transfer (live : Live link waiting backlog) (transfer : Transfer) :
    Live (link.transfer transfer) waiting backlog := by
  refine ⟨live.toKept.transfers [transfer], ?_⟩
  rw [show (link.transfer transfer).tx.vacant = link.tx.vacant from
    transfers_vacant link [transfer]]
  exact fun needed => (live.coming needed).transfer transfer

theorem Live.handled (live : Live link waiting backlog) (meanwhile : Meanwhile) :
    ∃ waiting backlog,
      Live (XEmacLite_InterruptHandler { link with edge := false } meanwhile) waiting backlog := by
  obtain ⟨waiting, received⟩ := live.toKept.forget.receive meanwhile
  exact ⟨waiting, _, received.send meanwhile⟩

theorem Live.step (live : Live link waiting backlog) (event : Link.Event) :
    ∃ waiting backlog, Live (link.step event) waiting backlog := by
  cases event with
  | poll =>
      obtain ⟨waiting, live⟩ := live.poll
      exact ⟨waiting, backlog, live⟩
  | output p => exact ⟨waiting, live.output p⟩
  | release => exact ⟨waiting, backlog, live.release⟩
  | transfer transfer => exact ⟨waiting, backlog, live.transfer transfer⟩
  | interrupt meanwhile =>
      rw [Link.step]
      split_ifs
      · exact live.handled meanwhile
      · exact ⟨waiting, backlog, live⟩

theorem Live.steps (live : Live link waiting backlog) (events : List Link.Event) :
    ∃ waiting backlog, Live (events.foldl Link.step link) waiting backlog := by
  induction events generalizing link waiting backlog with
  | nil => exact ⟨waiting, backlog, live⟩
  | cons event events inductionHypothesis =>
      obtain ⟨waiting, backlog, live⟩ := live.step event
      exact inductionHypothesis live

/-- Whenever frames wait in the send queue, a transmit buffer is in use, and the interrupt that
sends the next of them is latched or will be, at the end of a frame that the device is sending. -/
theorem backlog_pending (events : List Link.Event) :
    (Link.after events).run.nic.send_q.len = 0 ∨
      (∃ buffer, ((Link.after events).tx.tx buffer).active = true) ∧
        ((Link.after events).edge = true ∨
          ∃ buffer, ((Link.after events).tx.tx buffer).busy = true) := by
  obtain ⟨waiting, backlog, live⟩ := live_linked.steps events
  cases backlog with
  | nil => exact .inl live.balanced.sends.length
  | cons frame backlog =>
      exact .inr ⟨Transmitter.exists_active (live.pending (List.cons_ne_nil _ _)),
        live.coming (.inl (List.cons_ne_nil _ _))⟩

/-- The pool never runs dry for good: a buffer is left that is neither leaked nor behind a race. -/
theorem buffer_left (events : List Link.Event) :
    leaks (Link.after events).run.effects + races (Link.after events).run.effects <
      PBUF_POOL_SIZE := by
  obtain ⟨waiting, backlog, live⟩ := live_linked.steps events
  exact live.spare

end Liveness

end SeqDetect.Nic
