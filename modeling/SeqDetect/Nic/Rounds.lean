import SeqDetect.Nic.Live

/-!
# Rounds

When the device has sent both transmit buffers and their interrupt is handled, the next frame of
the backlog leaves.  So frames leave in the order in which they have been accepted.
-/

namespace SeqDetect.Nic

section Handler

variable {link : Link}

/-- The device does nothing while the handler runs. -/
def undisturbed : Meanwhile := fun _ => []

/-- The receive buffers that hold a frame. -/
def Receiver.filled (device : Receiver) : ℕ :=
  (device.rx false).done.toNat + (device.rx true).done.toNat

theorem filled_recv (device : Receiver) : (XEmacLite_Recv device).2.filled = device.filled - 1 := by
  obtain ⟨rx, expected⟩ := device
  cases expected <;> cases ping : (rx false).done <;> cases pong : (rx true).done <;>
    simp [XEmacLite_Recv, Receiver.read, Receiver.filled, ping, pong]

theorem filled_pos_iff (device : Receiver) :
    0 < device.filled ↔ ((device.rx false).done || (device.rx true).done) = true := by
  cases ping : (device.rx false).done <;> cases pong : (device.rx true).done <;>
    simp [Receiver.filled, ping, pong]

theorem receive_undisturbed (link : Link) :
    link.receive undisturbed =
      if 0 < link.rx.filled then
        ({ link with rx := (XEmacLite_Recv link.rx).2, edge := false } : Link).react
          (.receiveInterrupt (XEmacLite_Recv link.rx).1)
      else link := by
  simp only [filled_pos_iff]
  rfl

/-- Without the device, the receive half is one call of the handler. -/
theorem receive_keeps (link : Link) :
    (link.receive undisturbed).tx = link.tx ∧
      (link.receive undisturbed).rx.filled = link.rx.filled - 1 ∧
      accepted (link.receive undisturbed).run.effects = accepted link.run.effects := by
  rw [receive_undisturbed]
  split_ifs with filled
  · obtain ⟨nothing, noneAccepted⟩ := received_effects link.run.nic (XEmacLite_Recv link.rx).1
    refine ⟨?_, filled_recv link.rx, ?_⟩
    · simp only [Link.react, Nic.step, nothing, List.foldl_nil]
    · simp only [Link.react, Run.step, Nic.step, accepted_append, noneAccepted, List.append_nil]
  · exact ⟨rfl, by omega, rfl⟩

theorem completed_acknowledge (device : Transmitter) {buffer other : Bool}
    (different : other ≠ buffer) :
    ((device.acknowledge buffer).tx other).completed = (device.tx other).completed := by
  rw [TxBuffer.completed, TxBuffer.completed, acknowledge_busy, acknowledge_active,
    beq_eq_false_iff_ne.mpr different]
  simp

theorem statuses_undisturbed (link : Link) :
    link.statuses undisturbed = ((link.tx.tx false).completed || (link.tx.tx true).completed,
      { link with tx := (link.tx.acknowledge false).acknowledge true }) := by
  rw [← completed_acknowledge link.tx (by decide : true ≠ false)]
  rfl

theorem sent_effects (nic : Interface) (available : Bool) :
    accepted (xemacif_send_handler nic available).2 = [] := by
  rw [xemacif_send_handler]
  split_ifs <;> rfl

theorem send_keeps (link : Link) :
    (link.send undisturbed).rx = link.rx ∧
      accepted (link.send undisturbed).run.effects = accepted link.run.effects := by
  simp only [Link.send, statuses_undisturbed]
  split_ifs
  · refine ⟨rfl, ?_⟩
    simp only [Link.react, Run.step, Nic.step, accepted_append, sent_effects, List.append_nil]
    rfl
  · exact ⟨rfl, rfl⟩

end Handler

section Rounds

variable {link : Link} {waiting backlog : List Frame}

/-- Both transmit buffers are sent, and their interrupt is handled. -/
def round : List Link.Event :=
  [.transfer (.complete false), .transfer (.complete true), .interrupt undisturbed]

def rounds (count : ℕ) : List Link.Event := (List.replicate count round).flatten

theorem rounds_succ (count : ℕ) : rounds (count + 1) = round ++ rounds count := rfl

/-- Both transmit buffers have been sent. -/
def Link.sent (link : Link) : Link := link.transfers [.complete false, .complete true]

theorem busy_sent (link : Link) (buffer : Bool) : (link.sent.tx.tx buffer).busy = false := by
  cases ping : (link.tx.tx false).busy <;> cases pong : (link.tx.tx true).busy <;>
    cases buffer <;> simp [Link.sent, Link.transfers, Link.transfer, ping, pong]

theorem completed_sent (link : Link) (buffer : Bool) :
    (link.sent.tx.tx buffer).completed = (link.tx.tx buffer).active := by
  rw [TxBuffer.completed, busy_sent, Link.sent, transfers_active]
  rfl

theorem sent_rx (link : Link) : link.sent.rx = link.rx := by
  simp only [Link.sent, Link.transfers, Link.transfer, List.foldl_cons, List.foldl_nil]
  split_ifs <;> rfl

/-- What is to come has come then. -/
theorem Link.Coming.sent_edge (coming : link.Coming) : link.sent.edge = true := by
  have still : link.sent.Coming := coming.transfers _
  exact still.resolve_right fun ⟨buffer, busy⟩ => by simp [busy_sent] at busy

theorem foldl_round (coming : link.Coming) :
    round.foldl Link.step link =
      XEmacLite_InterruptHandler { link.sent with edge := false } undisturbed :=
  if_pos coming.sent_edge

/-- Nothing happens in a round for which the device has nothing to do. -/
theorem foldl_round_of_not (silent : ¬link.Coming) : round.foldl Link.step link = link := by
  rw [Link.Coming, not_or, not_exists] at silent
  obtain ⟨edge, busy⟩ := silent
  simp [round, Link.step, Link.transfer, edge, busy]

theorem Live.sent (live : Live link waiting backlog) : Kept link.sent waiting backlog :=
  live.toKept.transfers _

/-- While frames wait, the device has a completion to report. -/
theorem Live.completes {frame : Frame} (live : Live link waiting (frame :: backlog)) :
    ((link.sent.tx.tx false).completed || (link.sent.tx.tx true).completed) = true := by
  rw [completed_sent, completed_sent]
  obtain ⟨buffer, active⟩ := Transmitter.exists_active (live.pending (List.cons_ne_nil _ _))
  cases buffer <;> simp [active]

/-- One round sends the first of the frames that wait. -/
theorem Live.after_round (live : Live link waiting backlog) :
    (∃ waiting, Live (round.foldl Link.step link) waiting backlog.tail) ∧
      accepted (round.foldl Link.step link).run.effects = accepted link.run.effects := by
  by_cases coming : link.Coming
  swap
  · rw [foldl_round_of_not coming]
    have nothing : backlog = [] := by
      by_contra waits
      exact coming (live.coming (.inl waits))
    subst nothing
    exact ⟨⟨waiting, live⟩, rfl⟩
  rw [foldl_round coming, XEmacLite_InterruptHandler]
  obtain ⟨sameTx, -, receiveKeeps⟩ := receive_keeps { link.sent with edge := false }
  obtain ⟨-, sendKeeps⟩ := send_keeps (Link.receive { link.sent with edge := false } undisturbed)
  obtain ⟨rest, received⟩ := live.sent.forget.receive undisturbed
  have final := received.send undisturbed
  refine ⟨⟨rest, ?_⟩, sendKeeps.trans (receiveKeeps.trans ?_)⟩
  · cases backlog with
    | nil => simpa using final
    | cons frame backlog =>
        rw [statuses_undisturbed, sameTx, if_pos live.completes] at final
        exact final
  · rw [Link.sent, transfers_run]

theorem filled_round (coming : link.Coming) :
    (round.foldl Link.step link).rx.filled = link.rx.filled - 1 := by
  obtain ⟨-, filled, -⟩ := receive_keeps { link.sent with edge := false }
  rw [foldl_round coming, XEmacLite_InterruptHandler, (send_keeps _).1, filled, sent_rx]

theorem Live.after_rounds (live : Live link waiting backlog) (count : ℕ) :
    (∃ waiting, Live ((rounds count).foldl Link.step link) waiting (backlog.drop count)) ∧
      accepted ((rounds count).foldl Link.step link).run.effects = accepted link.run.effects := by
  induction count generalizing link waiting backlog with
  | zero => exact ⟨⟨waiting, live⟩, rfl⟩
  | succ count inductionHypothesis =>
      obtain ⟨⟨rest, next⟩, same⟩ := live.after_round
      obtain ⟨⟨final, last⟩, still⟩ := inductionHypothesis next
      rw [rounds_succ, List.foldl_append]
      refine ⟨⟨final, ?_⟩, still.trans same⟩
      rwa [List.drop_tail] at last

/-- Frames leave in the order in which they have been accepted, each of them once, and every
round sends one more. -/
theorem transmitted_of_rounds (events : List Link.Event) (count : ℕ) :
    transmitted (Link.after (events ++ rounds count)).run.effects =
      (accepted (Link.after events).run.effects).take
        ((transmitted (Link.after events).run.effects).length + count) := by
  obtain ⟨waiting, backlog, live⟩ := live_linked.steps events
  replace live : Live (Link.after events) waiting backlog := live
  obtain ⟨⟨rest, last⟩, same⟩ := live.after_rounds count
  rw [← Link.after_append] at last same
  have departures := live.balanced.departures
  have split : transmitted _ ++ backlog.drop count =
      (transmitted (Link.after events).run.effects ++ backlog.take count) ++ backlog.drop count :=
    last.balanced.departures.symm.trans (by
      rw [same, departures, List.append_assoc, List.take_append_drop])
  rw [List.append_cancel_right split, departures, List.take_length_add_append]

end Rounds

end SeqDetect.Nic
