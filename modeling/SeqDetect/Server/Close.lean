import SeqDetect.Server.Receive

/-!
# The end of a stream

After `tcp_close` both callbacks unregister themselves.  If the close succeeded, the block
is no longer theirs to write to; if it failed, nobody is left to try again.
-/

namespace SeqDetect.Server

/-- Using a control block. -/
def Effect.touches : Effect → Bool
  | .tcp_recved _ | .tcp_recv _ => true
  | _ => false

/-- What a callback has to do about the outcome of `tcp_close`. -/
structure EndsRight (tcp_send_fin : Pcb → Err) (tpcb : Pcb) (outcome : Outcome) : Prop where
  /-- After a successful close the block is not used again. -/
  released : (tcp_close tcp_send_fin tpcb).err = .ERR_OK →
    ∃ rest, outcome.effects = (tcp_close tcp_send_fin tpcb).effects ++ rest ∧
      ∀ effect ∈ rest, effect.touches = false
  /-- After a failed one some callback is left to retry, or the block is aborted. -/
  retried : (tcp_close tcp_send_fin tpcb).err ≠ .ERR_OK →
    (outcome.pcb.recv.isSome ∨ outcome.pcb.sent = true ∨ outcome.pcb.poll = true) ∨
      (outcome.pcb.allocated = false ∧ outcome.err = .ERR_ABRT)

section Close

variable (tcp_send_fin : Pcb → Err) (pcb : Pcb)

theorem tcp_pcb_purge_registered :
    (tcp_pcb_purge pcb).1.sent = pcb.sent ∧ (tcp_pcb_purge pcb).1.poll = pcb.poll := by
  unfold tcp_pcb_purge
  split <;> exact ⟨rfl, rfl⟩

theorem closeWithFin_registered (closing : TcpState) :
    (closeWithFin tcp_send_fin pcb closing).pcb.sent = pcb.sent ∧
      (closeWithFin tcp_send_fin pcb closing).pcb.poll = pcb.poll := by
  unfold closeWithFin
  split <;> exact ⟨rfl, rfl⟩

/-- Closing registers no callback. -/
theorem tcp_close_shutdown_registered (rst_on_unacked_data : Bool) :
    (tcp_close_shutdown tcp_send_fin pcb rst_on_unacked_data).pcb.sent = pcb.sent ∧
      (tcp_close_shutdown tcp_send_fin pcb rst_on_unacked_data).pcb.poll = pcb.poll := by
  have purged := tcp_pcb_purge_registered pcb
  unfold tcp_close_shutdown
  split
  · dsimp only
    split <;> exact purged
  · cases pcb.state with
    | CLOSED => exact ⟨rfl, rfl⟩
    | LISTEN => exact purged
    | SYN_SENT => exact purged
    | SYN_RCVD => exact closeWithFin_registered _ _ _
    | ESTABLISHED => exact closeWithFin_registered _ _ _
    | CLOSE_WAIT => exact closeWithFin_registered _ _ _
    | _ => exact ⟨rfl, rfl⟩

theorem tcp_close_registered :
    (tcp_close tcp_send_fin pcb).pcb.sent = pcb.sent ∧
      (tcp_close tcp_send_fin pcb).pcb.poll = pcb.poll := by
  unfold tcp_close
  split <;> exact tcp_close_shutdown_registered _ _ _

variable {pcb} {port : Port}

/-- The callback unregisters itself from a block that it has just closed. -/
theorem not_endsRight_of_closed (closed : (tcp_close tcp_send_fin pcb).err = .ERR_OK) :
    ¬ EndsRight tcp_send_fin pcb (endOfStream tcp_send_fin pcb) := by
  intro right
  obtain ⟨rest, effects, untouched⟩ := right.released closed
  have last : rest = [.tcp_recv none] := (List.append_cancel_left effects).symm
  have used := untouched (.tcp_recv none) (by simp [last])
  simp [Effect.touches] at used

theorem not_endsRight (accepted : Accepted port pcb) :
    ¬ EndsRight tcp_send_fin pcb (recv_callback tcp_send_fin pcb port none) := by
  rw [recv_callback_none]
  by_cases closed : (tcp_close tcp_send_fin pcb).err = .ERR_OK
  · exact not_endsRight_of_closed tcp_send_fin closed
  · intro right
    have registered := tcp_close_registered tcp_send_fin pcb
    rcases right.retried closed with (recv | sent | poll) | ⟨-, aborted⟩
    · simp [endOfStream, tcp_recv] at recv
    · have same : (tcp_close tcp_send_fin pcb).pcb.sent = true := sent
      rw [registered.1, accepted.sent] at same
      simp at same
    · have same : (tcp_close tcp_send_fin pcb).pcb.poll = true := poll
      rw [registered.2, accepted.poll] at same
      simp at same
    · simp [endOfStream] at aborted

end Close

theorem not_endsRight_seq :
    ¬ EndsRight (fun _ => .ERR_MEM) { connection .seq with state := .CLOSE_WAIT }
      (recv_callback (fun _ => .ERR_MEM) { connection .seq with state := .CLOSE_WAIT }
        .seq none) :=
  not_endsRight _ ⟨rfl, rfl, rfl⟩

/-- A connection with data left is reset and its block freed, and then written to. -/
theorem writes_freed_block :
    (tcp_close (fun _ => .ERR_OK)
        { connection .data with state := .CLOSE_WAIT, rcv_wnd := 2047 }).pcb.allocated = false ∧
      ¬ EndsRight (fun _ => .ERR_OK)
        { connection .data with state := .CLOSE_WAIT, rcv_wnd := 2047 }
        (recv_callback (fun _ => .ERR_OK)
          { connection .data with state := .CLOSE_WAIT, rcv_wnd := 2047 } .data none) :=
  ⟨rfl, not_endsRight_of_closed _ rfl⟩

end SeqDetect.Server
