import SeqDetect.Server.Sequence

/-!
# The receive window

The stack takes a delivery from the receive window and the callback gives it back.  Port 8
gives back the length of the chain, port 7 only that of its first buffer.
-/

namespace SeqDetect.Server

section Stack

variable (tcp_send_fin : Pcb → Err) (pcb : Pcb)

def tcp_recv_null (p : Option Chain) : Outcome :=
  match p with
  | some p => ⟨tcp_recved pcb p.tot_len, [.tcp_recved p.tot_len, .pbuf_free], .ERR_OK⟩
  | none => tcp_close tcp_send_fin pcb

def TCP_EVENT_RECV (p : Chain) : Outcome :=
  match pcb.recv with
  | some (.recv_callback port) => recv_callback tcp_send_fin pcb port (some p)
  | _ => tcp_recv_null tcp_send_fin pcb (some p)

def TCP_EVENT_CLOSED : Outcome :=
  match pcb.recv with
  | some (.recv_callback port) => recv_callback tcp_send_fin pcb port none
  | some .tcp_recv_null => tcp_recv_null tcp_send_fin pcb none
  | none => ⟨pcb, [], .ERR_OK⟩

/-- A chain that fits into the window is taken from it and handed over. -/
def receive (p : Chain) : Option Outcome :=
  if p.tot_len ≤ pcb.rcv_wnd then
    some (TCP_EVENT_RECV tcp_send_fin { pcb with rcv_wnd := pcb.rcv_wnd - p.tot_len } p)
  else none

/-- The FIN of the peer takes one number of the sequence space, for which the stack makes up
itself. -/
def receiveFin : Option Outcome :=
  if 1 ≤ pcb.rcv_wnd then
    let received := { pcb with state := .CLOSE_WAIT, rcv_wnd := pcb.rcv_wnd - 1 }
    some (TCP_EVENT_CLOSED tcp_send_fin
      (if received.rcv_wnd ≠ TCP_WND then { received with rcv_wnd := received.rcv_wnd + 1 }
        else received))
  else none

/-- Successive deliveries on one connection. -/
def receiveAll (pcb : Pcb) : List Chain → Option (Pcb × List Effect)
  | [] => some (pcb, [])
  | p :: rest => do
      let outcome ← receive tcp_send_fin pcb p
      let (final, effects) ← receiveAll outcome.pcb rest
      some (final, outcome.effects ++ effects)

end Stack

/-- An established connection with `rcv_wnd` bytes of window. -/
structure Open (port : Port) (rcv_wnd : ℕ) (pcb : Pcb) : Prop extends Accepted port pcb where
  state : pcb.state = .ESTABLISHED
  refused_data : pcb.refused_data = none
  rcv_wnd : pcb.rcv_wnd = rcv_wnd

/-- What the callback of a port gives back to the window. -/
def returned : Port → Chain → ℕ
  | .data, p => p.head.len
  | .seq, p => p.tot_len

theorem returned_le (port : Port) (p : Chain) : returned port p ≤ p.tot_len := by
  cases port with
  | data => exact p.head_len_le
  | seq => exact le_rfl

section Run

variable {tcp_send_fin : Pcb → Err} {port : Port} {pcb : Pcb} {rcv_wnd : ℕ} {p : Chain}

theorem tcp_recved_rcv_wnd {len : ℕ} (room : pcb.rcv_wnd + len ≤ TCP_WND) :
    tcp_recved pcb len = { pcb with rcv_wnd := pcb.rcv_wnd + len } := by
  have small : (pcb.rcv_wnd + len) % 2 ^ 16 = pcb.rcv_wnd + len :=
    Nat.mod_eq_of_lt (lt_of_le_of_lt room (by decide))
  simp only [tcp_recved, small, gt_iff_lt]
  rw [if_neg (by omega)]

theorem recved_append (first second : List Effect) :
    recved (first ++ second) = recved first ++ recved second :=
  List.filterMap_append

theorem recved_seqLoop (packet : ℕ → Delta.Byte) (len : ℕ) :
    recved (seqLoop packet len) = [] := by
  rw [recved, List.filterMap_eq_nil_iff]
  intro effect inLoop
  simp only [seqLoop, List.mem_flatMap, List.mem_append, List.mem_map, List.mem_singleton]
    at inLoop
  obtain ⟨i, -, ⟨index, -, rfl⟩ | rfl⟩ := inLoop <;> rfl

theorem recved_dataLoop (packet : ℕ → Delta.Byte) (len : ℕ) :
    recved (dataLoop packet len) = [] := by
  rw [recved, List.filterMap_eq_nil_iff]
  intro effect inLoop
  simp only [dataLoop, List.mem_flatMap, List.mem_cons, List.not_mem_nil, or_false] at inLoop
  obtain ⟨i, -, rfl | rfl | rfl⟩ := inLoop <;> rfl

/-- A callback gives back what its port returns and changes nothing else. -/
theorem recv_callback_some (room : pcb.rcv_wnd + returned port p ≤ TCP_WND) :
    (recv_callback tcp_send_fin pcb port (some p)).pcb =
        { pcb with rcv_wnd := pcb.rcv_wnd + returned port p } ∧
      recved (recv_callback tcp_send_fin pcb port (some p)).effects = [returned port p] := by
  have kept := tcp_recved_rcv_wnd room
  cases port with
  | data =>
      refine ⟨kept, ?_⟩
      have effects : (recv_callback tcp_send_fin pcb .data (some p)).effects =
          [.tcp_recved p.head.len] ++ dataLoop p.head.payload p.tot_len ++
            [.read p.tot_len, .xil_printf "%08x\n"
              (promoted (overwritten p.head.payload p.tot_len p.tot_len)), .pbuf_free] := rfl
      rw [effects, recved_append, recved_append, recved_dataLoop]
      rfl
  | seq =>
      refine ⟨kept, ?_⟩
      have effects : (recv_callback tcp_send_fin pcb .seq (some p)).effects =
          [.tcp_recved p.tot_len] ++ seqLoop p.head.payload (p.tot_len % 2 ^ 8) ++
            [.pbuf_free] := rfl
      rw [effects, recved_append, recved_append, recved_seqLoop]
      rfl

theorem receive_spec (opened : Open port rcv_wnd pcb) (bound : rcv_wnd ≤ TCP_WND)
    {outcome : Outcome} (received : receive tcp_send_fin pcb p = some outcome) :
    p.tot_len ≤ rcv_wnd ∧ Open port (rcv_wnd - p.tot_len + returned port p) outcome.pcb ∧
      recved outcome.effects = [returned port p] := by
  rw [receive, opened.rcv_wnd] at received
  split at received
  · rename_i fits
    obtain rfl := Option.some.inj received
    have event : TCP_EVENT_RECV tcp_send_fin { pcb with rcv_wnd := rcv_wnd - p.tot_len } p =
        recv_callback tcp_send_fin { pcb with rcv_wnd := rcv_wnd - p.tot_len } port (some p) := by
      simp only [TCP_EVENT_RECV, opened.recv]
    have smaller := returned_le port p
    obtain ⟨changed, amounts⟩ := @recv_callback_some tcp_send_fin port
      { pcb with rcv_wnd := rcv_wnd - p.tot_len } p (by dsimp only; omega)
    rw [event]
    refine ⟨fits, ?_, amounts⟩
    rw [changed]
    exact ⟨⟨opened.recv, opened.sent, opened.poll⟩, opened.state, opened.refused_data, rfl⟩
  · exact absurd received (by simp)

/-- What a run of deliveries leaves of the window. -/
theorem receiveAll_spec {chains : List Chain} (opened : Open port rcv_wnd pcb)
    (bound : rcv_wnd ≤ TCP_WND) {final : Pcb} {effects : List Effect}
    (received : receiveAll tcp_send_fin pcb chains = some (final, effects)) :
    recved effects = chains.map (returned port) ∧ Open port final.rcv_wnd final ∧
      final.rcv_wnd + (chains.map Chain.tot_len).sum =
        rcv_wnd + (chains.map (returned port)).sum := by
  induction chains generalizing pcb rcv_wnd effects with
  | nil =>
      obtain ⟨rfl, rfl⟩ := Prod.mk.inj (Option.some.inj received)
      refine ⟨rfl, ?_, by simp [opened.rcv_wnd]⟩
      rw [opened.rcv_wnd]
      exact opened
  | cons p chains inductionHypothesis =>
      simp only [receiveAll, Option.bind_eq_bind, Option.bind_eq_some_iff] at received
      obtain ⟨outcome, first, ⟨last, others⟩, rest, same⟩ := received
      obtain ⟨rfl, rfl⟩ := Prod.mk.inj (Option.some.inj same)
      obtain ⟨fits, next, amount⟩ := receive_spec opened bound first
      have smaller := returned_le port p
      obtain ⟨amounts, still, total⟩ := inductionHypothesis next (by omega) rest
      refine ⟨?_, still, ?_⟩
      · rw [recved_append, amount, amounts]
        rfl
      · simp only [List.map_cons, List.sum_cons] at total ⊢
        omega

/-- Everything is given back exactly if each delivery is. -/
theorem sum_returned_eq_iff (chains : List Chain) :
    (chains.map (returned port)).sum = (chains.map Chain.tot_len).sum ↔
      ∀ p ∈ chains, returned port p = p.tot_len := by
  induction chains with
  | nil => simp
  | cons p chains inductionHypothesis =>
      have smaller := returned_le port p
      have others : (chains.map (returned port)).sum ≤ (chains.map Chain.tot_len).sum :=
        List.sum_le_sum fun q _ => returned_le port q
      rw [List.forall_mem_cons, ← inductionHypothesis]
      simp only [List.map_cons, List.sum_cons]
      omega

theorem closeWithFin_graceful (pcb : Pcb) (closing : TcpState) :
    .tcp_send_fin ∈ (closeWithFin tcp_send_fin pcb closing).effects ∧
      .tcp_rst ∉ (closeWithFin tcp_send_fin pcb closing).effects := by
  unfold closeWithFin
  split <;> simp

/-- With the whole window back, the callback closes with a FIN. -/
theorem endOfStream_graceful (state : pcb.state = .CLOSE_WAIT)
    (refused_data : pcb.refused_data = none) (rcv_wnd : pcb.rcv_wnd = TCP_WND) :
    .tcp_send_fin ∈ (endOfStream tcp_send_fin pcb).effects ∧
      .tcp_rst ∉ (endOfStream tcp_send_fin pcb).effects := by
  have closed : tcp_close tcp_send_fin pcb =
      closeWithFin tcp_send_fin { pcb with rxClosed := true } .LAST_ACK := by
    simp [tcp_close, tcp_close_shutdown, state, refused_data, rcv_wnd]
  rw [endOfStream, closed]
  simpa using closeWithFin_graceful { pcb with rxClosed := true } .LAST_ACK

theorem receiveFin_graceful (opened : Open port TCP_WND pcb) :
    ∃ outcome, receiveFin tcp_send_fin pcb = some outcome ∧
      .tcp_send_fin ∈ outcome.effects ∧ .tcp_rst ∉ outcome.effects := by
  have room : 1 ≤ pcb.rcv_wnd := by
    rw [opened.rcv_wnd]
    decide
  have taken : pcb.rcv_wnd - 1 ≠ TCP_WND := by
    rw [opened.rcv_wnd]
    decide
  have back : pcb.rcv_wnd - 1 + 1 = TCP_WND := by
    rw [Nat.sub_add_cancel room, opened.rcv_wnd]
  refine ⟨_, if_pos room, ?_⟩
  simp only [taken, ne_eq, not_false_eq_true, if_true, back, TCP_EVENT_CLOSED, opened.recv,
    recv_callback_none]
  exact endOfStream_graceful rfl opened.refused_data rfl

end Run

/-- Over a run of deliveries the window is conserved. -/
structure Conserved (tcp_send_fin : Pcb → Err) (pcb : Pcb) (chains : List Chain) : Prop where
  amounts : ∀ final effects, receiveAll tcp_send_fin pcb chains = some (final, effects) →
    (recved effects).sum = (chains.map Chain.tot_len).sum
  restored : ∀ front, front <+: chains → ∀ final effects,
    receiveAll tcp_send_fin pcb front = some (final, effects) → final.rcv_wnd = TCP_WND
  graceful : ∀ final effects, receiveAll tcp_send_fin pcb chains = some (final, effects) →
    ∃ outcome, receiveFin tcp_send_fin final = some outcome ∧
      .tcp_send_fin ∈ outcome.effects ∧ .tcp_rst ∉ outcome.effects

theorem conserved_iff (tcp_send_fin : Pcb → Err) {port : Port} {pcb : Pcb}
    (opened : Open port TCP_WND pcb) {chains : List Chain}
    (delivered : (receiveAll tcp_send_fin pcb chains).isSome) :
    Conserved tcp_send_fin pcb chains ↔
      (port = .data → ∀ p ∈ chains, p.head.len = p.tot_len) := by
  have returnedAll : (∀ p ∈ chains, returned port p = p.tot_len) ↔
      (port = .data → ∀ p ∈ chains, p.head.len = p.tot_len) := by
    cases port <;> simp [returned]
  rw [← returnedAll]
  constructor
  · intro conserved
    obtain ⟨⟨final, effects⟩, received⟩ := Option.isSome_iff_exists.mp delivered
    have total := conserved.amounts final effects received
    rw [(receiveAll_spec opened le_rfl received).1] at total
    exact (sum_returned_eq_iff chains).mp total
  · intro all
    have restored : ∀ front, front <+: chains → ∀ final effects,
        receiveAll tcp_send_fin pcb front = some (final, effects) →
          final.rcv_wnd = TCP_WND := by
      intro front isPrefix final effects received
      have total := (receiveAll_spec opened le_rfl received).2.2
      rw [(sum_returned_eq_iff front).mpr fun p inside => all p (isPrefix.subset inside)] at total
      omega
    refine ⟨?_, restored, ?_⟩
    · intro final effects received
      rw [(receiveAll_spec opened le_rfl received).1]
      exact (sum_returned_eq_iff chains).mpr all
    · intro final effects received
      have still := (receiveAll_spec opened le_rfl received).2.1
      rw [restored chains List.prefix_rfl final effects received] at still
      exact receiveFin_graceful still

theorem open_connection (port : Port) : Open port TCP_WND (connection port) :=
  ⟨accepted_connection port, rfl, rfl, rfl⟩

/-- Three deliveries to port 7, the last of them in two buffers. -/
theorem conserved_iff_padded :
    Conserved (fun _ => .ERR_OK) (connection .data)
        [paddedChain, .single [0x63, 0x64, 0x65] (by decide), splitChain] ↔
      (Port.data = .data → ∀ p ∈ [paddedChain, .single [0x63, 0x64, 0x65] (by decide), splitChain],
        p.head.len = p.tot_len) :=
  conserved_iff _ (open_connection .data) rfl

/-- One byte of a delivery in two buffers is never given back, and the FIN of the peer is
answered with a reset. -/
theorem split_delivery_leaks :
    ¬ Conserved (fun _ => .ERR_OK) (connection .data) [splitChain] ∧
      ∃ final effects outcome,
        receiveAll (fun _ => .ERR_OK) (connection .data) [splitChain] = some (final, effects) ∧
          final.rcv_wnd = 2047 ∧ receiveFin (fun _ => .ERR_OK) final = some outcome ∧
          .tcp_rst ∈ outcome.effects := by
  constructor
  · intro conserved
    exact absurd (conserved.amounts _ _ rfl) (by decide)
  · exact ⟨_, _, _, rfl, rfl, rfl, by decide⟩

end SeqDetect.Server
