import SeqDetect.Delta.Logic

/-!
# The part of the stack under the receive callbacks

Protocol control blocks and buffer chains of lwIP, as far as the receive callbacks and
`tcp_close` read them, and what these functions do to the world around them.
-/

namespace SeqDetect.Server

open Delta (Byte)

/-- One buffer of a chain. -/
structure Pbuf where
  /-- The memory from the payload pointer on; only the first `len` bytes are the buffer's. -/
  payload : ℕ → Byte
  len : ℕ

/-- A delivered chain of buffers with its `tot_len`. -/
structure Chain where
  head : Pbuf
  next : List Pbuf
  tot_len : ℕ
  sum_len : tot_len = head.len + (next.map Pbuf.len).sum
  bounded : tot_len < 2 ^ 16

def Pbuf.bytes (p : Pbuf) : List Byte := (List.range p.len).map p.payload

/-- The data that the chain carries. -/
def Chain.bytes (p : Chain) : List Byte := p.head.bytes ++ p.next.flatMap Pbuf.bytes

/-- The values of `err_t` that the modelled functions tell apart. -/
inductive Err where
  | ERR_OK | ERR_MEM | ERR_ABRT
  deriving DecidableEq, Repr

inductive TcpState where
  | CLOSED | LISTEN | SYN_SENT | SYN_RCVD | ESTABLISHED | FIN_WAIT_1 | FIN_WAIT_2
  | CLOSE_WAIT | CLOSING | LAST_ACK | TIME_WAIT
  deriving DecidableEq, Repr

/-- The two servers. -/
inductive Port where
  | data | seq
  deriving DecidableEq, Repr

/-- What `recv` can point to. -/
inductive RecvFn where
  | tcp_recv_null
  | recv_callback (port : Port)
  deriving DecidableEq, Repr

/-- The lists of control blocks. -/
inductive PcbList where
  | tcp_bound_pcbs | tcp_listen_pcbs | tcp_active_pcbs | tcp_tw_pcbs
  deriving DecidableEq, Repr

structure Pcb where
  state : TcpState
  prio : ℕ
  local_port : ℕ
  tmr : BitVec 32
  rcv_wnd : ℕ
  refused_data : Option Chain
  /-- The flag `TF_RXCLOSED`. -/
  rxClosed : Bool
  /-- The flag `TF_ACK_DELAY`. -/
  ackDelay : Bool
  recv : Option RecvFn
  /-- Whether the callbacks `sent` and `poll` are registered. -/
  sent : Bool
  poll : Bool
  /-- `memp_free` has not been called for the block. -/
  allocated : Bool

/-- What a function does besides changing its control block. -/
inductive Effect where
  | tcp_recved (len : ℕ)
  | tcp_recv (recv : Option RecvFn)
  | read (index : ℕ)
  | write (index : ℕ) (value : Byte)
  | xil_printf (format : String) (value : BitVec 32)
  | pbuf_free
  | tcp_rst
  | tcp_send_fin
  | tcp_output
  | tcp_rmv (pcbs : PcbList)
  | tcp_reg (pcbs : PcbList)
  | memp_free
  deriving DecidableEq, Repr

structure Outcome where
  pcb : Pcb
  effects : List Effect
  err : Err

def TCP_WND : ℕ := 2048

/-- The block that `tcp_alloc` hands out. -/
def freshPcb (prio : ℕ) (tmr : BitVec 32) : Pcb where
  state := .CLOSED
  prio := prio
  local_port := 0
  tmr := tmr
  rcv_wnd := TCP_WND
  refused_data := none
  rxClosed := false
  ackDelay := false
  recv := some .tcp_recv_null
  sent := false
  poll := false
  allocated := true

/-- `rcv_wnd` has sixteen bits. -/
def tcp_recved (pcb : Pcb) (len : ℕ) : Pcb :=
  let rcv_wnd := (pcb.rcv_wnd + len) % 2 ^ 16
  { pcb with rcv_wnd := if rcv_wnd > TCP_WND then TCP_WND else rcv_wnd }

def tcp_recv (pcb : Pcb) (recv : Option RecvFn) : Pcb := { pcb with recv := recv }

def tcp_pcb_purge (pcb : Pcb) : Pcb × List Effect :=
  if pcb.state ≠ .CLOSED ∧ pcb.state ≠ .TIME_WAIT ∧ pcb.state ≠ .LISTEN ∧
      pcb.refused_data.isSome then
    ({ pcb with refused_data := none }, [.pbuf_free])
  else (pcb, [])

def tcp_pcb_remove (pcblist : PcbList) (pcb : Pcb) : Pcb × List Effect :=
  let (purged, freed) := tcp_pcb_purge pcb
  let acked :=
    if pcb.state ≠ .TIME_WAIT ∧ pcb.state ≠ .LISTEN ∧ pcb.ackDelay then [.tcp_output] else []
  ({ purged with state := .CLOSED }, .tcp_rmv pcblist :: freed ++ acked)

section Close

-- Whether a segment for the FIN can be queued depends on the memory of the stack.
variable (tcp_send_fin : Pcb → Err)

/-- The three states in which a FIN is sent. -/
def closeWithFin (pcb : Pcb) (closing : TcpState) : Outcome :=
  match tcp_send_fin pcb with
  | .ERR_OK => ⟨{ pcb with state := closing }, [.tcp_send_fin, .tcp_output], .ERR_OK⟩
  | err => ⟨pcb, [.tcp_send_fin], err⟩

def tcp_close_shutdown (pcb : Pcb) (rst_on_unacked_data : Bool) : Outcome :=
  if rst_on_unacked_data ∧ (pcb.state = .ESTABLISHED ∨ pcb.state = .CLOSE_WAIT) ∧
      (pcb.refused_data.isSome ∨ pcb.rcv_wnd ≠ TCP_WND) then
    let (purged, freed) := tcp_pcb_purge pcb
    if pcb.state = .ESTABLISHED then
      ⟨{ purged with state := .TIME_WAIT },
        .tcp_rst :: freed ++ [.tcp_rmv .tcp_active_pcbs, .tcp_reg .tcp_tw_pcbs], .ERR_OK⟩
    else
      ⟨{ purged with allocated := false },
        .tcp_rst :: freed ++ [.tcp_rmv .tcp_active_pcbs, .memp_free], .ERR_OK⟩
  else
    match pcb.state with
    | .CLOSED =>
        ⟨{ pcb with allocated := false },
          (if pcb.local_port ≠ 0 then [.tcp_rmv .tcp_bound_pcbs] else []) ++ [.memp_free],
          .ERR_OK⟩
    | .LISTEN =>
        let (removed, effects) := tcp_pcb_remove .tcp_listen_pcbs pcb
        ⟨{ removed with allocated := false }, effects ++ [.memp_free], .ERR_OK⟩
    | .SYN_SENT =>
        let (removed, effects) := tcp_pcb_remove .tcp_active_pcbs pcb
        ⟨{ removed with allocated := false }, effects ++ [.memp_free], .ERR_OK⟩
    | .SYN_RCVD => closeWithFin tcp_send_fin pcb .FIN_WAIT_1
    | .ESTABLISHED => closeWithFin tcp_send_fin pcb .FIN_WAIT_1
    | .CLOSE_WAIT => closeWithFin tcp_send_fin pcb .LAST_ACK
    | _ => ⟨pcb, [], .ERR_OK⟩

def tcp_close (pcb : Pcb) : Outcome :=
  tcp_close_shutdown tcp_send_fin
    (if pcb.state ≠ .LISTEN then { pcb with rxClosed := true } else pcb) true

end Close

end SeqDetect.Server
