import SeqDetect.Server.Tcp

/-!
# The receive callbacks

Port 7 prints every byte of a delivery, port 8 packs a delivery into words.  Both take a
missing buffer as the end of the stream.
-/

namespace SeqDetect.Server

open Delta (Byte)

/-- An octet is promoted before it is shifted. -/
def promoted (octet : Byte) : BitVec 32 := octet.setWidth 32

def EXCESS : BitVec 32 := 0xFF

section Callbacks

variable (tcp_send_fin : Pcb → Err) (tpcb : Pcb)

/-- Both callbacks do this when `p` is `NULL`. -/
def endOfStream : Outcome :=
  let closed := tcp_close tcp_send_fin tpcb
  ⟨tcp_recv closed.pcb none, closed.effects ++ [.tcp_recv none], .ERR_OK⟩

/-- The word that starts at index `i`. -/
def packetSeq (packet : ℕ → Byte) (len i : ℕ) : BitVec 32 :=
  if i + 4 > len then
    let num_Excess := 4 - len % 4
    if num_Excess = 1 then
      promoted (packet i) <<< 24 ||| promoted (packet (i + 1)) <<< 16 |||
        promoted (packet (i + 2)) <<< 8 ||| EXCESS
    else if num_Excess = 2 then
      promoted (packet i) <<< 24 ||| promoted (packet (i + 1)) <<< 16 ||| EXCESS <<< 8 ||| EXCESS
    else
      promoted (packet i) <<< 24 ||| EXCESS <<< 16 ||| EXCESS <<< 8 ||| EXCESS
  else
    promoted (packet i) <<< 24 ||| promoted (packet (i + 1)) <<< 16 |||
      promoted (packet (i + 2)) <<< 8 ||| promoted (packet (i + 3))

/-- The indices that are read for it. -/
def packetReads (len i : ℕ) : List ℕ :=
  if i + 4 > len then
    let num_Excess := 4 - len % 4
    if num_Excess = 1 then [i, i + 1, i + 2]
    else if num_Excess = 2 then [i, i + 1]
    else [i]
  else [i, i + 1, i + 2, i + 3]

/-- `for (uint i = 0; i < len; i += 4)` -/
def seqLoop (packet : ℕ → Byte) (len : ℕ) : List Effect :=
  ((List.range ((len + 3) / 4)).map (4 * ·)).flatMap fun i =>
    (packetReads len i).map .read ++ [.xil_printf "%08x\n" (packetSeq packet len i)]

/-- The local `len` has eight bits. -/
def seq_recv_callback (p : Option Chain) : Outcome :=
  match p with
  | none => endOfStream tcp_send_fin tpcb
  | some p =>
      let len := p.tot_len % 2 ^ 8
      ⟨tcp_recved tpcb p.tot_len,
        .tcp_recved p.tot_len :: seqLoop p.head.payload len ++ [.pbuf_free], .ERR_OK⟩

/-- `for (uint i = 0; i < len; i++)`; the octet behind the data is overwritten first. -/
def dataLoop (packet : ℕ → Byte) (len : ℕ) : List Effect :=
  (List.range len).flatMap fun i =>
    [.write len 0xFF, .read i,
      .xil_printf "%x\n" (promoted (Function.update packet len 0xFF i))]

/-- The memory that the loop leaves behind. -/
def overwritten (packet : ℕ → Byte) (len : ℕ) : ℕ → Byte :=
  if 0 < len then Function.update packet len 0xFF else packet

def data_recv_callback (p : Option Chain) : Outcome :=
  match p with
  | none => endOfStream tcp_send_fin tpcb
  | some p =>
      let len := p.tot_len
      ⟨tcp_recved tpcb p.head.len,
        .tcp_recved p.head.len :: dataLoop p.head.payload len ++
          [.read len, .xil_printf "%08x\n" (promoted (overwritten p.head.payload len len)),
            .pbuf_free], .ERR_OK⟩

/-- The two callbacks by the server they belong to. -/
def recv_callback (port : Port) (p : Option Chain) : Outcome :=
  match port with
  | .data => data_recv_callback tcp_send_fin tpcb p
  | .seq => seq_recv_callback tcp_send_fin tpcb p

theorem recv_callback_none (port : Port) :
    recv_callback tcp_send_fin tpcb port none = endOfStream tcp_send_fin tpcb := by
  cases port <;> rfl

end Callbacks

/-- `data_accept_callback` and `seq_accept_callback`; the number of the connection that they
keep is read by nothing. -/
def accept_callback (port : Port) (newpcb : Pcb) : Pcb :=
  tcp_recv newpcb (some (.recv_callback port))

/-- A connection whose callbacks are those of its server. -/
structure Accepted (port : Port) (pcb : Pcb) : Prop where
  recv : pcb.recv = some (.recv_callback port)
  sent : pcb.sent = false
  poll : pcb.poll = false

/-- A connection of its own block, just established. -/
def connection (port : Port) : Pcb :=
  accept_callback port { freshPcb 64 0 with state := .ESTABLISHED }

theorem accepted_accept_callback (port : Port) {newpcb : Pcb} (sent : newpcb.sent = false)
    (poll : newpcb.poll = false) : Accepted port (accept_callback port newpcb) :=
  ⟨rfl, sent, poll⟩

theorem accepted_connection (port : Port) : Accepted port (connection port) :=
  accepted_accept_callback port rfl rfl

/-- The words that are printed. -/
def printed (effects : List Effect) : List (BitVec 32) :=
  effects.filterMap fun
    | .xil_printf _ value => some value
    | _ => none

/-- The amounts that are given back to the receive window. -/
def recved (effects : List Effect) : List ℕ :=
  effects.filterMap fun
    | .tcp_recved len => some len
    | _ => none

end SeqDetect.Server
