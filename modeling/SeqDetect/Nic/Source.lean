import SeqDetect.Queue.Ring
import SeqDetect.Server.Tcp

/-!
# The network interface

`xpqueue.c` and the data path of `xemacliteif.c`.  The interrupt handlers run to completion, and
so does `low_level_output`, which disables interrupts; `low_level_input` takes a frame from the
receive queue with interrupts enabled, so that its `pq_dequeue` is cut into single accesses to
the shared queue.
-/

namespace SeqDetect.Nic

open Delta (Byte)

abbrev Frame := List Byte

section Queues

def PQ_QUEUE_SIZE : ℕ := 4096

def PBUF_POOL_SIZE : ℕ := 256

/-- `None` is a slot that has never been written. -/
structure pq_queue_t where
  data : ℕ → Option Frame
  head : ℕ
  tail : ℕ
  len : ℤ

def pq_create_queue : pq_queue_t := ⟨fun _ => none, 0, 0, 0⟩

/-- `none` stands for the return value `-1`. -/
def pq_enqueue (q : pq_queue_t) (p : Frame) : Option pq_queue_t :=
  if q.len = PQ_QUEUE_SIZE then none
  else some
    { q with
      data := Function.update q.data q.head (some p)
      head := (q.head + 1) % PQ_QUEUE_SIZE
      len := q.len + 1 }

def pq_dequeue (q : pq_queue_t) : Option Frame × pq_queue_t :=
  if q.len = 0 then (none, q)
  else (q.data q.tail, { q with tail := (q.tail + 1) % PQ_QUEUE_SIZE, len := q.len - 1 })

end Queues

section State

/-- How far the main line is in `low_level_input`: outside of it, behind the check of
`pq_qlength`, and behind each access of `pq_dequeue` up to the store of `q->len`. -/
inductive Control where
  | idle
  | sized
  | checked
  | read (ptail : ℕ)
  | advanced (ptail : ℕ)
  | loaded (ptail : ℕ) (len : ℤ)
  | stored (ptail : ℕ)
  deriving DecidableEq, Repr

structure Interface where
  recv_q : pq_queue_t
  send_q : pq_queue_t
  /-- Buffers left in the pool. -/
  free : ℕ
  /-- Received buffers that the stack has taken over and not yet freed. -/
  held : ℕ
  control : Control

/-- What happens to frames, and to buffers. -/
inductive Effect where
  | queued (frame : Frame)
  | delivered (frame : Frame)
  | accepted (frame : Frame)
  | transmitted (frame : Frame)
  /-- A buffer that nothing refers to any more, and that is not back in the pool. -/
  | leaked
  /-- An interrupt has counted a frame between the load and the store of `q->len--`. -/
  | raced
  deriving DecidableEq, Repr

/-- `low_level_init` with all buffers in the pool. -/
def started : Interface := ⟨pq_create_queue, pq_create_queue, PBUF_POOL_SIZE, 0, .idle⟩

end State

section Handlers

def Control.isLoaded : Control → Bool
  | .loaded _ _ => true
  | _ => false

/-- The frame is what `XEmacLite_Recv` stores, of length zero if it finds nothing to receive.
Without a buffer the frame is read and ignored; a buffer that is not queued goes back to the
pool. -/
def xemacif_recv_handler (nic : Interface) (frame : Frame) : Interface × List Effect :=
  if nic.free = 0 then (nic, [])
  else if frame.length = 0 then (nic, [])
  else
    match pq_enqueue nic.recv_q frame with
    | none => (nic, [])
    | some recv_q =>
        ({ nic with recv_q := recv_q, free := nic.free - 1 },
          .queued frame :: if nic.control.isLoaded then [.raced] else [])

/-- The copy of the chain is queued in one buffer. -/
def enqueueCopy (nic : Interface) (p : Server.Chain) : Interface × List Effect :=
  if nic.free = 0 then (nic, [])
  else
    match pq_enqueue nic.send_q p.bytes with
    | none => ({ nic with free := nic.free - 1 }, [.leaked])
    | some send_q =>
        ({ nic with send_q := send_q, free := nic.free - 1 }, [.accepted p.bytes])

/-- `available` is what `XEmacLite_TxBufferAvailable` finds.  A frame from the backlog is sent
before the current one is queued; its buffer is not freed. -/
def low_level_output (nic : Interface) (p : Server.Chain) (available : Bool) :
    Interface × List Effect :=
  if available then
    if nic.send_q.len ≠ 0 then
      let (backlog, send_q) := pq_dequeue nic.send_q
      let (queued, effects) := enqueueCopy { nic with send_q := send_q } p
      (queued, .transmitted (backlog.getD []) :: .leaked :: effects)
    else (nic, [.accepted p.bytes, .transmitted p.bytes])
  else enqueueCopy nic p

def xemacif_send_handler (nic : Interface) (available : Bool) : Interface × List Effect :=
  if nic.send_q.len ≠ 0 ∧ available then
    let (backlog, send_q) := pq_dequeue nic.send_q
    ({ nic with send_q := send_q, free := nic.free + 1 }, [.transmitted (backlog.getD [])])
  else (nic, [])

end Handlers

section Input

def ETHTYPE_IP : ℕ := 0x0800

def ETHTYPE_ARP : ℕ := 0x0806

/-- `htons(ethhdr->type)`. -/
def ethertype (frame : Frame) : ℕ :=
  (frame[12]?.getD 0).toNat * 256 + (frame[13]?.getD 0).toNat

/-- The rest of `xemacliteif_input`: the stack takes the frame over, or it is freed at once. -/
def deliver (nic : Interface) : Option Frame → Interface × List Effect
  | none => ({ nic with control := .idle }, [])
  | some frame =>
      if ethertype frame = ETHTYPE_IP ∨ ethertype frame = ETHTYPE_ARP then
        ({ nic with control := .idle, held := nic.held + 1 }, [.delivered frame])
      else ({ nic with control := .idle, free := nic.free + 1 }, [.delivered frame])

/-- One access of `xemacliteif_input` to the receive queue, as the C text has them; `q->len` is
not volatile, so that a compiler may load it once for all of them. -/
def poll (nic : Interface) : Interface × List Effect :=
  match nic.control with
  | .idle =>
      if nic.recv_q.len = 0 then (nic, []) else ({ nic with control := .sized }, [])
  | .sized =>
      if nic.recv_q.len = 0 then ({ nic with control := .idle }, [])
      else ({ nic with control := .checked }, [])
  | .checked => ({ nic with control := .read nic.recv_q.tail }, [])
  | .read ptail =>
      ({ nic with
        recv_q := { nic.recv_q with tail := (nic.recv_q.tail + 1) % PQ_QUEUE_SIZE }
        control := .advanced ptail }, [])
  | .advanced ptail => ({ nic with control := .loaded ptail nic.recv_q.len }, [])
  | .loaded ptail len =>
      ({ nic with recv_q := { nic.recv_q with len := len - 1 }, control := .stored ptail }, [])
  | .stored ptail => deliver nic (nic.recv_q.data ptail)

end Input

section Runs

inductive Event where
  /-- The main line makes the next access of `xemacliteif_input`. -/
  | poll
  /-- The main line, elsewhere in the loop, sends a frame. -/
  | output (p : Server.Chain) (available : Bool)
  /-- The main line, elsewhere in the loop, frees a received buffer. -/
  | release
  | receiveInterrupt (frame : Frame)
  | sendInterrupt (available : Bool)

/-- While the main line is in `low_level_input` it does nothing else. -/
def step (nic : Interface) : Event → Interface × List Effect
  | .poll => poll nic
  | .output p available =>
      if nic.control = .idle then low_level_output nic p available else (nic, [])
  | .release =>
      if nic.control = .idle ∧ 0 < nic.held then
        ({ nic with held := nic.held - 1, free := nic.free + 1 }, [])
      else (nic, [])
  | .receiveInterrupt frame => xemacif_recv_handler nic frame
  | .sendInterrupt available => xemacif_send_handler nic available

/-- A state with everything that has happened so far. -/
structure Run where
  nic : Interface
  effects : List Effect

def Run.step (run : Run) (event : Event) : Run where
  nic := (Nic.step run.nic event).1
  effects := run.effects ++ (Nic.step run.nic event).2

def run (events : List Event) : Run := events.foldl Run.step ⟨started, []⟩

theorem run_append (past more : List Event) :
    run (past ++ more) = more.foldl Run.step (run past) := List.foldl_append

end Runs

section Effects

/-- The frames that interrupts have put into the receive queue. -/
def queued (effects : List Effect) : List Frame :=
  effects.filterMap fun | .queued frame => some frame | _ => none

/-- The frames that the main line has taken from it. -/
def delivered (effects : List Effect) : List Frame :=
  effects.filterMap fun | .delivered frame => some frame | _ => none

/-- The frames for which `low_level_output` has returned `ERR_OK`. -/
def accepted (effects : List Effect) : List Frame :=
  effects.filterMap fun | .accepted frame => some frame | _ => none

/-- The frames that the device has been given. -/
def transmitted (effects : List Effect) : List Frame :=
  effects.filterMap fun | .transmitted frame => some frame | _ => none

def leaks (effects : List Effect) : ℕ := effects.count .leaked

def races (effects : List Effect) : ℕ := effects.count .raced

end Effects

end SeqDetect.Nic
