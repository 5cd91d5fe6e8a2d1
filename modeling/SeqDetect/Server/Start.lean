import Mathlib.Tactic
import SeqDetect.Memory.Pool
import SeqDetect.Server.Tcp

/-!
# Starting the servers

`start_dataSend` and `start_seqSend` take a control block, bind it to the port of the server
and exchange it for a listening one.  A control block that could not be bound, or not be
exchanged, is not given back.
-/

namespace SeqDetect.Server

open Memory

abbrev MEMP_NUM_TCP_PCB : ℕ := 32

abbrev MEMP_NUM_TCP_PCB_LISTEN : ℕ := 8

abbrev PcbRef := Fin MEMP_NUM_TCP_PCB

abbrev ListenRef := Fin MEMP_NUM_TCP_PCB_LISTEN

/-- What `accept` can point to. -/
inductive AcceptFn where
  | tcp_accept_null
  | accept_callback (port : Port)
  deriving DecidableEq, Repr

structure ListenPcb where
  local_port : ℕ
  prio : ℕ
  accept : AcceptFn
  deriving DecidableEq, Repr

def ERR_OK : ℤ := 0

def ERR_VAL : ℤ := -6

def ERR_USE : ℤ := -8

def TCP_PRIO_NORMAL : ℕ := 64

def TCP_PRIO_MAX : ℕ := 127

/-- The variables `data_port` and `seq_port`. -/
def Port.number : Port → ℕ
  | .data => 7
  | .seq => 8

/-- The pools and the lists of control blocks, and the flags of the servers. -/
structure Control where
  pcbs : Pool PcbRef Pcb
  listenPcbs : Pool ListenRef ListenPcb
  tcp_bound_pcbs : List PcbRef
  tcp_listen_pcbs : List ListenRef
  tcp_active_pcbs : List PcbRef
  tcp_tw_pcbs : List PcbRef
  tcp_ticks : BitVec 32
  /-- The flags `data_port_running` and `seq_port_running`. -/
  running : Port → BitVec 32

namespace Control

/-- The lists on which a control block of the large kind can be. -/
def listed (control : Control) : List PcbRef :=
  control.tcp_bound_pcbs ++ control.tcp_active_pcbs ++ control.tcp_tw_pcbs

/-- The stack keeps every block in one place: free, on one list, or in the hands of a
caller.  What it asserts about the states of the two lists of connections is included. -/
structure Consistent (control : Control) : Prop where
  free : control.pcbs.free.Nodup
  freeListen : control.listenPcbs.free.Nodup
  listed : control.listed.Nodup
  listening : control.tcp_listen_pcbs.Nodup
  taken : ∀ pcb ∈ control.listed, pcb ∉ control.pcbs.free
  takenListen : ∀ lpcb ∈ control.tcp_listen_pcbs, lpcb ∉ control.listenPcbs.free
  active : ∀ pcb ∈ control.tcp_active_pcbs,
    (control.pcbs.content pcb).state ∉ [TcpState.CLOSED, TcpState.LISTEN, TcpState.TIME_WAIT]
  timewait : ∀ pcb ∈ control.tcp_tw_pcbs, (control.pcbs.content pcb).state = .TIME_WAIT

def memp_free (control : Control) (pcb : PcbRef) (content : Pcb) : Control :=
  { control with
    pcbs := (control.pcbs.store pcb { content with allocated := false }).release pcb }

/-- The segments that the peer gets do not touch the lists.  No callback for errors is
registered anywhere. -/
def tcp_abort (control : Control) (pcb : PcbRef) : Control :=
  let content := control.pcbs.content pcb
  if content.state = .TIME_WAIT then
    { control with tcp_tw_pcbs := control.tcp_tw_pcbs.erase pcb }.memp_free pcb
      (tcp_pcb_remove .tcp_tw_pcbs content).1
  else
    { control with tcp_active_pcbs := control.tcp_active_pcbs.erase pcb }.memp_free pcb
      (tcp_pcb_remove .tcp_active_pcbs content).1

def inactivity (control : Control) (pcb : PcbRef) : BitVec 32 :=
  control.tcp_ticks - (control.pcbs.content pcb).tmr

/-- The loop of `tcp_kill_timewait` with its variables `inactivity` and `inactive`. -/
def oldest (control : Control) :
    List PcbRef → BitVec 32 → Option PcbRef → Option PcbRef
  | [], _, inactive => inactive
  | pcb :: pcbs, inactivity, inactive =>
      if control.inactivity pcb ≥ inactivity then
        control.oldest pcbs (control.inactivity pcb) (some pcb)
      else control.oldest pcbs inactivity inactive

def tcp_kill_timewait (control : Control) : Control :=
  match control.oldest control.tcp_tw_pcbs 0 none with
  | some inactive => control.tcp_abort inactive
  | none => control

/-- The loop of `tcp_kill_prio` with its variables `mprio`, `inactivity` and `inactive`. -/
def leastActive (control : Control) (prio : ℕ) :
    List PcbRef → ℕ → BitVec 32 → Option PcbRef → Option PcbRef
  | [], _, _, inactive => inactive
  | pcb :: pcbs, mprio, inactivity, inactive =>
      let content := control.pcbs.content pcb
      if content.prio ≤ prio ∧ content.prio ≤ mprio ∧ control.inactivity pcb ≥ inactivity then
        control.leastActive prio pcbs content.prio (control.inactivity pcb) (some pcb)
      else control.leastActive prio pcbs mprio inactivity inactive

def tcp_kill_prio (control : Control) (prio : ℕ) : Control :=
  match control.leastActive prio control.tcp_active_pcbs TCP_PRIO_MAX 0 none with
  | some inactive => control.tcp_abort inactive
  | none => control

/-- `memp_malloc` with the initialisation of the block that it returns. -/
def memp_malloc (control : Control) (prio : ℕ) : Option (PcbRef × Control) :=
  match control.pcbs.malloc with
  | none => none
  | some (pcb, pcbs) =>
      some (pcb, { control with pcbs := pcbs.store pcb (freshPcb prio control.tcp_ticks) })

def tcp_alloc (control : Control) (prio : ℕ) : Option PcbRef × Control :=
  match control.memp_malloc prio with
  | some (pcb, control) => (some pcb, control)
  | none =>
    let control := control.tcp_kill_timewait
    match control.memp_malloc prio with
    | some (pcb, control) => (some pcb, control)
    | none =>
      let control := control.tcp_kill_prio prio
      match control.memp_malloc prio with
      | some (pcb, control) => (some pcb, control)
      | none => (none, control)

def tcp_new (control : Control) : Option PcbRef × Control := control.tcp_alloc TCP_PRIO_NORMAL

/-- Some control block has the port. -/
def InUse (control : Control) (port : ℕ) : Prop :=
  (∃ lpcb ∈ control.tcp_listen_pcbs, (control.listenPcbs.content lpcb).local_port = port) ∨
    ∃ cpcb ∈ control.listed, (control.pcbs.content cpcb).local_port = port

instance (control : Control) (port : ℕ) : Decidable (control.InUse port) :=
  inferInstanceAs (Decidable (_ ∨ _))

/-- The address asked for is always `IP_ADDR_ANY`, which conflicts with every address, and
the port is never 0. -/
def tcp_bind (control : Control) (pcb : PcbRef) (port : ℕ) : ℤ × Control :=
  let content := control.pcbs.content pcb
  if content.state ≠ .CLOSED then (ERR_VAL, control)
  else if control.InUse port then (ERR_USE, control)
  else
    (ERR_OK,
      { control with
        pcbs := control.pcbs.store pcb { content with local_port := port }
        tcp_bound_pcbs := pcb :: control.tcp_bound_pcbs })

def tcp_listen (control : Control) (pcb : PcbRef) : Option ListenRef × Control :=
  let content := control.pcbs.content pcb
  if content.state ≠ .CLOSED then (none, control)
  else
    match control.listenPcbs.malloc with
    | none => (none, control)
    | some (lpcb, listenPcbs) =>
        let exchanged : Control :=
          { control with
            listenPcbs := listenPcbs.store lpcb
              ⟨content.local_port, content.prio, .tcp_accept_null⟩
            tcp_bound_pcbs :=
              if content.local_port ≠ 0 then control.tcp_bound_pcbs.erase pcb
              else control.tcp_bound_pcbs
            tcp_listen_pcbs := lpcb :: control.tcp_listen_pcbs }
        (some lpcb, exchanged.memp_free pcb content)

def tcp_accept (control : Control) (lpcb : ListenRef) (accept : AcceptFn) : Control :=
  { control with
    listenPcbs := control.listenPcbs.store lpcb
      { control.listenPcbs.content lpcb with accept := accept } }

end Control

/-- What a start leaves behind. -/
structure Started where
  control : Control
  code : ℤ
  printed : String

/-- The common text of the two functions.  The successful start is reported before or after
the callback is installed. -/
def startServer (port : Port) (control : Control) : Started :=
  match control.tcp_new with
  | (none, control) => ⟨control, -1, "Error creating PCB. Out of Memory\n\r"⟩
  | (some pcb, control) =>
    match control.tcp_bind pcb port.number with
    | (err, control) =>
      if err ≠ ERR_OK then
        ⟨control, -2,
          "Unable to bind to port " ++ toString port.number ++ ": err = " ++ toString err ++
            "\n\r"⟩
      else
        match control.tcp_listen pcb with
        | (none, control) => ⟨control, -3, "Out of memory while tcp_listen\n\r"⟩
        | (some lpcb, control) =>
            let accepting := control.tcp_accept lpcb (.accept_callback port)
            ⟨{ accepting with running := Function.update accepting.running port 1 }, 0,
              "TCP echo server started @ port " ++ toString port.number ++ "\n\r"⟩

def start_dataSend : Control → Started := startServer .data

def start_seqSend : Control → Started := startServer .seq

def Port.start : Port → Control → Started
  | .data => start_dataSend
  | .seq => start_seqSend

end SeqDetect.Server
