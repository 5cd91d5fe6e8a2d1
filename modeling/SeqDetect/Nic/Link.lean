import SeqDetect.Nic.Interleaving
import SeqDetect.Nic.Device

/-!
# The interface with its device

The interrupt handler of the driver calls the handlers of the interface, and the frames that the
interface transmits go to the registers of the device.  The interrupt controller is configured
for edges: it latches one when the device stores a frame or has sent one, and forgets it when the
handler is entered and once more in either handler of the interface.  The handler is taken access
by access, for an edge that comes between two of them may be lost.
-/

namespace SeqDetect.Nic

open Delta (Byte)

section Source

/-- What the interrupt handler looks for in the status of a transmit buffer. -/
def TxBuffer.completed (buffer : TxBuffer) : Bool := !buffer.busy && buffer.active

/-- The handler clears the bit `XEL_TSR_XMIT_ACTIVE_MASK` of a completed buffer. -/
def Transmitter.acknowledge (device : Transmitter) (buffer : Bool) : Transmitter :=
  if (device.tx buffer).completed then
    { device with
      tx := Function.update device.tx buffer { device.tx buffer with active := false } }
  else device

/-- A frame that the device does not take is dropped. -/
def transmit_packet (device : Transmitter) (frame : Frame) : Transmitter :=
  (XEmacLite_Send device frame).getD device

structure Link where
  run : Run
  rx : Receiver
  tx : Transmitter
  /-- The bit of the device in the status register of the interrupt controller. -/
  edge : Bool

/-- The device is given every frame that the interface transmits. -/
def Link.react (link : Link) (event : Event) : Link :=
  { link with
    run := link.run.step event
    tx := (transmitted (Nic.step link.run.nic event).2).foldl transmit_packet link.tx }

/-- What the device does by itself. -/
inductive Transfer where
  /-- It stores a frame in an empty buffer. -/
  | arrive (buffer : Bool) (ram : ℕ → Byte)
  /-- It has sent the frame of a buffer. -/
  | complete (buffer : Bool)

/-- Both raise the interrupt, which `XEmacLite_EnableInterrupts` has enabled for all buffers. -/
def Link.transfer (link : Link) : Transfer → Link
  | .arrive buffer ram =>
      if (link.rx.rx buffer).done then link
      else
        { link with
          rx := { link.rx with rx := Function.update link.rx.rx buffer ⟨true, ram⟩ }
          edge := true }
  | .complete buffer =>
      if (link.tx.tx buffer).busy then
        { link with
          tx := { link.tx with
            tx := Function.update link.tx.tx buffer { link.tx.tx buffer with busy := false } }
          edge := true }
      else link

def Link.transfers (link : Link) (several : List Transfer) : Link :=
  several.foldl Link.transfer link

def XIntc_AckIntr (link : Link) : Link := { link with edge := false }

/-- The accesses of the interrupt handler to the device and to the interrupt controller. -/
inductive Access where
  | rxStatus
  | recvAck
  | recv
  | pingStatus
  | pongStatus
  | sendAck

/-- What the device does before each access. -/
abbrev Meanwhile := Access → List Transfer

/-- The first half of `XEmacLite_InterruptHandler`: one call of the handler, although both
buffers may hold a frame. -/
def Link.receive (link : Link) (meanwhile : Meanwhile) : Link :=
  let link := link.transfers (meanwhile .rxStatus)
  if (link.rx.rx false).done || (link.rx.rx true).done then
    let link := XIntc_AckIntr (link.transfers (meanwhile .recvAck))
    let link := link.transfers (meanwhile .recv)
    let (frame, rx) := XEmacLite_Recv link.rx
    { link with rx := rx }.react (.receiveInterrupt frame)
  else link

/-- The variable `TxCompleteIntr`, and the device with the completions acknowledged. -/
def Link.statuses (link : Link) (meanwhile : Meanwhile) : Bool × Link :=
  let ping := link.transfers (meanwhile .pingStatus)
  let pong := { ping with tx := ping.tx.acknowledge false }.transfers (meanwhile .pongStatus)
  ((ping.tx.tx false).completed || (pong.tx.tx true).completed,
    { pong with tx := pong.tx.acknowledge true })

/-- The second half: one call of the handler, although both buffers may be completed. -/
def Link.send (link : Link) (meanwhile : Meanwhile) : Link :=
  let (TxCompleteIntr, link) := link.statuses meanwhile
  if TxCompleteIntr then
    let link := XIntc_AckIntr (link.transfers (meanwhile .sendAck))
    link.react (.sendInterrupt (XEmacLite_TxBufferAvailable link.tx))
  else link

def XEmacLite_InterruptHandler (link : Link) (meanwhile : Meanwhile) : Link :=
  (link.receive meanwhile).send meanwhile

inductive Link.Event where
  | poll
  | output (p : Server.Chain)
  | release
  | transfer (transfer : Transfer)
  | interrupt (meanwhile : Meanwhile)

/-- The handler is entered for a latched edge only, which is acknowledged then. -/
def Link.step (link : Link) : Link.Event → Link
  | .poll => link.react .poll
  | .output p => link.react (.output p (XEmacLite_TxBufferAvailable link.tx))
  | .release => link.react .release
  | .transfer transfer => link.transfer transfer
  | .interrupt meanwhile =>
      if link.edge then XEmacLite_InterruptHandler { link with edge := false } meanwhile else link

/-- After `low_level_init`, which enables the interrupts. -/
def linked : Link where
  run := ⟨started, []⟩
  rx := ⟨fun _ => ⟨false, fun _ => 0⟩, false⟩
  tx := ⟨fun _ => ⟨false, false, []⟩, false, true⟩
  edge := false

def Link.after (events : List Link.Event) : Link := events.foldl Link.step linked

theorem Link.after_append (past more : List Link.Event) :
    Link.after (past ++ more) = more.foldl Link.step (Link.after past) := List.foldl_append

end Source

section Device

variable {link : Link}

@[simp] theorem transfers_nil (link : Link) : link.transfers [] = link := rfl

/-- An invariant of single transfers holds after several. -/
theorem Link.transfers_induction {motive : Link → Prop}
    (step : ∀ link transfer, motive link → motive (link.transfer transfer)) (start : motive link)
    (several : List Transfer) : motive (link.transfers several) :=
  List.foldlRecOn several Link.transfer start fun link kept transfer _ => step link transfer kept

theorem transfer_run (link : Link) (transfer : Transfer) :
    (link.transfer transfer).run = link.run := by
  cases transfer <;> simp only [Link.transfer] <;> split_ifs <;> rfl

@[simp] theorem transfers_run (link : Link) (several : List Transfer) :
    (link.transfers several).run = link.run :=
  Link.transfers_induction (fun other transfer same => (transfer_run other transfer).trans same) rfl
    several

/-- Whatever the device does during the handler, the interface makes some accesses. -/
theorem receive_run (link : Link) (meanwhile : Meanwhile) :
    ∃ accesses, (link.receive meanwhile).run = List.foldl Run.step link.run accesses := by
  simp only [Link.receive]
  split_ifs
  · exact ⟨[.receiveInterrupt _], by simp only [Link.react, transfers_run, XIntc_AckIntr]; rfl⟩
  · exact ⟨[], transfers_run _ _⟩

theorem statuses_run (link : Link) (meanwhile : Meanwhile) :
    (link.statuses meanwhile).2.run = link.run := by
  simp only [Link.statuses, transfers_run]

theorem send_run (link : Link) (meanwhile : Meanwhile) :
    ∃ accesses, (link.send meanwhile).run = List.foldl Run.step link.run accesses := by
  have same := statuses_run link meanwhile
  simp only [Link.send]
  split_ifs
  · exact ⟨[.sendInterrupt _], by simp only [Link.react, transfers_run, XIntc_AckIntr, same]; rfl⟩
  · exact ⟨[], same⟩

/-- What the interface does with its device, it does with some availability of the device. -/
theorem Link.step_run (link : Link) (event : Link.Event) :
    ∃ accesses, (link.step event).run = List.foldl Run.step link.run accesses := by
  cases event with
  | poll => exact ⟨[.poll], rfl⟩
  | output p => exact ⟨[.output p (XEmacLite_TxBufferAvailable link.tx)], rfl⟩
  | release => exact ⟨[.release], rfl⟩
  | transfer transfer => exact ⟨[], transfer_run link transfer⟩
  | interrupt meanwhile =>
      rw [Link.step]
      split_ifs
      · obtain ⟨received, first⟩ := receive_run { link with edge := false } meanwhile
        obtain ⟨sent, second⟩ := send_run (receive { link with edge := false } meanwhile) meanwhile
        refine ⟨received ++ sent, ?_⟩
        rw [XEmacLite_InterruptHandler, second, first, List.foldl_append]
      · exact ⟨[], rfl⟩

/-- What holds of every run of the interface, holds with its device. -/
theorem Link.after_run (events : List Link.Event) :
    ∃ accesses, (Link.after events).run = Nic.run accesses := by
  induction events using List.reverseRecOn with
  | nil => exact ⟨[], rfl⟩
  | append_singleton events event inductionHypothesis =>
      obtain ⟨accesses, before⟩ := inductionHypothesis
      obtain ⟨more, step⟩ := (Link.after events).step_run event
      refine ⟨accesses ++ more, ?_⟩
      rw [Link.after_append, run_append, ← before]
      exact step

end Device

section Registers

variable {device : Transmitter}

/-- The transmit buffers that are not in use. -/
def Transmitter.vacant (device : Transmitter) : ℕ :=
  (!(device.tx false).active).toNat + (!(device.tx true).active).toNat

theorem Transmitter.vacant_le (device : Transmitter) : device.vacant ≤ 2 := by
  have ping := Bool.toNat_le (!(device.tx false).active)
  have pong := Bool.toNat_le (!(device.tx true).active)
  rw [vacant]
  omega

theorem Transmitter.exists_active (used : device.vacant < 2) :
    ∃ buffer, (device.tx buffer).active = true := by
  rw [vacant] at used
  cases ping : (device.tx false).active with
  | true => exact ⟨false, ping⟩
  | false =>
      refine ⟨true, ?_⟩
      cases pong : (device.tx true).active with
      | true => rfl
      | false => simp [ping, pong] at used

/-- With interrupts enabled, a buffer that is being sent is in use until it is acknowledged. -/
structure Transmitter.Armed (device : Transmitter) : Prop where
  interrupts : device.interrupts = true
  active : ∀ buffer, (device.tx buffer).busy = true → (device.tx buffer).active = true

theorem Transmitter.Armed.free_eq (armed : device.Armed) (buffer : Bool) :
    (device.tx buffer).free = !(device.tx buffer).active := by
  have active := armed.active buffer
  cases busy : (device.tx buffer).busy <;> simp_all [TxBuffer.free]

theorem Transmitter.Armed.available_iff (armed : device.Armed) :
    XEmacLite_TxBufferAvailable device = true ↔ 0 < device.vacant := by
  rw [XEmacLite_TxBufferAvailable, armed.free_eq, armed.free_eq, vacant]
  cases (device.tx false).active <;> cases (device.tx true).active <;> simp

theorem Transmitter.Armed.unavailable (armed : device.Armed) (full : device.vacant = 0) :
    XEmacLite_TxBufferAvailable device = false := by
  rw [← Bool.not_eq_true, armed.available_iff]
  exact Nat.not_lt.mpr full.le

theorem Transmitter.Armed.write (armed : device.Armed) {buffer : Bool}
    (free : (device.tx buffer).active = false) (next : Bool) (frame : Frame) :
    ({ device with NextTxBufferToUse := next }.write buffer frame).Armed ∧
      ({ device with NextTxBufferToUse := next }.write buffer frame).vacant =
        device.vacant - 1 := by
  refine ⟨⟨armed.interrupts, ?_⟩, ?_⟩
  · intro other busy
    by_cases same : other = buffer
    · subst same
      simp [Transmitter.write, armed.interrupts]
    · simp only [Transmitter.write, Function.update_of_ne same] at busy ⊢
      exact armed.active other busy
  · cases buffer <;> simp [vacant, Transmitter.write, armed.interrupts, free]

/-- A frame takes a vacant buffer, if there is one. -/
theorem Transmitter.Armed.transmit (armed : device.Armed) (frame : Frame) :
    (transmit_packet device frame).Armed ∧
      (transmit_packet device frame).vacant = device.vacant - 1 := by
  simp only [transmit_packet, XEmacLite_Send, armed.free_eq]
  split_ifs with expected other
  · exact armed.write (by simpa using expected) _ frame
  · exact armed.write (by simpa using other) device.NextTxBufferToUse frame
  · refine ⟨armed, ?_⟩
    cases next : device.NextTxBufferToUse <;> simp_all [vacant]

theorem acknowledge_busy (device : Transmitter) (buffer other : Bool) :
    ((device.acknowledge buffer).tx other).busy = (device.tx other).busy := by
  rw [Transmitter.acknowledge]
  split_ifs
  · by_cases same : other = buffer
    · simp [same]
    · simp [same]
  · rfl

/-- Only a completed buffer becomes inactive. -/
theorem acknowledge_active (device : Transmitter) (buffer other : Bool) :
    ((device.acknowledge buffer).tx other).active =
      ((device.tx other).active && !(other == buffer && (device.tx buffer).completed)) := by
  rw [Transmitter.acknowledge]
  split_ifs with completed
  · by_cases same : other = buffer
    · simp [same, completed]
    · simp [same]
  · simp [completed]

theorem Transmitter.Armed.acknowledge (armed : device.Armed) (buffer : Bool) :
    (device.acknowledge buffer).Armed where
  interrupts := by
    rw [Transmitter.acknowledge]
    split_ifs
    · exact armed.interrupts
    · exact armed.interrupts
  active := by
    intro other busy
    rw [acknowledge_busy] at busy
    rw [acknowledge_active, armed.active other busy]
    by_cases same : other = buffer
    · subst same
      simp [TxBuffer.completed, busy]
    · simp [same]

/-- The transmit buffers whose frame the device has not sent yet. -/
def Transmitter.sending (device : Transmitter) : ℕ :=
  (device.tx false).busy.toNat + (device.tx true).busy.toNat

/-- A frame goes to a buffer that is not being sent. -/
theorem Transmitter.sending_transmit (device : Transmitter) (frame : Frame) :
    (transmit_packet device frame).sending =
      device.sending + (XEmacLite_TxBufferAvailable device).toNat := by
  obtain ⟨tx, expected, interrupts⟩ := device
  cases expected <;> cases ping : (tx false).busy <;> cases pong : (tx true).busy <;>
    cases first : (tx false).active <;> cases second : (tx true).active <;>
    simp [transmit_packet, XEmacLite_Send, XEmacLite_TxBufferAvailable, TxBuffer.free,
      Transmitter.write, sending, ping, pong, first, second]

end Registers

end SeqDetect.Nic
