import SeqDetect.Nic.Source

/-!
# The device driver

`XEmacLite_Recv`, `XEmacLite_Send` and `XEmacLite_TxBufferAvailable` on the ping and the pong
buffer of each direction.  The length of a received frame is taken from the frame itself.
-/

namespace SeqDetect.Nic

open Delta (Byte)

section Receive

def XEL_HEADER_SIZE : ℕ := 14

def XEL_MTU_SIZE : ℕ := 1500

def XEL_FCS_SIZE : ℕ := 4

def XEL_MAX_FRAME_SIZE : ℕ := XEL_HEADER_SIZE + XEL_MTU_SIZE + XEL_FCS_SIZE

def XEL_ARP_PACKET_SIZE : ℕ := 28

def XEL_HEADER_OFFSET : ℕ := 12

def XEL_HEADER_IP_LENGTH_OFFSET : ℕ := 16

/-- A buffer with the bit `XEL_RSR_RECV_DONE_MASK` of its status. -/
structure RxBuffer where
  done : Bool
  ram : ℕ → Byte

/-- The ping buffer is at `false`, the pong buffer at `true`. -/
structure Receiver where
  rx : Bool → RxBuffer
  NextRxBufferToUse : Bool

/-- Two bytes in network order. -/
def halfword (ram : ℕ → Byte) (offset : ℕ) : BitVec 16 := ram offset ++ ram (offset + 1)

def XEmacLite_GetReceiveDataLength (ram : ℕ → Byte) : BitVec 16 := halfword ram XEL_HEADER_OFFSET

/-- The variable `Length` of `XEmacLite_Recv`. -/
def receiveLength (ram : ℕ → Byte) : BitVec 16 :=
  let LengthType := XEmacLite_GetReceiveDataLength ram
  if XEL_MAX_FRAME_SIZE < LengthType.toNat then
    if LengthType.toNat = ETHTYPE_IP then
      halfword ram XEL_HEADER_IP_LENGTH_OFFSET + BitVec.ofNat 16 (XEL_HEADER_SIZE + XEL_FCS_SIZE)
    else if LengthType.toNat = ETHTYPE_ARP then
      BitVec.ofNat 16 (XEL_ARP_PACKET_SIZE + XEL_HEADER_SIZE + XEL_FCS_SIZE)
    else BitVec.ofNat 16 XEL_MAX_FRAME_SIZE
  else LengthType + BitVec.ofNat 16 (XEL_HEADER_SIZE + XEL_FCS_SIZE)

/-- Read a buffer and acknowledge it. -/
def Receiver.read (device : Receiver) (buffer : Bool) : Frame × Receiver :=
  let ram := (device.rx buffer).ram
  ((List.range (receiveLength ram).toNat).map ram,
    { device with rx := Function.update device.rx buffer ⟨false, ram⟩ })

/-- Out of sync, the expected buffer stays the same. -/
def XEmacLite_Recv (device : Receiver) : Frame × Receiver :=
  let expected := device.NextRxBufferToUse
  if (device.rx expected).done then
    { device with NextRxBufferToUse := !expected }.read expected
  else if (device.rx !expected).done then device.read !expected
  else ([], device)

def MEM_ALIGNMENT : ℕ := 64

def LWIP_MEM_ALIGN (addr : ℕ) : ℕ := (addr + (MEM_ALIGNMENT - 1)) / MEM_ALIGNMENT * MEM_ALIGNMENT

/-- A `struct pbuf` has 16 bytes. -/
def SIZEOF_STRUCT_PBUF : ℕ := LWIP_MEM_ALIGN 16

def PBUF_POOL_BUFSIZE_ALIGNED : ℕ := LWIP_MEM_ALIGN 1700

/-- The address of buffer `j` of the pool.  `base` is that of `memp_memory_PBUF_POOL_base`, an
array of bytes, which `memp_init` does not align. -/
def poolBuffer (base j : ℕ) : ℕ := base + j * (SIZEOF_STRUCT_PBUF + PBUF_POOL_BUFSIZE_ALIGNED)

/-- `p->payload` of a new buffer at the address `p`. -/
def payload (p : ℕ) : ℕ := LWIP_MEM_ALIGN (p + SIZEOF_STRUCT_PBUF)

/-- The room at the pointer that the handler gives to `XEmacLite_Recv`: the rest of the new
buffer `j`, or the array `xemac_tx_frame` if there is no buffer. -/
def room (base j : ℕ) (nic : Interface) : ℕ :=
  if nic.free = 0 then XEL_MAX_FRAME_SIZE
  else poolBuffer base (j + 1) - payload (poolBuffer base j)

/-- The buffer that `XEmacLite_Recv` reads. -/
def Receiver.chosen (device : Receiver) : Option Bool :=
  if (device.rx device.NextRxBufferToUse).done then some device.NextRxBufferToUse
  else if (device.rx !device.NextRxBufferToUse).done then some !device.NextRxBufferToUse
  else none

/-- The frame claims to be longer than the memory that it is read to: by its IP header, or,
without a free buffer, by its length field. -/
def Overlong (base j : ℕ) (nic : Interface) (ram : ℕ → Byte) : Prop :=
  let LengthType := (XEmacLite_GetReceiveDataLength ram).toNat
  let total := (halfword ram XEL_HEADER_IP_LENGTH_OFFSET).toNat + XEL_HEADER_SIZE + XEL_FCS_SIZE
  LengthType = ETHTYPE_IP ∧ room base j nic < total ∧ total < 2 ^ 16 ∨
    nic.free = 0 ∧ XEL_MTU_SIZE < LengthType ∧ LengthType ≤ XEL_MAX_FRAME_SIZE

theorem length_recv (device : Receiver) :
    (XEmacLite_Recv device).1.length =
      (device.chosen.map fun buffer => (receiveLength (device.rx buffer).ram).toNat).getD 0 := by
  simp only [XEmacLite_Recv, Receiver.chosen]
  split_ifs <;> simp [Receiver.read]

/-- A base that is not aligned costs every buffer the bytes up to the next multiple of the
alignment. -/
theorem room_cases (base j : ℕ) (nic : Interface) :
    nic.free = 0 ∧ room base j nic = 1518 ∨
      nic.free ≠ 0 ∧ room base j nic = 1728 - (64 - base % 64) % 64 := by
  by_cases empty : nic.free = 0
  · exact .inl ⟨empty, if_pos empty⟩
  · refine .inr ⟨empty, ?_⟩
    simp only [room, empty, if_false, payload, poolBuffer, LWIP_MEM_ALIGN, MEM_ALIGNMENT,
      SIZEOF_STRUCT_PBUF, PBUF_POOL_BUFSIZE_ALIGNED]
    omega

/-- 24 bytes behind a multiple of 64, where the committed build has the pool. -/
example : room 0x8003cf98 0 started = 1688 := by decide

/-- The length of a frame, with the wrap-around of 16 bits. -/
theorem receiveLength_toNat (ram : ℕ → Byte) :
    (receiveLength ram).toNat =
      if 1518 < (XEmacLite_GetReceiveDataLength ram).toNat then
        if (XEmacLite_GetReceiveDataLength ram).toNat = ETHTYPE_IP then
          ((halfword ram XEL_HEADER_IP_LENGTH_OFFSET).toNat + 18) % 2 ^ 16
        else if (XEmacLite_GetReceiveDataLength ram).toNat = ETHTYPE_ARP then 46
        else 1518
      else (XEmacLite_GetReceiveDataLength ram).toNat + 18 := by
  have maximum : XEL_MAX_FRAME_SIZE = 1518 := rfl
  simp only [receiveLength, maximum]
  split_ifs with typed
  · rw [BitVec.toNat_add]
    rfl
  · rfl
  · rfl
  · rw [BitVec.toNat_add]
    change (_ + 18) % 2 ^ 16 = _
    omega

/-- A frame is read beyond the end of its memory exactly if it is overlong. -/
theorem overruns_iff (base j : ℕ) (nic : Interface) (device : Receiver) :
    room base j nic < (XEmacLite_Recv device).1.length ↔
      ∃ buffer, device.chosen = some buffer ∧ Overlong base j nic (device.rx buffer).ram := by
  rw [length_recv]
  cases device.chosen with
  | none => simp
  | some buffer =>
      have bound := (halfword (device.rx buffer).ram XEL_HEADER_IP_LENGTH_OFFSET).isLt
      simp only [Option.map_some, Option.getD_some, Option.some.injEq, exists_eq_left', Overlong,
        receiveLength_toNat, XEL_HEADER_SIZE, XEL_FCS_SIZE, XEL_MTU_SIZE, XEL_MAX_FRAME_SIZE]
      generalize (XEmacLite_GetReceiveDataLength (device.rx buffer).ram).toNat = LengthType
      generalize (halfword (device.rx buffer).ram XEL_HEADER_IP_LENGTH_OFFSET).toNat = total
        at bound
      have size := room_cases base j nic
      have ip : ETHTYPE_IP = 2048 := rfl
      have arp : ETHTYPE_ARP = 2054 := rfl
      split_ifs <;> omega

end Receive

section Transmit

/-- The bits `XEL_TSR_XMIT_BUSY_MASK` and `XEL_TSR_XMIT_ACTIVE_MASK`, and the frame to send. -/
structure TxBuffer where
  busy : Bool
  active : Bool
  frame : Frame

structure Transmitter where
  tx : Bool → TxBuffer
  NextTxBufferToUse : Bool
  /-- The bit `XEL_TSR_XMIT_IE_MASK` of the ping buffer. -/
  interrupts : Bool

def XEL_MAX_TX_FRAME_SIZE : ℕ := XEL_HEADER_SIZE + XEL_MTU_SIZE

def TxBuffer.free (buffer : TxBuffer) : Bool := !(buffer.busy || buffer.active)

def Transmitter.write (device : Transmitter) (buffer : Bool) (frame : Frame) : Transmitter :=
  { device with
    tx := Function.update device.tx buffer
      ⟨true, (device.tx buffer).active || device.interrupts, frame.take XEL_MAX_TX_FRAME_SIZE⟩ }

/-- `none` is `XST_FAILURE`. -/
def XEmacLite_Send (device : Transmitter) (frame : Frame) : Option Transmitter :=
  let expected := device.NextTxBufferToUse
  if (device.tx expected).free then
    some ({ device with NextTxBufferToUse := !expected }.write expected frame)
  else if (device.tx !expected).free then some (device.write (!expected) frame)
  else none

def XEmacLite_TxBufferAvailable (device : Transmitter) : Bool :=
  (device.tx false).free || (device.tx true).free

/-- What `low_level_output` and `xemacif_send_handler` rely on: a frame that is sent to an
available device is not dropped. -/
theorem send_isSome (device : Transmitter) (frame : Frame) :
    (XEmacLite_Send device frame).isSome = XEmacLite_TxBufferAvailable device := by
  obtain ⟨tx, expected, interrupts⟩ := device
  cases expected <;> cases ping : (tx false).free <;> cases pong : (tx true).free <;>
    simp [XEmacLite_Send, XEmacLite_TxBufferAvailable, ping, pong]

end Transmit

end SeqDetect.Nic
