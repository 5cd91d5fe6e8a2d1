import SeqDetect.Server.Words

/-!
# Sequences on port 8

A delivery of fewer than 256 bytes in one buffer gives the padded words of its bytes.  A
longer one is cut off by the eight bits of the local `len`, one that is spread over
several buffers is read beyond the first of them, and successive deliveries are packed
one by one.
-/

namespace SeqDetect.Server

open Delta (Byte)
open Pattern

theorem Pbuf.length_bytes (p : Pbuf) : p.bytes.length = p.len := by
  simp [Pbuf.bytes]

theorem Chain.length_bytes (p : Chain) : p.bytes.length = p.tot_len := by
  simp [Chain.bytes, Pbuf.length_bytes, List.length_flatMap, p.sum_len]

theorem Chain.head_len_le (p : Chain) : p.head.len ≤ p.tot_len := by
  rw [p.sum_len]
  exact Nat.le_add_right _ _

/-- If the first buffer holds everything, the others are empty. -/
theorem Chain.bytes_of_whole (p : Chain) (whole : p.head.len = p.tot_len) :
    p.bytes = (List.range p.tot_len).map p.head.payload := by
  have others : p.next.flatMap Pbuf.bytes = [] := by
    apply List.eq_nil_of_length_eq_zero
    have total := p.length_bytes
    rw [Chain.bytes, List.length_append, Pbuf.length_bytes, whole] at total
    omega
  rw [Chain.bytes, others, List.append_nil, Pbuf.bytes, whole]

section Callback

variable (tcp_send_fin : Pcb → Err) (tpcb : Pcb) (p : Chain)

theorem printed_seq : printed (seq_recv_callback tcp_send_fin tpcb (some p)).effects =
    words ((List.range (p.tot_len % 2 ^ 8)).map p.head.payload) := by
  rw [← printed_seqLoop]
  simp [seq_recv_callback, printed]

theorem mem_reads_seq {i : ℕ} :
    i ∈ reads (seq_recv_callback tcp_send_fin tpcb (some p)).effects ↔ i < p.tot_len % 2 ^ 8 := by
  rw [← @mem_reads_seqLoop p.head.payload]
  simp [seq_recv_callback, reads]

variable {p}

theorem printed_seq_of_short (whole : p.head.len = p.tot_len) (short : p.tot_len < 256) :
    printed (seq_recv_callback tcp_send_fin tpcb (some p)).effects = words p.bytes := by
  have kept : p.tot_len % 2 ^ 8 = p.tot_len := Nat.mod_eq_of_lt short
  rw [printed_seq, p.bytes_of_whole whole, kept]

/-- Every byte that the callback reads is one of the first buffer's. -/
def InBounds (p : Chain) : Prop :=
  ∀ i ∈ reads (seq_recv_callback tcp_send_fin tpcb (some p)).effects, i < p.head.len

theorem inBounds_iff (short : p.tot_len < 256) :
    InBounds tcp_send_fin tpcb p ↔ p.head.len = p.tot_len := by
  have kept : p.tot_len % 2 ^ 8 = p.tot_len := Nat.mod_eq_of_lt short
  simp only [InBounds, mem_reads_seq, kept]
  constructor
  · intro inside
    have bound := p.head_len_le
    by_contra different
    exact absurd (inside p.head.len (by omega)) (lt_irrefl _)
  · intro whole i
    rw [whole]
    exact id

end Callback

/-- A buffer of its own for some bytes. -/
def Chain.single (bytes : List Byte) (bounded : bytes.length < 2 ^ 16) : Chain where
  head := ⟨fun i => bytes.getD i 0, bytes.length⟩
  next := []
  tot_len := bytes.length
  sum_len := rfl
  bounded := bounded

theorem packs_delivery_iff (tcp_send_fin : Pcb → Err) (tpcb : Pcb) (p : Chain)
    (whole : p.head.len = p.tot_len) :
    printed (seq_recv_callback tcp_send_fin tpcb (some p)).effects = words p.bytes ↔
      p.tot_len < 256 := by
  constructor
  · intro packed
    have count := congrArg List.length packed
    rw [printed_seq, length_words, length_words, p.length_bytes, List.length_map,
      List.length_range] at count
    omega
  · exact printed_seq_of_short tcp_send_fin tpcb whole

theorem packs_delivery_iff_abcde :
    printed (seq_recv_callback (fun _ => .ERR_OK) (connection .seq)
      (some (.single [0x61, 0x62, 0x63, 0x64, 0x65] (by decide)))).effects =
        words (Chain.single [0x61, 0x62, 0x63, 0x64, 0x65] (by decide)).bytes ↔
      (Chain.single [0x61, 0x62, 0x63, 0x64, 0x65] (by decide)).tot_len < 256 :=
  packs_delivery_iff _ _ _ rfl

/-- Of 256 bytes not one is printed. -/
theorem drops_delivery_of_256 :
    printed (seq_recv_callback (fun _ => .ERR_OK) (connection .seq)
      (some ⟨⟨fun _ => 0x61, 256⟩, [], 256, rfl, by decide⟩)).effects ≠
        words (Chain.mk ⟨fun _ => 0x61, 256⟩ [] 256 rfl (by decide)).bytes := by
  intro packed
  have count := congrArg List.length packed
  rw [printed_seq, length_words, length_words, Chain.length_bytes] at count
  exact absurd count (by decide)

/-- Two chains with the same data give the same words and are read inside their first
buffers exactly if these hold all of it. -/
theorem same_words_iff (tcp_send_fin : Pcb → Err) (tpcb : Pcb) {first second : Chain}
    (same : first.bytes = second.bytes) (short : first.tot_len < 256) :
    (printed (seq_recv_callback tcp_send_fin tpcb (some first)).effects =
        printed (seq_recv_callback tcp_send_fin tpcb (some second)).effects ∧
      InBounds tcp_send_fin tpcb first ∧ InBounds tcp_send_fin tpcb second) ↔
      (first.head.len = first.tot_len ∧ second.head.len = second.tot_len) := by
  have length := congrArg List.length same
  rw [first.length_bytes, second.length_bytes] at length
  rw [inBounds_iff tcp_send_fin tpcb short, inBounds_iff tcp_send_fin tpcb (length ▸ short)]
  constructor
  · exact fun equal => equal.2
  · intro whole
    refine ⟨?_, whole⟩
    rw [printed_seq_of_short tcp_send_fin tpcb whole.1 short,
      printed_seq_of_short tcp_send_fin tpcb whole.2 (length ▸ short), same]

/-- An empty buffer behind the data is harmless. -/
def paddedChain : Chain where
  head := (Chain.single [0x61, 0x62] (by decide)).head
  next := [⟨fun _ => 0, 0⟩]
  tot_len := 2
  sum_len := rfl
  bounded := by decide

theorem same_words_iff_padded :
    (printed (seq_recv_callback (fun _ => .ERR_OK) (connection .seq)
        (some (.single [0x61, 0x62] (by decide)))).effects =
      printed (seq_recv_callback (fun _ => .ERR_OK) (connection .seq)
        (some paddedChain)).effects ∧
      InBounds (fun _ => .ERR_OK) (connection .seq) (.single [0x61, 0x62] (by decide)) ∧
      InBounds (fun _ => .ERR_OK) (connection .seq) paddedChain) ↔
      ((Chain.single [0x61, 0x62] (by decide)).head.len =
          (Chain.single [0x61, 0x62] (by decide)).tot_len ∧
        paddedChain.head.len = paddedChain.tot_len) :=
  same_words_iff _ _ rfl (by decide)

/-- The bytes `a` and `b` in two buffers. -/
def splitChain : Chain where
  head := ⟨fun i => if i = 0 then 0x61 else 0, 1⟩
  next := [⟨fun _ => 0x62, 1⟩]
  tot_len := 2
  sum_len := rfl
  bounded := by decide

/-- The second byte of a split delivery is taken from behind the first buffer. -/
theorem split_delivery_differs :
    (Chain.single [0x61, 0x62] (by decide)).bytes = splitChain.bytes ∧
      printed (seq_recv_callback (fun _ => .ERR_OK) (connection .seq)
        (some (.single [0x61, 0x62] (by decide)))).effects ≠
      printed (seq_recv_callback (fun _ => .ERR_OK) (connection .seq)
        (some splitChain)).effects := by
  refine ⟨by decide, ?_⟩
  rw [printed_seq, printed_seq]
  decide

/-- The words tell a delivery from every other one that does not write out the padding. -/
theorem same_words_iff_padding (tcp_send_fin : Pcb → Err) (tpcb other : Pcb)
    {first second : Chain} (firstWhole : first.head.len = first.tot_len)
    (secondWhole : second.head.len = second.tot_len) (firstShort : first.tot_len ≤ 255)
    (secondShort : second.tot_len ≤ 255) :
    printed (seq_recv_callback tcp_send_fin tpcb (some first)).effects =
        printed (seq_recv_callback tcp_send_fin other (some second)).effects ↔
      first.bytes = second.bytes ∨ WritesOut 4 0xFF first.bytes second.bytes ∨
        WritesOut 4 0xFF second.bytes first.bytes := by
  rw [printed_seq_of_short tcp_send_fin tpcb firstWhole (Nat.lt_succ_of_le firstShort),
    printed_seq_of_short tcp_send_fin other secondWhole (Nat.lt_succ_of_le secondShort)]
  exact words_inj_iff

theorem same_words_iff_padding_abc :
    printed (seq_recv_callback (fun _ => .ERR_OK) (connection .seq)
        (some (.single [0x61, 0x62] (by decide)))).effects =
      printed (seq_recv_callback (fun _ => .ERR_OK) (connection .seq)
        (some (.single [0x61, 0x62, 0x63] (by decide)))).effects ↔
      (Chain.single [0x61, 0x62] (by decide)).bytes =
          (Chain.single [0x61, 0x62, 0x63] (by decide)).bytes ∨
        WritesOut 4 0xFF (Chain.single [0x61, 0x62] (by decide)).bytes
          (Chain.single [0x61, 0x62, 0x63] (by decide)).bytes ∨
        WritesOut 4 0xFF (Chain.single [0x61, 0x62, 0x63] (by decide)).bytes
          (Chain.single [0x61, 0x62] (by decide)).bytes :=
  same_words_iff_padding _ _ _ rfl rfl (by decide) (by decide)

/-- A byte `0xFF` at the end may be one of the payload or one of the padding. -/
theorem padding_is_ambiguous :
    printed (seq_recv_callback (fun _ => .ERR_OK) (connection .seq)
        (some (.single [0x61] (by decide)))).effects =
      printed (seq_recv_callback (fun _ => .ERR_OK) (connection .seq)
        (some (.single [0x61, 0xFF] (by decide)))).effects ∧
      (Chain.single [0x61] (by decide)).bytes ≠ (Chain.single [0x61, 0xFF] (by decide)).bytes := by
  refine ⟨?_, by decide⟩
  rw [printed_seq, printed_seq]
  decide

end SeqDetect.Server
