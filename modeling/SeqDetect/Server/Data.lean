import SeqDetect.Server.Sequence

/-!
# Bytes on port 7

The loop of port 7 puts `0xFF` behind the data of the whole chain before it prints a byte,
whatever lies there.
-/

namespace SeqDetect.Server

/-- The indices that are written. -/
def writes (effects : List Effect) : List ℕ :=
  effects.filterMap fun
    | .write index _ => some index
    | _ => none

/-- The memory after the writes. -/
def payloadAfter (payload : ℕ → Delta.Byte) (effects : List Effect) : ℕ → Delta.Byte :=
  effects.foldl (fun memory effect =>
    match effect with
    | .write index value => Function.update memory index value
    | _ => memory) payload

/-- The bytes of the chain are printed, and no other memory is used or changed. -/
structure ReadsDelivered (effects : List Effect) (p : Chain) : Prop where
  output : printed effects = p.bytes.map promoted
  reads : ∀ i ∈ reads effects, i < p.head.len
  writes : ∀ i ∈ writes effects, i < p.head.len
  contents : ∀ i < p.head.len, payloadAfter p.head.payload effects i = p.head.payload i

theorem mem_writes_data (tcp_send_fin : Pcb → Err) (tpcb : Pcb) (p : Chain)
    (positive : 0 < p.tot_len) :
    p.tot_len ∈ writes (data_recv_callback tcp_send_fin tpcb (some p)).effects := by
  have first : Effect.write p.tot_len 0xFF ∈ dataLoop p.head.payload p.tot_len :=
    List.mem_flatMap.mpr ⟨0, List.mem_range.mpr positive, List.mem_cons_self⟩
  refine List.mem_filterMap.mpr ⟨.write p.tot_len 0xFF, ?_, rfl⟩
  exact List.mem_append_left _ (List.mem_cons_of_mem _ first)

theorem not_readsDelivered (tcp_send_fin : Pcb → Err) (tpcb : Pcb) (p : Chain)
    (positive : 0 < p.tot_len) :
    ¬ ReadsDelivered (data_recv_callback tcp_send_fin tpcb (some p)).effects p := by
  intro delivered
  have inside := delivered.writes _ (mem_writes_data tcp_send_fin tpcb p positive)
  exact absurd (lt_of_lt_of_le inside p.head_len_le) (lt_irrefl _)

theorem not_readsDelivered_ab :
    ¬ ReadsDelivered (data_recv_callback (fun _ => .ERR_OK) (connection .data)
      (some (.single [0x61, 0x62] (by decide)))).effects (.single [0x61, 0x62] (by decide)) :=
  not_readsDelivered _ _ _ (by decide)

/-- The octet behind `ab` is overwritten. -/
theorem writes_behind_ab :
    2 ∈ writes (data_recv_callback (fun _ => .ERR_OK) (connection .data)
      (some (.single [0x61, 0x62] (by decide)))).effects ∧
      (Chain.single [0x61, 0x62] (by decide)).head.len = 2 ∧
      ¬ ReadsDelivered (data_recv_callback (fun _ => .ERR_OK) (connection .data)
        (some (.single [0x61, 0x62] (by decide)))).effects (.single [0x61, 0x62] (by decide)) := by
  have behind := mem_writes_data (fun _ => .ERR_OK) (connection .data)
    (.single [0x61, 0x62] (by decide)) (by decide)
  exact ⟨behind, rfl, fun delivered => absurd (delivered.writes _ behind) (by decide)⟩

end SeqDetect.Server
