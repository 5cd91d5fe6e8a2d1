import SeqDetect.Nic.Source

/-!
# Interrupts between the accesses

The central invariant accounts for every frame and every buffer in any interleaving of the main
line with the interrupts.  The length of the receive queue falls behind the frames in it by one
for each interrupt that a `q->len--` has overwritten; nothing ever brings it back.
-/

namespace SeqDetect.Nic

section Effects

variable (past new : List Effect)

@[simp]
theorem queued_append : queued (past ++ new) = queued past ++ queued new :=
  List.filterMap_append

@[simp]
theorem delivered_append : delivered (past ++ new) = delivered past ++ delivered new :=
  List.filterMap_append

@[simp]
theorem accepted_append : accepted (past ++ new) = accepted past ++ accepted new :=
  List.filterMap_append

@[simp]
theorem transmitted_append : transmitted (past ++ new) = transmitted past ++ transmitted new :=
  List.filterMap_append

@[simp]
theorem leaks_append : leaks (past ++ new) = leaks past + leaks new := List.count_append

@[simp]
theorem races_append : races (past ++ new) = races past + races new := List.count_append

end Effects

section Queues

variable {q next : pq_queue_t} {first : ℕ} {items : List Frame} {p : Frame}

/-- The queue's slots from `first` on hold the frames, and the next one goes behind them. -/
structure Stores (q : pq_queue_t) (first : ℕ) (items : List Frame) : Prop where
  bounded : first < PQ_QUEUE_SIZE
  holds : Queue.Holds PQ_QUEUE_SIZE q.data first items
  head : q.head = (first + items.length) % PQ_QUEUE_SIZE

theorem Stores.congr (stores : Stores q first items) (data : next.data = q.data)
    (head : next.head = q.head) : Stores next first items :=
  ⟨stores.bounded, data ▸ stores.holds, head ▸ stores.head⟩

theorem Stores.oldest (stores : Stores q first (p :: items)) : q.data first = some p := by
  have slot := stores.holds.head
  rwa [Nat.mod_eq_of_lt stores.bounded] at slot

theorem Stores.rest (stores : Stores q first (p :: items)) :
    Stores q ((first + 1) % PQ_QUEUE_SIZE) items where
  bounded := Nat.mod_lt _ (by decide)
  holds := stores.holds.tail
  head := by
    rw [stores.head, List.length_cons, Nat.mod_add_mod]
    congr 1
    omega

theorem pq_enqueue_stores (stores : Stores q first items) (room : items.length < PQ_QUEUE_SIZE)
    (counted : q.len ≤ items.length) (p : Frame) :
    ∃ next, pq_enqueue q p = some next ∧ Stores next first (items ++ [p]) ∧
      next.tail = q.tail ∧ next.len = q.len + 1 := by
  have notFull : ¬q.len = PQ_QUEUE_SIZE := by omega
  refine ⟨_, if_neg notFull, ⟨stores.bounded, ?_, ?_⟩, rfl, rfl⟩
  · simpa only [stores.head] using stores.holds.push room
  · simp only [stores.head, List.length_append, List.length_singleton, Nat.mod_add_mod]
    rfl

end Queues

section Invariant

variable {nic : Interface} {state : Run} {waiting backlog : List Frame} {lost : ℕ}

/-- The slot of the oldest frame that is not yet delivered. -/
def oldest (q : pq_queue_t) : Control → ℕ
  | .read ptail | .advanced ptail | .loaded ptail _ | .stored ptail => ptail
  | .idle | .sized | .checked => q.tail

/-- How the indices stand to the number of frames in the receive queue, of which `lost` are not
counted. -/
def Counts (q : pq_queue_t) (lost count : ℕ) : Control → Prop
  | .idle => 0 ≤ q.len ∧ q.len + lost = count
  | .sized | .checked => 0 < q.len ∧ q.len + lost = count
  | .read ptail => q.tail = ptail ∧ 0 < q.len ∧ q.len + lost = count
  | .advanced ptail =>
      q.tail = (ptail + 1) % PQ_QUEUE_SIZE ∧ 0 < q.len ∧ q.len + lost = count
  | .loaded ptail len =>
      q.tail = (ptail + 1) % PQ_QUEUE_SIZE ∧ q.len ≤ count ∧ 0 < len ∧ len + lost = count
  | .stored ptail =>
      q.tail = (ptail + 1) % PQ_QUEUE_SIZE ∧ 0 ≤ q.len ∧ q.len + 1 + lost = count

structure Receives (q : pq_queue_t) (control : Control) (lost : ℕ)
    (waiting : List Frame) : Prop where
  stores : Stores q (oldest q control) waiting
  counts : Counts q lost waiting.length control

structure Sends (q : pq_queue_t) (backlog : List Frame) : Prop where
  stores : Stores q q.tail backlog
  length : q.len = backlog.length

/-- Every frame and every buffer is accounted for. -/
structure Balanced (state : Run) (waiting backlog : List Frame) : Prop where
  receives : Receives state.nic.recv_q state.nic.control (races state.effects) waiting
  arrivals : queued state.effects = delivered state.effects ++ waiting
  sends : Sends state.nic.send_q backlog
  departures : accepted state.effects = transmitted state.effects ++ backlog
  pool : state.nic.free + state.nic.held + waiting.length + backlog.length +
    leaks state.effects = PBUF_POOL_SIZE

theorem stores_created : Stores pq_create_queue 0 [] :=
  ⟨by decide, Queue.holds_nil, rfl⟩

theorem balanced_started : Balanced ⟨started, []⟩ [] [] where
  receives := ⟨stores_created, by simp [Counts, started, pq_create_queue, races]⟩
  arrivals := rfl
  sends := ⟨stores_created, rfl⟩
  departures := rfl
  pool := rfl

theorem Counts.le {q : pq_queue_t} {count : ℕ} {control : Control}
    (counts : Counts q lost count control) : q.len ≤ count := by
  cases control <;> simp only [Counts] at counts <;> omega

/-- An interrupt between the load and the store of the length is overwritten. -/
theorem Receives.enqueue {q next : pq_queue_t} {control : Control} {frame : Frame}
    (receives : Receives q control lost waiting)
    (stores : Stores next (oldest q control) (waiting ++ [frame]))
    (tail : next.tail = q.tail) (len : next.len = q.len + 1) :
    Receives next control
      (lost + races (.queued frame :: if control.isLoaded then [.raced] else []))
      (waiting ++ [frame]) := by
  have counts := receives.counts
  constructor
  · cases control <;> simpa only [oldest, tail] using stores
  · cases control <;>
      simp only [Counts, tail, len, List.length_append, List.length_singleton] at counts ⊢ <;>
      simp [races, Control.isLoaded] <;> omega

theorem Balanced.room (balanced : Balanced state waiting backlog) :
    waiting.length < PQ_QUEUE_SIZE ∧ backlog.length < PQ_QUEUE_SIZE := by
  have pool := balanced.pool
  simp only [PBUF_POOL_SIZE] at pool
  simp only [PQ_QUEUE_SIZE]
  omega

/-- The queue never fills up before the pool is empty. -/
theorem Balanced.received {past : List Effect} (balanced : Balanced ⟨nic, past⟩ waiting backlog)
    (spare : nic.free ≠ 0) {frame : Frame} (filled : frame.length ≠ 0) :
    ∃ next, xemacif_recv_handler nic frame =
        ({ nic with recv_q := next, free := nic.free - 1 },
          .queued frame :: if nic.control.isLoaded then [.raced] else []) ∧
      Stores next (oldest nic.recv_q nic.control) (waiting ++ [frame]) ∧
      next.tail = nic.recv_q.tail ∧ next.len = nic.recv_q.len + 1 := by
  obtain ⟨next, enqueued, stores⟩ :=
    pq_enqueue_stores balanced.receives.stores balanced.room.1 balanced.receives.counts.le frame
  refine ⟨next, ?_, stores⟩
  simp only [xemacif_recv_handler, if_neg spare, if_neg filled, enqueued]

theorem balanced_receive (balanced : Balanced state waiting backlog) (frame : Frame) :
    ∃ waiting, Balanced (state.step (.receiveInterrupt frame)) waiting backlog := by
  obtain ⟨nic, past⟩ := state
  by_cases empty : nic.free = 0
  · exact ⟨waiting, by simpa [Run.step, step, xemacif_recv_handler, empty] using balanced⟩
  by_cases nothing : frame.length = 0
  · exact ⟨waiting, by simpa [Run.step, step, xemacif_recv_handler, nothing] using balanced⟩
  have pool := balanced.pool
  obtain ⟨next, received, stores, tail, len⟩ := balanced.received empty nothing
  refine ⟨waiting ++ [frame], ?_⟩
  constructor
  · simpa [Run.step, step, received] using balanced.receives.enqueue stores tail len
  · simp only [Run.step, step, received, queued_append, delivered_append, balanced.arrivals]
    split_ifs <;> simp [queued, delivered]
  · simpa [Run.step, step, received] using balanced.sends
  · simp only [Run.step, step, received, accepted_append, transmitted_append,
      balanced.departures]
    split_ifs <;> simp [accepted, transmitted]
  · simp only [Run.step, step, received, leaks_append, List.length_append]
    split_ifs <;> simp [leaks] at pool ⊢ <;> omega

theorem Sends.dequeue {q : pq_queue_t} {frame : Frame} (sends : Sends q (frame :: backlog)) :
    ∃ next, pq_dequeue q = (some frame, next) ∧ Sends next backlog := by
  have length := sends.length
  rw [List.length_cons] at length
  have waits : ¬q.len = 0 := by omega
  refine ⟨_, (if_neg waits).trans (by rw [sends.stores.oldest]), ?_, ?_⟩
  · exact sends.stores.rest.congr rfl rfl
  · simp only [length]
    omega

theorem Sends.enqueue {q : pq_queue_t} (sends : Sends q backlog)
    (room : backlog.length < PQ_QUEUE_SIZE) (frame : Frame) :
    ∃ next, pq_enqueue q frame = some next ∧ Sends next (backlog ++ [frame]) := by
  obtain ⟨next, enqueued, stores, tail, len⟩ :=
    pq_enqueue_stores sends.stores room sends.length.le frame
  refine ⟨next, enqueued, tail ▸ stores, ?_⟩
  rw [len, sends.length, List.length_append, List.length_singleton]
  rfl

theorem balanced_copied {past : List Effect} (balanced : Balanced ⟨nic, past⟩ waiting backlog)
    (spare : nic.free ≠ 0) (p : Server.Chain) :
    Balanced ⟨(enqueueCopy nic p).1, past ++ (enqueueCopy nic p).2⟩
      waiting (backlog ++ [p.bytes]) := by
  have pool := balanced.pool
  obtain ⟨next, enqueued, sends⟩ := balanced.sends.enqueue balanced.room.2 p.bytes
  have copied : enqueueCopy nic p =
      ({ nic with send_q := next, free := nic.free - 1 }, [.accepted p.bytes]) := by
    simp [enqueueCopy, spare, enqueued]
  rw [copied]
  constructor
  · simpa [races] using balanced.receives
  · simpa [queued, delivered] using balanced.arrivals
  · exact sends
  · have departures := balanced.departures
    simp only [accepted_append, transmitted_append, departures]
    simp [accepted, transmitted]
  · simp [leaks] at pool ⊢
    omega

theorem balanced_copy {past : List Effect} (balanced : Balanced ⟨nic, past⟩ waiting backlog)
    (p : Server.Chain) :
    ∃ backlog, Balanced ⟨(enqueueCopy nic p).1, past ++ (enqueueCopy nic p).2⟩
      waiting backlog := by
  by_cases empty : nic.free = 0
  · exact ⟨backlog, by simpa [enqueueCopy, empty] using balanced⟩
  · exact ⟨_, balanced_copied balanced empty p⟩

/-- A frame from the backlog goes to the device; its buffer goes to the pool or leaks. -/
theorem balanced_sent {past : List Effect} {frame : Frame} {next : pq_queue_t} (freed : Bool)
    (balanced : Balanced ⟨nic, past⟩ waiting (frame :: backlog)) (sends : Sends next backlog) :
    Balanced ⟨{ nic with send_q := next, free := nic.free + freed.toNat },
      past ++ .transmitted frame :: if freed then [] else [.leaked]⟩ waiting backlog := by
  have pool := balanced.pool
  constructor
  · cases freed <;> simpa [races] using balanced.receives
  · cases freed <;> simpa [queued, delivered] using balanced.arrivals
  · exact sends
  · cases freed <;> simpa [accepted, transmitted] using balanced.departures
  · cases freed <;> simp [leaks] at pool ⊢ <;> omega

theorem balanced_output (balanced : Balanced state waiting backlog) (p : Server.Chain)
    (available : Bool) :
    ∃ backlog, Balanced (state.step (.output p available)) waiting backlog := by
  obtain ⟨nic, past⟩ := state
  by_cases idle : nic.control = .idle
  swap
  · exact ⟨backlog, by simpa [Run.step, step, idle] using balanced⟩
  cases available with
  | false => simpa [Run.step, step, idle, low_level_output] using balanced_copy balanced p
  | true =>
      cases backlog with
      | nil =>
          have nothing : nic.send_q.len = 0 := balanced.sends.length
          have output : low_level_output nic p true =
              (nic, [.accepted p.bytes, .transmitted p.bytes]) := by
            simp [low_level_output, nothing]
          have departures := balanced.departures
          refine ⟨[], ?_⟩
          simp only [Run.step, step, idle, output, if_pos]
          constructor
          · simpa [races] using balanced.receives
          · simpa [queued, delivered] using balanced.arrivals
          · exact balanced.sends
          · simp only [List.append_nil] at departures
            simp only [accepted_append, transmitted_append, departures, List.append_nil]
            rfl
          · simpa [leaks] using balanced.pool
      | cons frame backlog =>
          obtain ⟨next, dequeued, sends⟩ := balanced.sends.dequeue
          have waits : nic.send_q.len ≠ 0 := by
            have length := balanced.sends.length
            simp only [List.length_cons] at length
            omega
          -- The buffer of the frame that is sent leaks before the current frame is queued.
          have output := balanced_copy (balanced_sent false balanced sends) p
          simp only [List.append_assoc, List.cons_append] at output
          simpa [Run.step, step, idle, low_level_output, waits, dequeued] using output

theorem balanced_send (balanced : Balanced state waiting backlog) (available : Bool) :
    Balanced (state.step (.sendInterrupt available)) waiting
      (if available then backlog.tail else backlog) := by
  obtain ⟨nic, past⟩ := state
  cases available with
  | false => simpa [Run.step, step, xemacif_send_handler] using balanced
  | true =>
      cases backlog with
      | nil =>
          have nothing : nic.send_q.len = 0 := balanced.sends.length
          simpa [Run.step, step, xemacif_send_handler, nothing] using balanced
      | cons frame backlog =>
          obtain ⟨next, dequeued, sends⟩ := balanced.sends.dequeue
          have waits : nic.send_q.len ≠ 0 := by
            have length := balanced.sends.length
            simp only [List.length_cons] at length
            omega
          simpa [Run.step, step, xemacif_send_handler, waits, dequeued] using
            balanced_sent true balanced sends

theorem balanced_release (balanced : Balanced state waiting backlog) :
    Balanced (state.step .release) waiting backlog := by
  obtain ⟨nic, past⟩ := state
  by_cases possible : nic.control = .idle ∧ 0 < nic.held
  swap
  · simpa [Run.step, step, possible] using balanced
  have pool := balanced.pool
  simp only [Run.step, step, if_pos possible, List.append_nil]
  exact ⟨balanced.receives, balanced.arrivals, balanced.sends, balanced.departures, by
    simp only at pool ⊢
    omega⟩

theorem Balanced.accessed {past : List Effect} {q : pq_queue_t} {control : Control}
    (balanced : Balanced ⟨nic, past⟩ waiting backlog)
    (receives : Receives q control (races past) waiting) :
    Balanced ⟨{ nic with recv_q := q, control := control }, past ++ []⟩ waiting backlog := by
  rw [List.append_nil]
  exact ⟨receives, balanced.arrivals, balanced.sends, balanced.departures, balanced.pool⟩

theorem Balanced.delivered {past : List Effect} {frame : Frame} {free held : ℕ}
    (balanced : Balanced ⟨nic, past⟩ (frame :: waiting) backlog)
    (receives : Receives nic.recv_q .idle (races past) waiting)
    (buffer : free + held = nic.free + nic.held + 1) :
    Balanced ⟨{ nic with control := .idle, free := free, held := held },
      past ++ [.delivered frame]⟩ waiting backlog := by
  have pool := balanced.pool
  constructor
  · simpa [races] using receives
  · simpa [queued, Nic.delivered] using balanced.arrivals
  · exact balanced.sends
  · simpa [accepted, transmitted] using balanced.departures
  · simp [leaks] at pool ⊢
    omega

theorem balanced_deliver {past : List Effect} {frame : Frame}
    (balanced : Balanced ⟨nic, past⟩ (frame :: waiting) backlog)
    (receives : Receives nic.recv_q .idle (races past) waiting) :
    Balanced ⟨(deliver nic (some frame)).1, past ++ (deliver nic (some frame)).2⟩
      waiting backlog := by
  by_cases taken : ethertype frame = ETHTYPE_IP ∨ ethertype frame = ETHTYPE_ARP
  · simp only [deliver, if_pos taken]
    exact balanced.delivered receives (by omega)
  · simp only [deliver, if_neg taken]
    exact balanced.delivered receives (by omega)

theorem balanced_poll (balanced : Balanced state waiting backlog) :
    ∃ waiting, Balanced (state.step .poll) waiting backlog := by
  obtain ⟨nic, past⟩ := state
  have stores := balanced.receives.stores
  have counts := balanced.receives.counts
  obtain ⟨q, send_q, free, held, control⟩ := nic
  cases control with
  | idle =>
      refine ⟨waiting, ?_⟩
      by_cases nothing : q.len = 0
      · simpa [Run.step, step, poll, nothing] using balanced
      · simp only [Run.step, step, poll, if_neg nothing]
        simp only [Counts] at counts
        exact balanced.accessed ⟨stores, by simp only [Counts]; omega⟩
  | sized =>
      simp only [Counts] at counts
      have waits : ¬q.len = 0 := by omega
      simp only [Run.step, step, poll, if_neg waits]
      exact ⟨waiting, balanced.accessed ⟨stores, counts⟩⟩
  | checked =>
      exact ⟨waiting, balanced.accessed ⟨stores, rfl, counts⟩⟩
  | read ptail =>
      obtain ⟨tail, counts⟩ := counts
      exact ⟨waiting, balanced.accessed ⟨stores.congr rfl rfl, by rw [← tail], counts⟩⟩
  | advanced ptail =>
      obtain ⟨tail, positive, total⟩ := counts
      exact ⟨waiting, balanced.accessed ⟨stores, tail, by
        simp only at positive total ⊢
        omega⟩⟩
  | loaded ptail len =>
      obtain ⟨tail, bound, positive, total⟩ := counts
      exact ⟨waiting, balanced.accessed ⟨stores.congr rfl rfl, tail, by
        simp only at bound positive total ⊢
        omega⟩⟩
  | stored ptail =>
      obtain ⟨tail, natural, total⟩ := counts
      cases waiting with
      | nil =>
          simp only [List.length_nil] at natural total
          omega
      | cons frame waiting =>
          have first : q.data ptail = some frame := stores.oldest
          simp only [Run.step, step, poll, first]
          refine ⟨waiting, balanced_deliver balanced ⟨?_, ?_⟩⟩
          · rw [oldest, tail]
            exact stores.rest
          · simp only [Counts, List.length_cons] at natural total ⊢
            omega

theorem balanced_step (balanced : Balanced state waiting backlog) (event : Event) :
    ∃ waiting backlog, Balanced (state.step event) waiting backlog := by
  cases event with
  | poll =>
      obtain ⟨waiting, balanced⟩ := balanced_poll balanced
      exact ⟨waiting, backlog, balanced⟩
  | output p available => exact ⟨waiting, balanced_output balanced p available⟩
  | release => exact ⟨waiting, backlog, balanced_release balanced⟩
  | receiveInterrupt frame =>
      obtain ⟨waiting, balanced⟩ := balanced_receive balanced frame
      exact ⟨waiting, backlog, balanced⟩
  | sendInterrupt available => exact ⟨waiting, _, balanced_send balanced available⟩

theorem balanced_run (events : List Event) :
    ∃ waiting backlog, Balanced (run events) waiting backlog := by
  induction events using List.reverseRecOn with
  | nil => exact ⟨[], [], balanced_started⟩
  | append_singleton events event inductionHypothesis =>
      obtain ⟨waiting, backlog, balanced⟩ := inductionHypothesis
      rw [run_append]
      exact balanced_step balanced event

end Invariant

end SeqDetect.Nic
