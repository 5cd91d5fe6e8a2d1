import SeqDetect.Server.Allocation

/-!
# When a start is atomic

A start that fails after a block was taken keeps the block.  It leaves nothing behind only
where it succeeds, or where the stack has no block to give.
-/

namespace SeqDetect.Server

open Memory Control

/-- The pools and lists between two calls. -/
structure Stack extends Control where
  consistent : toControl.Consistent

namespace Control

/-- There is one listening block more: it is on the port of the server and has its callback. -/
def NewListener (port : Port) (before after : Control) : Prop :=
  ∃ lpcb listener, before.listenPcbs.held lpcb = none ∧
    after.tcp_listen_pcbs = lpcb :: before.tcp_listen_pcbs ∧
    after.listenPcbs.held = Function.update before.listenPcbs.held lpcb (some listener) ∧
    listener.local_port = port.number ∧ listener.accept = .accept_callback port

/-- The bound, the listening and the allocated blocks are those there were before, and hold
what they held. -/
structure SameBlocks (before after : Control) : Prop where
  bound : after.tcp_bound_pcbs = before.tcp_bound_pcbs
  listening : after.tcp_listen_pcbs = before.tcp_listen_pcbs
  held : after.pcbs.held = before.pcbs.held
  heldListen : after.listenPcbs.held = before.listenPcbs.held

/-- A block for the new control block is neither free nor to be had from a connection. -/
def Exhausted (control : Control) : Prop :=
  control.pcbs.free = [] ∧ control.tcp_tw_pcbs = [] ∧
    ∀ pcb ∈ control.tcp_active_pcbs, TCP_PRIO_NORMAL < (control.pcbs.content pcb).prio

/-- No control block has the port but the one that is given up for the new one. -/
def Available (control : Control) (number : ℕ) : Prop :=
  (∀ lpcb ∈ control.tcp_listen_pcbs, (control.listenPcbs.content lpcb).local_port ≠ number) ∧
    ∀ cpcb ∈ control.listed, (control.pcbs.content cpcb).local_port = number →
      control.next TCP_PRIO_NORMAL = some cpcb

end Control

def StartsAtomically (port : Port) (control : Control) : Prop :=
  ((port.start control).code = 0 ∧ control.NewListener port (port.start control).control ∧
    (port.start control).control.running port = 1) ∨
  ((port.start control).code < 0 ∧
    (port.start control).control.running = control.running ∧
    control.SameBlocks (port.start control).control)

theorem Port.start_eq (port : Port) : port.start = startServer port := by
  cases port <;> rfl

theorem Port.number_ne_zero (port : Port) : port.number ≠ 0 := by
  cases port <;> decide

namespace Control

variable {control : Control}

theorem exhausted_iff : control.Exhausted ↔ control.next TCP_PRIO_NORMAL = none :=
  (next_eq_none_iff (by decide)).symm

theorem listed_of_bound {pcb : PcbRef} (bound : pcb ∈ control.tcp_bound_pcbs) :
    pcb ∈ control.listed := by
  simp [listed, bound]

theorem listed_of_active {pcb : PcbRef} (active : pcb ∈ control.tcp_active_pcbs) :
    pcb ∈ control.listed := by
  simp [listed, active]

theorem listed_of_timewait {pcb : PcbRef} (timewait : pcb ∈ control.tcp_tw_pcbs) :
    pcb ∈ control.listed := by
  simp [listed, timewait]

@[simp]
theorem handOut_content_self (prio : ℕ) (pcb : PcbRef) :
    (control.handOut prio pcb).pcbs.content pcb = freshPcb prio control.tcp_ticks := by
  simp [handOut, Pool.store]

theorem handOut_content_of_ne (prio : ℕ) {pcb cpcb : PcbRef} (other : cpcb ≠ pcb) :
    (control.handOut prio pcb).pcbs.content cpcb = control.pcbs.content cpcb := by
  simp [handOut, Pool.store, other]

/-- The stack after the block has got the port. -/
def bound (control : Control) (pcb : PcbRef) (number : ℕ) : Control :=
  { control with
    pcbs := control.pcbs.store pcb { control.pcbs.content pcb with local_port := number }
    tcp_bound_pcbs := pcb :: control.tcp_bound_pcbs }

/-- The stack after a bound block was exchanged for a listening one, which the server runs on. -/
def listens (control : Control) (port : Port) (pcb : PcbRef) (lpcb : ListenRef) : Control :=
  { control.memp_free pcb (control.pcbs.content pcb) with
    listenPcbs := Pool.store { control.listenPcbs with free := control.listenPcbs.free.tail }
      lpcb ⟨port.number, TCP_PRIO_NORMAL, .accept_callback port⟩
    tcp_bound_pcbs := control.tcp_bound_pcbs.erase pcb
    tcp_listen_pcbs := lpcb :: control.tcp_listen_pcbs
    running := Function.update control.running port 1 }

/-- The only listening block that is new is the one that the pool hands out next. -/
theorem newListener_listens {port : Port} {pcb : PcbRef} {lpcb : ListenRef}
    {free : List ListenRef} (nodup : control.listenPcbs.free.Nodup)
    (blocks : control.listenPcbs.free = lpcb :: free) :
    control.NewListener port
      (((control.handOut TCP_PRIO_NORMAL pcb).bound pcb port.number).listens port pcb lpcb) := by
  have unused : control.listenPcbs.held lpcb = none := Pool.held_eq_none (by simp [blocks])
  refine ⟨lpcb, ⟨port.number, TCP_PRIO_NORMAL, .accept_callback port⟩, unused, rfl, ?_, rfl, rfl⟩
  have tail : control.listenPcbs.free.tail = free := by rw [blocks, List.tail_cons]
  rw [← Pool.held_malloc blocks nodup, ← tail]
  rfl

namespace Consistent

variable (consistent : control.Consistent)
include consistent

/-- The check of `tcp_bind`, on the state before the block was taken. -/
theorem inUse_handOut_iff {pcb : PcbRef} (next : control.next TCP_PRIO_NORMAL = some pcb)
    {number : ℕ} :
    (control.handOut TCP_PRIO_NORMAL pcb).InUse number ↔ ¬ control.Available number := by
  rw [InUse, Available, next, not_and_or]
  push Not
  refine or_congr Iff.rfl ⟨?_, ?_⟩
  · rintro ⟨cpcb, listed, same⟩
    have inside := (consistent.mem_listed_handOut next).mp listed
    rw [handOut_content_of_ne _ inside.2] at same
    exact ⟨cpcb, inside.1, same, fun equal => inside.2 (Option.some.inj equal).symm⟩
  · rintro ⟨cpcb, listed, same, other⟩
    have other : cpcb ≠ pcb := fun equal => other (by rw [equal])
    refine ⟨cpcb, (consistent.mem_listed_handOut next).mpr ⟨listed, other⟩, ?_⟩
    rwa [handOut_content_of_ne _ other]

theorem start_exhausted (port : Port) (exhausted : control.Exhausted) :
    startServer port control = ⟨control, -1, "Error creating PCB. Out of Memory\n\r"⟩ := by
  rw [exhausted_iff] at exhausted
  rw [startServer, tcp_new, consistent.tcp_alloc_eq, exhausted]

theorem start_inUse {port : Port} {pcb : PcbRef}
    (next : control.next TCP_PRIO_NORMAL = some pcb)
    (unavailable : ¬ control.Available port.number) :
    (startServer port control).code = -2 ∧
      (startServer port control).control = control.handOut TCP_PRIO_NORMAL pcb := by
  have refused :
      (control.handOut TCP_PRIO_NORMAL pcb).tcp_bind pcb port.number =
        (ERR_USE, control.handOut TCP_PRIO_NORMAL pcb) := by
    rw [tcp_bind, if_neg (by simp [freshPcb]),
      if_pos ((consistent.inUse_handOut_iff next).mpr unavailable)]
  rw [startServer, tcp_new, consistent.tcp_alloc_eq, next]
  dsimp only
  rw [refused]
  simp [ERR_USE, ERR_OK]

theorem tcp_bind_available {port : Port} {pcb : PcbRef}
    (next : control.next TCP_PRIO_NORMAL = some pcb)
    (available : control.Available port.number) :
    (control.handOut TCP_PRIO_NORMAL pcb).tcp_bind pcb port.number =
      (ERR_OK, (control.handOut TCP_PRIO_NORMAL pcb).bound pcb port.number) := by
  have unused : ¬ (control.handOut TCP_PRIO_NORMAL pcb).InUse port.number := fun inUse =>
    (consistent.inUse_handOut_iff next).mp inUse available
  rw [tcp_bind, if_neg (by simp [freshPcb]), if_neg unused]
  rfl

theorem start_unlistened {port : Port} {pcb : PcbRef}
    (next : control.next TCP_PRIO_NORMAL = some pcb)
    (available : control.Available port.number) (empty : control.listenPcbs.free = []) :
    (startServer port control).code = -3 ∧
      (startServer port control).control =
        (control.handOut TCP_PRIO_NORMAL pcb).bound pcb port.number := by
  rw [startServer, tcp_new, consistent.tcp_alloc_eq, next]
  dsimp only
  rw [consistent.tcp_bind_available next available]
  simp [tcp_listen, bound, handOut, Pool.store, freshPcb, Pool.malloc, empty]

theorem start_listens {port : Port} {pcb : PcbRef} {lpcb : ListenRef} {free : List ListenRef}
    (next : control.next TCP_PRIO_NORMAL = some pcb)
    (available : control.Available port.number)
    (blocks : control.listenPcbs.free = lpcb :: free) :
    (startServer port control).code = 0 ∧
      (startServer port control).control =
        ((control.handOut TCP_PRIO_NORMAL pcb).bound pcb port.number).listens port pcb lpcb := by
  have malloc :
      ((control.handOut TCP_PRIO_NORMAL pcb).bound pcb port.number).listenPcbs.malloc =
        some (lpcb, { control.listenPcbs with free := free }) :=
    Pool.malloc_eq_some blocks
  rw [startServer, tcp_new, consistent.tcp_alloc_eq, next]
  dsimp only
  rw [consistent.tcp_bind_available next available]
  dsimp only
  rw [if_neg (not_not_intro rfl), tcp_listen, if_neg (by simp [bound, freshPcb]), malloc]
  simp [tcp_accept, memp_free, bound, freshPcb, listens, handOut, blocks, port.number_ne_zero]

theorem held_handOut {pcb : PcbRef} {prio : ℕ} (next : control.next prio = some pcb) :
    (control.handOut prio pcb).pcbs.held =
      Function.update control.pcbs.held pcb (some (freshPcb prio control.tcp_ticks)) := by
  rcases free_or_connected next with ⟨free, blocks⟩ | ⟨empty, -⟩
  · have tail : control.pcbs.free.tail = free := by rw [blocks, List.tail_cons]
    rw [Control.handOut, tail]
    exact Pool.held_malloc blocks consistent.free _
  · have same : control.pcbs.free.tail = control.pcbs.free := by rw [empty, List.tail_nil]
    rw [Control.handOut, same]
    exact Pool.held_store (by simp [empty]) _

/-- The block that was handed out is allocated now, or no longer that of a connection. -/
theorem held_handOut_ne {pcb : PcbRef} {prio : ℕ} (next : control.next prio = some pcb) :
    (control.handOut prio pcb).pcbs.held ≠ control.pcbs.held := fun same => by
  have fresh : control.pcbs.held pcb = some (freshPcb prio control.tcp_ticks) := by
    rw [← same, consistent.held_handOut next, Function.update_self]
  rcases free_or_connected next with ⟨free, blocks⟩ | ⟨empty, connected⟩
  · rw [Pool.held_eq_none (by simp [blocks])] at fresh
    cases fresh
  · rw [Pool.held_eq_some (by simp [empty]), Option.some_inj] at fresh
    rcases connected with active | timewait
    · simpa [fresh, freshPcb] using consistent.active pcb active
    · simpa [fresh, freshPcb] using consistent.timewait pcb timewait

theorem handOut {pcb : PcbRef} {prio : ℕ} (next : control.next prio = some pcb) :
    (control.handOut prio pcb).Consistent where
  free := consistent.free.tail
  freeListen := consistent.freeListen
  listed := consistent.listed.sublist
    (((List.Sublist.refl _).append List.erase_sublist).append List.erase_sublist)
  listening := consistent.listening
  taken := fun cpcb listed free =>
    consistent.taken cpcb ((consistent.mem_listed_handOut next).mp listed).1
      (List.mem_of_mem_tail free)
  takenListen := consistent.takenListen
  active := fun cpcb active => by
    have listed := listed_of_active active
    rw [handOut_content_of_ne prio ((consistent.mem_listed_handOut next).mp listed).2]
    exact consistent.active cpcb (List.mem_of_mem_erase active)
  timewait := fun cpcb timewait => by
    have listed := listed_of_timewait timewait
    rw [handOut_content_of_ne prio ((consistent.mem_listed_handOut next).mp listed).2]
    exact consistent.timewait cpcb (List.mem_of_mem_erase timewait)

theorem bound {pcb : PcbRef} (unlisted : pcb ∉ control.listed)
    (taken : pcb ∉ control.pcbs.free) (number : ℕ) : (control.bound pcb number).Consistent where
  free := consistent.free
  freeListen := consistent.freeListen
  listed := List.nodup_cons.mpr ⟨unlisted, consistent.listed⟩
  listening := consistent.listening
  taken := List.forall_mem_cons.mpr ⟨taken, consistent.taken⟩
  takenListen := consistent.takenListen
  active := fun cpcb active => by
    have other : cpcb ≠ pcb := fun same => unlisted (same ▸ listed_of_active active)
    simpa [Control.bound, Pool.store, other] using consistent.active cpcb active
  timewait := fun cpcb timewait => by
    have other : cpcb ≠ pcb := fun same => unlisted (same ▸ listed_of_timewait timewait)
    simpa [Control.bound, Pool.store, other] using consistent.timewait cpcb timewait

/-- The block that was exchanged is on no list, and the others stay where they are. -/
theorem mem_listed_listens {port : Port} {pcb cpcb : PcbRef} {lpcb : ListenRef}
    (bound : pcb ∈ control.tcp_bound_pcbs)
    (listed : cpcb ∈ (control.listens port pcb lpcb).listed) :
    cpcb ∈ control.listed ∧ cpcb ≠ pcb := by
  have nodup := consistent.listed
  rw [Control.listed, List.append_assoc, List.nodup_append'] at nodup
  have unconnected : ¬ (pcb ∈ control.tcp_active_pcbs ∨ pcb ∈ control.tcp_tw_pcbs) :=
    fun connected => consistent.not_bound connected bound
  simp only [Control.listed, Control.listens, memp_free, List.mem_append,
    nodup.1.mem_erase_iff] at listed ⊢
  grind

theorem listens {port : Port} {pcb : PcbRef} {lpcb : ListenRef} {free : List ListenRef}
    (bound : pcb ∈ control.tcp_bound_pcbs) (blocks : control.listenPcbs.free = lpcb :: free) :
    (control.listens port pcb lpcb).Consistent where
  free := List.nodup_cons.mpr ⟨consistent.taken pcb (listed_of_bound bound), consistent.free⟩
  freeListen := consistent.freeListen.tail
  listed := consistent.listed.sublist
    ((List.erase_sublist.append (List.Sublist.refl _)).append (List.Sublist.refl _))
  listening := by
    refine List.nodup_cons.mpr ⟨fun listening => ?_, consistent.listening⟩
    exact consistent.takenListen lpcb listening (by simp [blocks])
  taken := fun cpcb listed free => by
    have inside := consistent.mem_listed_listens bound listed
    rcases List.mem_cons.mp free with same | free
    · exact inside.2 same
    · exact consistent.taken cpcb inside.1 free
  takenListen := by
    have nodup := consistent.freeListen
    rw [blocks] at nodup
    refine List.forall_mem_cons.mpr ⟨?_, fun other listening free => ?_⟩
    · simpa [Control.listens, Pool.store, blocks] using (List.nodup_cons.mp nodup).1
    · exact consistent.takenListen other listening (List.mem_of_mem_tail free)
  active := fun cpcb active => by
    have other := (consistent.mem_listed_listens bound (listed_of_active active)).2
    simpa [Control.listens, memp_free, Pool.store, Pool.release, other] using
      consistent.active cpcb active
  timewait := fun cpcb timewait => by
    have other := (consistent.mem_listed_listens bound (listed_of_timewait timewait)).2
    simpa [Control.listens, memp_free, Pool.store, Pool.release, other] using
      consistent.timewait cpcb timewait

/-- A start keeps the pools and the lists consistent, also where it leaks a block. -/
theorem start (port : Port) : (port.start control).control.Consistent := by
  rw [port.start_eq]
  cases next : control.next TCP_PRIO_NORMAL with
  | none => simpa [consistent.start_exhausted port (exhausted_iff.mpr next)] using consistent
  | some pcb =>
      have taken := consistent.handOut next
      by_cases available : control.Available port.number
      · have unlisted : pcb ∉ (control.handOut TCP_PRIO_NORMAL pcb).listed := fun listed =>
          ((consistent.mem_listed_handOut next).mp listed).2 rfl
        have bound := taken.bound unlisted (consistent.not_mem_tail next) port.number
        cases blocks : control.listenPcbs.free with
        | nil => rwa [(consistent.start_unlistened next available blocks).2]
        | cons lpcb free =>
            rw [(consistent.start_listens next available blocks).2]
            exact bound.listens List.mem_cons_self blocks
      · rwa [(consistent.start_inUse next available).2]

end Consistent

end Control

/-- A start is atomic exactly where the stack has no block for it, or where the port is
available and there is a listening block. -/
theorem startsAtomically_iff (port : Port) (stack : Stack) :
    StartsAtomically port stack.toControl ↔
      stack.Exhausted ∨ stack.Available port.number ∧ stack.listenPcbs.free ≠ [] := by
  have consistent := stack.consistent
  rw [StartsAtomically, port.start_eq]
  cases next : stack.next TCP_PRIO_NORMAL with
  | none =>
      have exhausted := exhausted_iff.mpr next
      simp only [consistent.start_exhausted port exhausted, exhausted, true_or, iff_true]
      exact .inr ⟨by decide, by simp, rfl, rfl, rfl, rfl⟩
  | some pcb =>
      have obtainable : ¬ stack.Exhausted := by simp [exhausted_iff, next]
      by_cases available : stack.Available port.number
      · cases blocks : stack.listenPcbs.free with
        | nil =>
            obtain ⟨code, control⟩ := consistent.start_unlistened next available blocks
            refine iff_of_false ?_ (by simp [obtainable])
            rintro (⟨zero, -⟩ | ⟨-, -, same⟩)
            · simp [code] at zero
            · rw [control] at same
              exact List.cons_ne_self _ _ same.bound
        | cons lpcb free =>
            obtain ⟨code, control⟩ := consistent.start_listens next available blocks
            refine iff_of_true (.inl ⟨code, ?_, ?_⟩) (.inr ⟨available, List.cons_ne_nil _ _⟩)
            · rw [control]
              exact newListener_listens consistent.freeListen blocks
            · simp [control, listens]
      · obtain ⟨code, control⟩ := consistent.start_inUse next available
        refine iff_of_false ?_ (by simp [obtainable, available])
        rintro (⟨zero, -⟩ | ⟨-, -, same⟩)
        · simp [code] at zero
        · rw [control] at same
          exact consistent.held_handOut_ne next same.held

/-- The stack whose only control block listens on the port of the server. -/
def served : Stack where
  pcbs := ⟨List.finRange MEMP_NUM_TCP_PCB, fun _ => freshPcb 0 0⟩
  listenPcbs :=
    ⟨(List.finRange MEMP_NUM_TCP_PCB_LISTEN).tail,
      fun _ => ⟨Port.seq.number, TCP_PRIO_NORMAL, .accept_callback .seq⟩⟩
  tcp_bound_pcbs := []
  tcp_listen_pcbs := [⟨0, by decide⟩]
  tcp_active_pcbs := []
  tcp_tw_pcbs := []
  tcp_ticks := 0
  running := fun port => if port = .seq then 1 else 0
  consistent := by
    constructor <;> decide

theorem second_start_leaks : ¬ StartsAtomically .seq served.toControl := by
  rintro (⟨zero, -⟩ | ⟨-, -, same⟩)
  · exact absurd zero (by decide)
  · have leaked := congrArg Option.isSome (congrFun same.held ⟨0, by decide⟩)
    exact absurd leaked (by decide)

end SeqDetect.Server
