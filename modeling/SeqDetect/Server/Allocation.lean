import SeqDetect.Server.Start

/-!
# Which block a start gets

Where no block is free, the stack gives up the connection that has been idle longest, first
among those in `TIME_WAIT`.  The choice is made by the state before the call.
-/

namespace SeqDetect.Server.Control

open Memory

/-- The block that `tcp_alloc` hands out. -/
def next (control : Control) (prio : ℕ) : Option PcbRef :=
  match control.pcbs.free with
  | pcb :: _ => some pcb
  | [] =>
    match control.oldest control.tcp_tw_pcbs 0 none with
    | some pcb => some pcb
    | none => control.leastActive prio control.tcp_active_pcbs TCP_PRIO_MAX 0 none

/-- The stack after the block has been handed out. -/
def handOut (control : Control) (prio : ℕ) (pcb : PcbRef) : Control :=
  { control with
    pcbs := Pool.store { control.pcbs with free := control.pcbs.free.tail } pcb
      (freshPcb prio control.tcp_ticks)
    tcp_active_pcbs := control.tcp_active_pcbs.erase pcb
    tcp_tw_pcbs := control.tcp_tw_pcbs.erase pcb }

theorem zero_le_inactivity {control : Control} {pcb : PcbRef} :
    (0 : BitVec 32) ≤ control.inactivity pcb := by
  simp [BitVec.le_def]

theorem oldest_mem {control : Control} {pcbs : List PcbRef} {inactivity : BitVec 32}
    {inactive : Option PcbRef} {pcb : PcbRef}
    (found : control.oldest pcbs inactivity inactive = some pcb) :
    pcb ∈ pcbs ∨ inactive = some pcb := by
  induction pcbs generalizing inactivity inactive with
  | nil => exact .inr found
  | cons head pcbs hypothesis =>
      rw [oldest] at found
      split at found
      · rcases hypothesis found with inside | same
        · exact .inl (List.mem_cons_of_mem _ inside)
        · exact .inl (by simp [Option.some.inj same])
      · exact (hypothesis found).imp (List.mem_cons_of_mem _) id

theorem oldest_some_ne_none (control : Control) (pcbs : List PcbRef) (inactivity : BitVec 32)
    (pcb : PcbRef) : control.oldest pcbs inactivity (some pcb) ≠ none := by
  induction pcbs generalizing inactivity pcb with
  | nil => simp [oldest]
  | cons head pcbs hypothesis =>
      rw [oldest]
      split <;> exact hypothesis _ _

theorem oldest_eq_none_iff {control : Control} {pcbs : List PcbRef} :
    control.oldest pcbs 0 none = none ↔ pcbs = [] := by
  cases pcbs with
  | nil => simp [oldest]
  | cons head pcbs =>
      rw [oldest, if_pos zero_le_inactivity]
      simp [oldest_some_ne_none]

theorem leastActive_mem {control : Control} {prio mprio : ℕ} {pcbs : List PcbRef}
    {inactivity : BitVec 32} {inactive : Option PcbRef} {pcb : PcbRef}
    (found : control.leastActive prio pcbs mprio inactivity inactive = some pcb) :
    pcb ∈ pcbs ∨ inactive = some pcb := by
  induction pcbs generalizing mprio inactivity inactive with
  | nil => exact .inr found
  | cons head pcbs hypothesis =>
      rw [leastActive] at found
      split at found
      · rcases hypothesis found with inside | same
        · exact .inl (List.mem_cons_of_mem _ inside)
        · exact .inl (by simp [Option.some.inj same])
      · exact (hypothesis found).imp (List.mem_cons_of_mem _) id

theorem leastActive_some_ne_none (control : Control) (prio : ℕ) (pcbs : List PcbRef)
    (mprio : ℕ) (inactivity : BitVec 32) (pcb : PcbRef) :
    control.leastActive prio pcbs mprio inactivity (some pcb) ≠ none := by
  induction pcbs generalizing mprio inactivity pcb with
  | nil => simp [leastActive]
  | cons head pcbs hypothesis =>
      rw [leastActive]
      split <;> exact hypothesis _ _ _

/-- A connection is given up as soon as one has no higher priority than the new block. -/
theorem leastActive_eq_none_iff {control : Control} {prio mprio : ℕ} (low : prio ≤ mprio)
    {pcbs : List PcbRef} :
    control.leastActive prio pcbs mprio 0 none = none ↔
      ∀ pcb ∈ pcbs, prio < (control.pcbs.content pcb).prio := by
  induction pcbs with
  | nil => simp [leastActive]
  | cons head pcbs hypothesis =>
      rw [leastActive, List.forall_mem_cons]
      by_cases chosen : (control.pcbs.content head).prio ≤ prio
      · rw [if_pos ⟨chosen, chosen.trans low, zero_le_inactivity⟩]
        simp [leastActive_some_ne_none, Nat.not_lt.mpr chosen]
      · rw [if_neg fun taken => chosen taken.1, hypothesis]
        simp [Nat.lt_of_not_le chosen]

theorem next_eq_none_iff {control : Control} {prio : ℕ} (low : prio ≤ TCP_PRIO_MAX) :
    control.next prio = none ↔
      control.pcbs.free = [] ∧ control.tcp_tw_pcbs = [] ∧
        ∀ pcb ∈ control.tcp_active_pcbs, prio < (control.pcbs.content pcb).prio := by
  rw [next]
  cases control.pcbs.free with
  | cons pcb free => simp
  | nil =>
      cases old : control.oldest control.tcp_tw_pcbs 0 none with
      | none =>
          dsimp only
          rw [leastActive_eq_none_iff low]
          simp [oldest_eq_none_iff.mp old]
      | some pcb =>
          have busy : control.tcp_tw_pcbs ≠ [] := fun empty => by
            rw [oldest_eq_none_iff.mpr empty] at old
            cases old
          simp [busy]

theorem free_or_connected {control : Control} {prio : ℕ} {pcb : PcbRef}
    (next : control.next prio = some pcb) :
    (∃ free, control.pcbs.free = pcb :: free) ∨
      control.pcbs.free = [] ∧
        (pcb ∈ control.tcp_active_pcbs ∨ pcb ∈ control.tcp_tw_pcbs) := by
  cases blocks : control.pcbs.free with
  | cons head free =>
      rw [Control.next, blocks] at next
      cases next
      exact .inl ⟨free, rfl⟩
  | nil =>
      rw [Control.next, blocks] at next
      dsimp only at next
      split at next
      · rename_i old
        cases next
        exact .inr ⟨rfl, .inr ((oldest_mem old).resolve_right (by simp))⟩
      · exact .inr ⟨rfl, .inl ((leastActive_mem next).resolve_right (by simp))⟩

namespace Consistent

variable {control : Control} (consistent : control.Consistent)
include consistent

theorem disjoint_active {pcb : PcbRef} (timewait : pcb ∈ control.tcp_tw_pcbs) :
    pcb ∉ control.tcp_active_pcbs := fun active => by
  simpa [consistent.timewait pcb timewait] using consistent.active pcb active

theorem not_bound {pcb : PcbRef}
    (connected : pcb ∈ control.tcp_active_pcbs ∨ pcb ∈ control.tcp_tw_pcbs) :
    pcb ∉ control.tcp_bound_pcbs := by
  have nodup := consistent.listed
  rw [Control.listed, List.append_assoc, List.nodup_append'] at nodup
  exact fun bound => nodup.2.2 bound (List.mem_append.mpr connected)

/-- The block of a connection that is given up is the next one to be handed out. -/
theorem memp_malloc_tcp_abort {pcb : PcbRef} (empty : control.pcbs.free = [])
    (connected : pcb ∈ control.tcp_active_pcbs ∨ pcb ∈ control.tcp_tw_pcbs) (prio : ℕ) :
    (control.tcp_abort pcb).memp_malloc prio = some (pcb, control.handOut prio pcb) := by
  rcases connected with active | timewait
  · have other : pcb ∉ control.tcp_tw_pcbs := fun timewait =>
      consistent.disjoint_active timewait active
    have state : (control.pcbs.content pcb).state ≠ .TIME_WAIT := fun state => by
      simpa [state] using consistent.active pcb active
    simp [tcp_abort, state, memp_free, memp_malloc, Pool.malloc, Pool.release, Pool.store,
      handOut, empty, List.erase_of_not_mem other]
  · have other := consistent.disjoint_active timewait
    simp [tcp_abort, consistent.timewait pcb timewait, memp_free, memp_malloc, Pool.malloc,
      Pool.release, Pool.store, handOut, empty, List.erase_of_not_mem other]

theorem tcp_alloc_eq (prio : ℕ) :
    control.tcp_alloc prio =
      match control.next prio with
      | some pcb => (some pcb, control.handOut prio pcb)
      | none => (none, control) := by
  cases free : control.pcbs.free with
  | cons pcb rest =>
      have unlisted : pcb ∉ control.listed := fun inside =>
        consistent.taken pcb inside (by simp [free])
      simp only [Control.listed, List.mem_append, not_or] at unlisted
      simp [tcp_alloc, memp_malloc, Pool.malloc_eq_some free, next, free, handOut,
        List.erase_of_not_mem unlisted.1.2, List.erase_of_not_mem unlisted.2]
  | nil =>
      have none_free : control.memp_malloc prio = none := by
        simp [memp_malloc, Pool.malloc_eq_none free]
      rw [tcp_alloc, none_free, tcp_kill_timewait, next, free]
      cases old : control.oldest control.tcp_tw_pcbs 0 none with
      | some pcb =>
          have timewait := (oldest_mem old).resolve_right (by simp)
          simp [consistent.memp_malloc_tcp_abort free (.inr timewait)]
      | none =>
          cases least : control.leastActive prio control.tcp_active_pcbs TCP_PRIO_MAX 0 none with
          | some pcb =>
              have active := (leastActive_mem least).resolve_right (by simp)
              have killed : control.tcp_kill_prio prio = control.tcp_abort pcb := by
                rw [tcp_kill_prio, least]
              simp [none_free, killed, consistent.memp_malloc_tcp_abort free (.inl active)]
          | none =>
              have spared : control.tcp_kill_prio prio = control := by rw [tcp_kill_prio, least]
              simp [none_free, spared]

theorem not_bound_of_next {prio : ℕ} {pcb : PcbRef} (next : control.next prio = some pcb) :
    pcb ∉ control.tcp_bound_pcbs := by
  rcases free_or_connected next with ⟨free, blocks⟩ | ⟨-, connected⟩
  · exact fun bound => consistent.taken pcb (by simp [Control.listed, bound]) (by simp [blocks])
  · exact consistent.not_bound connected

theorem not_mem_tail {prio : ℕ} {pcb : PcbRef} (next : control.next prio = some pcb) :
    pcb ∉ control.pcbs.free.tail := by
  rcases free_or_connected next with ⟨free, blocks⟩ | ⟨empty, -⟩
  · have nodup := consistent.free
    rw [blocks] at nodup ⊢
    exact (List.nodup_cons.mp nodup).1
  · simp [empty]

/-- The block that was handed out is on no list, and the others stay where they are. -/
theorem mem_listed_handOut {prio : ℕ} {pcb : PcbRef} (next : control.next prio = some pcb)
    {cpcb : PcbRef} :
    cpcb ∈ (control.handOut prio pcb).listed ↔ cpcb ∈ control.listed ∧ cpcb ≠ pcb := by
  have nodup := consistent.listed
  rw [Control.listed, List.nodup_append', List.nodup_append'] at nodup
  have unbound := consistent.not_bound_of_next next
  simp only [Control.listed, handOut, List.mem_append, nodup.1.2.1.mem_erase_iff,
    nodup.2.1.mem_erase_iff]
  grind

end Consistent

end SeqDetect.Server.Control
