import SeqDetect.Server.Atomic

/-!
# Starting both servers

`start_apps` starts the two servers one after the other and does not look at what the starts
return.
-/

namespace SeqDetect.Server

open Memory Control

def SEND_SEQ : Bool := true

def SEND_DATA : Bool := true

/-- The state and the output that the two starts leave behind. -/
def start_apps (control : Control) : Control × String :=
  let seq : Control × String :=
    if SEND_SEQ then ((start_seqSend control).control, (start_seqSend control).printed)
    else (control, "")
  if SEND_DATA then
    ((start_dataSend seq.1).control, seq.2 ++ (start_dataSend seq.1).printed)
  else seq

/-- The server has a listening block with its callback, and its flag is set. -/
def Serves (port : Port) (control : Control) : Prop :=
  control.running port = 1 ∧ ∃ lpcb ∈ control.tcp_listen_pcbs,
    (control.listenPcbs.content lpcb).local_port = port.number ∧
      (control.listenPcbs.content lpcb).accept = .accept_callback port

/-- The stack has everything that a start takes. -/
def Startable (port : Port) (control : Control) : Prop :=
  ¬ control.Exhausted ∧ control.Available port.number ∧ control.listenPcbs.free ≠ []

namespace Control

variable {control : Control} {port other : Port}

theorem Port.number_injective : Function.Injective Port.number := by
  intro first second same
  cases first <;> cases second <;> simp_all [Port.number]

/-- A server depends on the listening blocks and the flags only. -/
theorem serves_congr {after : Control} (listening : after.tcp_listen_pcbs = control.tcp_listen_pcbs)
    (blocks : after.listenPcbs = control.listenPcbs) (running : after.running = control.running) :
    Serves port after ↔ Serves port control := by
  rw [Serves, Serves, listening, blocks, running]

namespace Consistent

variable (consistent : control.Consistent)
include consistent

/-- The new listening block serves its own port, and the others what they served before. -/
theorem serves_listens_iff {pcb : PcbRef} {lpcb : ListenRef} {free : List ListenRef}
    (blocks : control.listenPcbs.free = lpcb :: free) :
    Serves other (((control.handOut TCP_PRIO_NORMAL pcb).bound pcb port.number).listens
      port pcb lpcb) ↔ Serves other control ∨ other = port := by
  have unused : ∀ old ∈ control.tcp_listen_pcbs, old ≠ lpcb := by
    rintro old inside rfl
    exact consistent.takenListen old inside (by simp [blocks])
  by_cases same : other = port
  · subst same
    simp only [or_true, iff_true]
    refine ⟨by simp [Control.listens], lpcb, by simp [Control.listens], ?_⟩
    simp [Control.listens, Pool.store]
  · have numbers : ¬ port.number = other.number := fun equal =>
      same (Port.number_injective equal).symm
    rw [or_iff_left same, Serves, Serves]
    refine and_congr (by simp [Control.listens, Control.bound, Control.handOut, memp_free, same]) ?_
    simp only [Control.listens, memp_free, List.mem_cons, exists_eq_or_imp]
    simp only [Pool.store, Function.update_self, numbers, false_and, false_or]
    refine exists_congr fun old => and_congr_right fun inside => ?_
    rw [Function.update_of_ne (unused old inside)]
    rfl

theorem serves_start_iff (port other : Port) :
    Serves other (port.start control).control ↔
      Serves other control ∨ other = port ∧ Startable port control := by
  rw [port.start_eq]
  cases next : control.next TCP_PRIO_NORMAL with
  | none =>
      have exhausted := exhausted_iff.mpr next
      simp [consistent.start_exhausted port exhausted, Startable, exhausted]
  | some pcb =>
      have obtainable : ¬ control.Exhausted := by simp [exhausted_iff, next]
      by_cases available : control.Available port.number
      · cases blocks : control.listenPcbs.free with
        | nil =>
            have same : Serves other ((control.handOut TCP_PRIO_NORMAL pcb).bound pcb
                port.number) ↔ Serves other control := serves_congr rfl rfl rfl
            simp [(consistent.start_unlistened next available blocks).2, same, Startable, blocks]
        | cons lpcb free =>
            rw [(consistent.start_listens next available blocks).2,
              consistent.serves_listens_iff blocks]
            simp [Startable, obtainable, available, blocks]
      · have same : Serves other (control.handOut TCP_PRIO_NORMAL pcb) ↔ Serves other control :=
          serves_congr rfl rfl rfl
        simp [(consistent.start_inUse next available).2, same, Startable, available]

/-- The block that the first start has given back is the next one for the second. -/
theorem startable_after_start (apart : other ≠ port) (startable : Startable port control) :
    Startable other (port.start control).control ↔
      control.Available other.number ∧ 2 ≤ control.listenPcbs.free.length := by
  obtain ⟨obtainable, available, someFree⟩ := startable
  rw [exhausted_iff] at obtainable
  obtain ⟨pcb, next⟩ := Option.ne_none_iff_exists'.mp obtainable
  obtain ⟨lpcb, free, blocks⟩ := List.exists_cons_of_ne_nil someFree
  rw [port.start_eq, (consistent.start_listens next available blocks).2]
  set after := ((control.handOut TCP_PRIO_NORMAL pcb).bound pcb port.number).listens port pcb lpcb
    with after_eq
  have nextAfter : after.next TCP_PRIO_NORMAL = some pcb := rfl
  have spare : ¬ after.Exhausted := by simp [exhausted_iff, nextAfter]
  have freeAfter : after.listenPcbs.free = free := by
    simp [after_eq, Control.listens, Control.bound, Control.handOut, Pool.store, blocks]
  have listedAfter : ∀ cpcb, cpcb ∈ after.listed ↔ cpcb ∈ control.listed ∧ cpcb ≠ pcb := by
    intro cpcb
    rw [← consistent.mem_listed_handOut next]
    simp [after_eq, Control.listed, Control.listens, Control.bound, memp_free]
  have contentAfter : ∀ cpcb ≠ pcb,
      after.pcbs.content cpcb = control.pcbs.content cpcb := by
    intro cpcb different
    simp [after_eq, Control.listens, Control.bound, memp_free, Pool.release, Pool.store, different,
      Control.handOut]
  have unused : ∀ old ∈ control.tcp_listen_pcbs, old ≠ lpcb := by
    rintro old inside rfl
    exact consistent.takenListen old inside (by simp [blocks])
  have availableAfter : after.Available other.number ↔ control.Available other.number := by
    rw [Control.Available, Control.Available, nextAfter, next]
    have numbers : port.number ≠ other.number := fun equal =>
      apart (Port.number_injective equal).symm
    refine and_congr ?_ (forall_congr' fun cpcb => ?_)
    · simp only [after_eq, Control.listens, memp_free, List.forall_mem_cons, Pool.store]
      rw [Function.update_self]
      simp only [ne_eq, numbers, not_false_eq_true, true_and]
      refine forall₂_congr fun old inside => ?_
      rw [Function.update_of_ne (unused old inside)]
      rfl
    · rw [listedAfter, Option.some_inj]
      by_cases same : cpcb = pcb
      · simp [same]
      · simp [same, contentAfter cpcb same]
  rw [Startable, availableAfter, freeAfter, blocks, and_iff_right spare, List.length_cons,
    ← List.length_pos_iff]
  exact and_congr_right fun _ => by omega

end Consistent

end Control

/-- With no server running, `start_apps` brings up both exactly if there is a large block, both
ports are available, and there are two listening blocks. -/
theorem start_apps_serves_iff (stack : Stack) (down : ∀ port, ¬ Serves port stack.toControl) :
    (∀ port, Serves port (start_apps stack.toControl).1) ↔
      ¬ stack.Exhausted ∧ (∀ port : Port, stack.Available port.number) ∧
        2 ≤ stack.listenPcbs.free.length := by
  have consistent := stack.consistent
  have started : (start_apps stack.toControl).1 =
      (Port.data.start (Port.seq.start stack.toControl).control).control := rfl
  have first : Serves .seq (start_apps stack.toControl).1 ↔ Startable .seq stack.toControl := by
    rw [started, (consistent.start .seq).serves_start_iff, consistent.serves_start_iff]
    simp [down]
  have second : Serves .data (start_apps stack.toControl).1 ↔
      Startable .data (Port.seq.start stack.toControl).control := by
    rw [started, (consistent.start .seq).serves_start_iff, consistent.serves_start_iff]
    simp [down]
  have both : (∀ port, Serves port (start_apps stack.toControl).1) ↔
      Serves .seq (start_apps stack.toControl).1 ∧ Serves .data (start_apps stack.toControl).1 :=
    ⟨fun all => ⟨all .seq, all .data⟩, fun two port => by cases port; exacts [two.2, two.1]⟩
  have ports : (∀ port : Port, stack.Available port.number) ↔
      stack.Available Port.seq.number ∧ stack.Available Port.data.number :=
    ⟨fun all => ⟨all .seq, all .data⟩, fun two port => by cases port; exacts [two.2, two.1]⟩
  rw [both, ports, first, second]
  constructor
  · rintro ⟨startable, next⟩
    have rest := (consistent.startable_after_start (by decide) startable).mp next
    exact ⟨startable.1, ⟨startable.2.1, rest.1⟩, rest.2⟩
  · rintro ⟨obtainable, ⟨available, otherAvailable⟩, two⟩
    have startable : Startable .seq stack.toControl := by
      refine ⟨obtainable, available, ?_⟩
      rintro empty
      rw [empty] at two
      exact absurd two (by decide)
    exact ⟨startable, (consistent.startable_after_start (by decide) startable).mpr
      ⟨otherAvailable, two⟩⟩

/-- The stack after `lwip_init`. -/
def booted : Stack where
  pcbs := ⟨List.finRange MEMP_NUM_TCP_PCB, fun _ => freshPcb 0 0⟩
  listenPcbs := ⟨List.finRange MEMP_NUM_TCP_PCB_LISTEN, fun _ => ⟨0, 0, .tcp_accept_null⟩⟩
  tcp_bound_pcbs := []
  tcp_listen_pcbs := []
  tcp_active_pcbs := []
  tcp_tw_pcbs := []
  tcp_ticks := 0
  running := fun _ => 0
  consistent := by
    constructor <;> decide

theorem start_apps_serves_iff_booted :
    (∀ port, Serves port (start_apps booted.toControl).1) ↔
      ¬ booted.Exhausted ∧ (∀ port : Port, booted.Available port.number) ∧
        2 ≤ booted.listenPcbs.free.length :=
  start_apps_serves_iff booted fun port serves => by
    obtain ⟨lpcb, inside, -⟩ := serves.2
    exact absurd inside (by simp [booted])

end SeqDetect.Server
