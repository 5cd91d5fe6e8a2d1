import Mathlib.Tactic

/-!
# The timer flags

The timer interrupt raises flags for the timers of the stack, at any moment between two
calls of the endless loop.  The loop neither calls these timers nor clears a flag.
-/

namespace SeqDetect.Server

/-- The timers of the stack. -/
inductive Timer where
  | tcp_fasttmr | tcp_slowtmr
  deriving DecidableEq, Repr

/-- The call that the endless loop makes next. -/
inductive Pc where
  | xemacif_input | transfer_seq | transfer_data
  deriving DecidableEq, Repr

structure Loop (Stack : Type) where
  TcpFastTmrFlag : ℤ
  TcpSlowTmrFlag : ℤ
  odd : ℤ
  pc : Pc
  stack : Stack
  /-- The calls of the timers so far. -/
  called : List Timer

namespace Loop

variable {Stack : Type}

def timer_callback (loop : Loop Stack) : Loop Stack :=
  let odd := if loop.odd = 0 then 1 else 0
  { loop with
    TcpFastTmrFlag := 1
    odd := odd
    TcpSlowTmrFlag := if odd ≠ 0 then 1 else loop.TcpSlowTmrFlag }

/-- The next call of `main`.  Both switches of `transfer_packets` are on, and what it calls
does nothing. -/
def main (xemacif_input : Stack → Stack) (loop : Loop Stack) : Loop Stack :=
  match loop.pc with
  | .xemacif_input => { loop with stack := xemacif_input loop.stack, pc := .transfer_seq }
  | .transfer_seq => { loop with pc := .transfer_data }
  | .transfer_data => { loop with pc := .xemacif_input }

/-- The state in which the loop is entered. -/
def entered (stack : Stack) : Loop Stack := ⟨0, 0, 1, .xemacif_input, stack, []⟩

end Loop

inductive Action where
  | timer | main
  deriving DecidableEq, Repr

section Run

variable {Stack : Type} (xemacif_input : Stack → Stack)

def act (loop : Loop Stack) : Action → Loop Stack
  | .timer => loop.timer_callback
  | .main => loop.main xemacif_input

def after (began : Loop Stack) (schedule : List Action) : Loop Stack :=
  schedule.foldl (act xemacif_input) began

/-- One iteration, up to and including its last call. -/
structure Iteration (began : Loop Stack) (during : List Action) : Prop where
  starts : began.pc = .xemacif_input
  calls : during.count .main = 3
  ends : during.getLast? = some .main

/-- The iteration called the timer. -/
def Calls (timer : Timer) (began : Loop Stack) (during : List Action) : Prop :=
  began.called.count timer < (after xemacif_input began during).called.count timer

/-- What has to happen in an iteration to the flag of one timer. -/
structure FlagServiced (timer : Timer) (flag : Loop Stack → ℤ) (raises : Loop Stack → Prop)
    (began : Loop Stack) (during : List Action) : Prop where
  /-- A flag from before the iteration is serviced in it and cleared. -/
  serviced : flag began ≠ 0 → Calls xemacif_input timer began during ∧
    (.timer ∉ during → flag (after xemacif_input began during) = 0)
  /-- A flag that is raised in the iteration is not lost. -/
  kept : ∀ front rest, during = front ++ .timer :: rest →
    raises (after xemacif_input began front) →
      flag (after xemacif_input began during) ≠ 0 ∨ Calls xemacif_input timer began during

/-- The fast timer is due on every tick, the slow one on every second tick. -/
structure Serviced (began : Loop Stack) (during : List Action) : Prop where
  fast : FlagServiced xemacif_input .tcp_fasttmr Loop.TcpFastTmrFlag (fun _ => True) began during
  slow : FlagServiced xemacif_input .tcp_slowtmr Loop.TcpSlowTmrFlag (fun loop => loop.odd = 0)
    began during

/-- Every complete iteration of the schedule is serviced. -/
def AllServiced (stack : Stack) (schedule : List Action) : Prop :=
  ∀ before during later, schedule = before ++ during ++ later →
    Iteration (after xemacif_input (.entered stack) before) during →
      Serviced xemacif_input (after xemacif_input (.entered stack) before) during

variable {xemacif_input} {began : Loop Stack} {schedule : List Action}

theorem after_append (first second : List Action) :
    after xemacif_input began (first ++ second) =
      after xemacif_input (after xemacif_input began first) second :=
  List.foldl_append

theorem called_act (action : Action) : (act xemacif_input began action).called = began.called := by
  cases action with
  | timer => rfl
  | main =>
      rw [act, Loop.main]
      cases began.pc <;> rfl

/-- No call of a timer is ever made. -/
theorem called_after : (after xemacif_input began schedule).called = began.called := by
  induction schedule using List.reverseRecOn with
  | nil => rfl
  | append_singleton schedule action inductionHypothesis =>
      rw [after_append, ← inductionHypothesis]
      exact called_act action

theorem not_calls (timer : Timer) : ¬ Calls xemacif_input timer began schedule := by
  rw [Calls, called_after]
  exact lt_irrefl _

/-- `main` leaves the flags alone. -/
theorem main_flags (xemacif_input : Stack → Stack) (loop : Loop Stack) :
    (loop.main xemacif_input).TcpFastTmrFlag = loop.TcpFastTmrFlag ∧
      (loop.main xemacif_input).TcpSlowTmrFlag = loop.TcpSlowTmrFlag ∧
      (loop.main xemacif_input).odd = loop.odd := by
  rw [Loop.main]
  cases loop.pc <;> exact ⟨rfl, rfl, rfl⟩

/-- A raised flag stays raised. -/
theorem flags_after_ne_zero :
    (began.TcpFastTmrFlag ≠ 0 → (after xemacif_input began schedule).TcpFastTmrFlag ≠ 0) ∧
      (began.TcpSlowTmrFlag ≠ 0 → (after xemacif_input began schedule).TcpSlowTmrFlag ≠ 0) := by
  induction schedule using List.reverseRecOn with
  | nil => exact ⟨id, id⟩
  | append_singleton schedule action inductionHypothesis =>
      rw [after_append]
      cases action with
      | timer =>
          refine ⟨fun _ => by simp [after, act, Loop.timer_callback], fun raised => ?_⟩
          have earlier := inductionHypothesis.2 raised
          simp only [after, List.foldl_cons, List.foldl_nil, act, Loop.timer_callback] at earlier ⊢
          split <;> simp_all
      | main =>
          have unchanged := main_flags xemacif_input (after xemacif_input began schedule)
          constructor
          · exact fun raised => unchanged.1 ▸ inductionHypothesis.1 raised
          · exact fun raised => unchanged.2.1 ▸ inductionHypothesis.2 raised

/-- Without a tick both flags are as they were. -/
theorem flags_of_not_mem (untimed : .timer ∉ schedule) :
    (after xemacif_input began schedule).TcpFastTmrFlag = began.TcpFastTmrFlag ∧
      (after xemacif_input began schedule).TcpSlowTmrFlag = began.TcpSlowTmrFlag := by
  induction schedule using List.reverseRecOn with
  | nil => exact ⟨rfl, rfl⟩
  | append_singleton schedule action inductionHypothesis =>
      rw [List.mem_append, not_or, List.mem_singleton] at untimed
      have earlier := inductionHypothesis untimed.1
      rw [after_append]
      cases action with
      | timer => exact absurd rfl untimed.2
      | main =>
          have unchanged := main_flags xemacif_input (after xemacif_input began schedule)
          exact ⟨unchanged.1.trans earlier.1, unchanged.2.1.trans earlier.2⟩

/-- A tick in the middle of a schedule leaves the flags up at its end. -/
theorem flags_after_tick (xemacif_input : Stack → Stack) (began : Loop Stack)
    (front rest : List Action) :
    (after xemacif_input began (front ++ .timer :: rest)).TcpFastTmrFlag ≠ 0 ∧
      ((after xemacif_input began front).odd = 0 →
        (after xemacif_input began (front ++ .timer :: rest)).TcpSlowTmrFlag ≠ 0) := by
  rw [List.append_cons, after_append, after_append]
  constructor
  · apply flags_after_ne_zero.1
    simp [after, act, Loop.timer_callback]
  · intro due
    apply flags_after_ne_zero.2
    rw [after, List.foldl_cons, List.foldl_nil, act, Loop.timer_callback, due]
    simp

/-- No flag is up before the first tick. -/
theorem not_pending_entered (xemacif_input : Stack → Stack) (stack : Stack)
    (untimed : .timer ∉ schedule) :
    (after xemacif_input (.entered stack) schedule).TcpFastTmrFlag = 0 ∧
      (after xemacif_input (.entered stack) schedule).TcpSlowTmrFlag = 0 :=
  flags_of_not_mem untimed

/-- What is raised in an iteration stays raised, since nothing clears it. -/
theorem serviced_of_not_pending (fast : began.TcpFastTmrFlag = 0)
    (slow : began.TcpSlowTmrFlag = 0) : Serviced xemacif_input began schedule where
  fast :=
    { serviced := fun pending => absurd fast pending
      kept := fun front rest split _ => .inl (split ▸ (flags_after_tick _ _ front rest).1) }
  slow :=
    { serviced := fun pending => absurd slow pending
      kept := fun front rest split due => .inl (split ▸ (flags_after_tick _ _ front rest).2 due) }

/-- One iteration is serviced exactly if there was no tick before it. -/
theorem serviced_iff {stack : Stack} {before : List Action} :
    Serviced xemacif_input (after xemacif_input (.entered stack) before) schedule ↔
      .timer ∉ before := by
  constructor
  · intro serviced ticked
    obtain ⟨front, rest, rfl⟩ := List.append_of_mem ticked
    have pending := (flags_after_tick xemacif_input (.entered stack) front rest).1
    exact not_calls .tcp_fasttmr (serviced.fast.serviced pending).1
  · intro untimed
    have idle := not_pending_entered xemacif_input stack untimed
    exact serviced_of_not_pending idle.1 idle.2

/-- The loop services the flags of a schedule exactly if none of its complete iterations
begins after a tick. -/
theorem allServiced_iff (stack : Stack) (schedule : List Action) :
    AllServiced xemacif_input stack schedule ↔
      ∀ before during later, schedule = before ++ during ++ later →
        Iteration (after xemacif_input (.entered stack) before) during → .timer ∉ before := by
  refine forall_congr' fun before => forall_congr' fun during => forall_congr' fun later => ?_
  exact imp_congr_right fun _ => imp_congr_right fun _ => serviced_iff

/-- One tick before the first iteration is never serviced. -/
theorem tick_unserviced : ¬ AllServiced (id : Unit → Unit) () [.timer, .main, .main, .main] := by
  intro all
  have iteration : Iteration (after id (.entered ()) [.timer]) [.main, .main, .main] :=
    ⟨by decide, by decide, by decide⟩
  have serviced := all [.timer] [.main, .main, .main] [] rfl iteration
  exact not_calls .tcp_fasttmr (serviced.fast.serviced (by decide)).1

end Run

end SeqDetect.Server
