import TimedTasks.Demo
import TimedTasks.Proofs.Scheduler.Faults

/-!
# What a plan of the demonstration amounts to

The clock moves only when all is quiet, so that the plan says in advance when that is: as the burst
is queued, and after each move (`Plan.moments`).  The heartbeat runs once for the beginning and once
for each period that passes, and the poller as often as a walk through the quiet moments finds it
due (`Plan.polling`); with that, `Plan.Tells` is what a report has to tell.

The tasks have numbers in the order in which they are submitted (`Plan.submission`).
-/

namespace TimedTasks.Demo

variable {plan : Plan} {task : TaskId}

/-! ## The plan -/

/-- The task of a number. -/
def Plan.submission (plan : Plan) : TaskId → Submission Unit
  | 0 => answer
  | 1 => heartbeat plan
  | 2 => poller plan
  | index + 3 => burstTask index

/-- How far the clock is moved between the burst and the end. -/
def Plan.total (plan : Plan) : Nat := (plan.advances.map Span.nanos).sum

/-- The quiet moments, counted from the one at which the burst is queued. -/
def Plan.moments (plan : Plan) : List Nat :=
  plan.advances.scanl (fun moment move => moment + move.nanos) 0

/-- When the next poll is due, and how many there have been. -/
structure Polling where
  due : Nat
  polls : Nat
  deriving DecidableEq

/-- At a quiet moment there is one poll if it is due, and the next one is due a period later. -/
def Polling.look (period : Nat) (polling : Polling) (moment : Nat) : Polling :=
  if polling.due ≤ moment then ⟨moment + period, polling.polls + 1⟩ else polling

/-- A walk through all quiet moments. -/
def Plan.polling (plan : Plan) : Polling :=
  plan.moments.foldl (Polling.look plan.period.nanos) ⟨plan.period.nanos / 2, 0⟩

/-- Whether the burst is still waiting when the scheduler is told to stop at once. -/
def Plan.abandonsBurst (plan : Plan) : Bool := !plan.drain && plan.total < (Span.ofMillis 50).nanos

/-- All moments that the clock shows and at which a task is due can be represented. -/
structure Plan.Representable (plan : Plan) : Prop where
  clock : answerDelay.nanos + plan.total + lastAdvance.nanos < Moment.horizon
  heartbeat : answerDelay.nanos + (1 + plan.total / plan.period.nanos) * plan.period.nanos <
    Moment.horizon
  firstPolls : answerDelay.nanos + plan.period.nanos / 2 + plan.period.nanos < Moment.horizon
  polls : answerDelay.nanos + plan.polling.due < Moment.horizon

/-- What a report has to tell of a plan. -/
structure Plan.Tells (plan : Plan) (report : Report) : Prop where
  heartbeats_eq : report.heartbeats = 1 + plan.total / plan.period.nanos
  polls_eq : report.polls = plan.polling.polls
  failures_eq : report.failures = plan.polling.polls / 3
  admitted_eq : report.admitted = plan.burst
  rejected_eq : report.rejected = 0
  abandoned_eq : report.abandoned = if plan.abandonsBurst then 1 + plan.burst else 1
  stopped : report.snapshot.lifecycle = .stopped
  scheduled_eq : report.snapshot.metrics.scheduled = plan.burst + 3
  failed_eq : report.snapshot.metrics.failed = report.failures
  completed_eq : report.snapshot.metrics.completed =
    1 + report.heartbeats + report.polls - report.failures +
      if plan.abandonsBurst then 0 else plan.burst

/-- How many runs of the heartbeat can be ahead at once, besides the first. -/
def Plan.extra (plan : Plan) : Nat := (plan.total + lastAdvance.nanos) / plan.period.nanos

theorem Plan.pace_eq (plan : Plan) : plan.pace =
    12 * (plan.burst + plan.extra + 4) * (12 * (plan.burst + plan.extra + 4)) := by
  have hsum : ∀ (moves : List Span) (start : Nat),
      moves.foldl (fun total move => total + move.nanos) start =
        (moves.map Span.nanos).sum + start := by
    intro moves start
    induction moves generalizing start with
    | nil => exact (Nat.zero_add start).symm
    | cons move rest ih =>
        rw [List.foldl_cons, ih, List.map_cons, List.sum_cons]
        omega
  rw [pace, hsum, extra, total]

/-! ## The tasks -/

/-- The tasks by the part that they have in the plan. -/
@[elab_as_elim]
theorem task_cases {motive : TaskId → Prop} (answer : motive 0) (heartbeat : motive 1)
    (poller : motive 2) (burst : ∀ index, motive (index + 3)) : ∀ task, motive task
  | 0 => answer
  | 1 => heartbeat
  | 2 => poller
  | index + 3 => burst index

/-- The number of the poller. -/
def pollerId : TaskId := 2

theorem Plan.plain (plan : Plan) (task : TaskId) (run : Nat) :
    ((plan.submission task).script run).IsPlain := by
  cases task using task_cases with
  | answer | heartbeat | burst index => exact ⟨⟨rfl, rfl, rfl⟩, rfl⟩
  | poller =>
      show (if run % 3 = 0 then _ else idle : Turn Unit).IsPlain
      split <;> exact ⟨⟨rfl, rfl, rfl⟩, rfl⟩

/-- Only polls fail. -/
theorem Plan.faultless (plan : Plan) (hother : task ≠ pollerId) (run : Nat) :
    ((plan.submission task).script run).ending.error? = none := by
  cases task using task_cases with
  | answer | heartbeat | burst index => rfl
  | poller => exact absurd rfl hother

theorem Plan.valid (hperiod : 0 < plan.period.nanos) (task : TaskId) :
    (plan.submission task).schedule.period?.any Span.isZero = false := by
  cases task using task_cases with
  | answer | burst index => rfl
  | heartbeat | poller => exact beq_false_of_ne (Nat.ne_of_gt hperiod)

/-- The first letter of a task's name. -/
def initial : TaskId → Char
  | 0 => 'a'
  | 1 => 'h'
  | 2 => 'p'
  | _ + 3 => 'b'

theorem Plan.head?_name (plan : Plan) (task : TaskId) :
    (plan.submission task).name.toList.head? = some (initial task) := by
  cases task using task_cases with
  | answer | heartbeat | poller => simp [submission, answer, heartbeat, poller, initial]
  | burst index => simp [submission, burstTask, initial]

/-- Only the tasks of the burst have a letter in common. -/
theorem initial_inj {other : TaskId} (hother : other < 3) (hsame : initial task = initial other) :
    task = other := by
  match task, other with
  | 0, 0 | 1, 1 | 2, 2 => rfl
  | 0, 1 | 0, 2 | 1, 0 | 1, 2 | 2, 0 | 2, 1 | _ + 3, 0 | _ + 3, 1 | _ + 3, 2 =>
      exact absurd hsame (by simp [initial])
  | _, later + 3 => exact absurd hother (Nat.not_lt.mpr (Nat.le_add_left 3 later))

/-! ## Polls -/

theorem Polling.due_le_look (period : Nat) (polling : Polling) (moment : Nat) :
    polling.due ≤ (polling.look period moment).due := by
  rw [look]
  split
  · rename_i hdue
    exact Nat.le_trans hdue (Nat.le_add_right _ _)
  · exact Nat.le_refl _

theorem Polling.due_le_foldl (period : Nat) (moments : List Nat) (polling : Polling) :
    polling.due ≤ (moments.foldl (look period) polling).due := by
  induction moments generalizing polling with
  | nil => exact Nat.le_refl _
  | cons moment rest ih => exact Nat.le_trans (polling.due_le_look period moment) (ih _)

theorem Polling.due_le_walk (period : Nat) (polling : Polling) (moves : List Span) (moment : Nat) :
    (polling.look period moment).due ≤
      ((moves.scanl (fun moment move => moment + move.nanos) moment).foldl (look period)
        polling).due := by
  cases moves with
  | nil => exact Nat.le_refl _
  | cons move rest =>
      rw [List.scanl_cons, List.foldl_cons]
      exact due_le_foldl _ _ _

theorem faults_poller {record : Record Unit} (hscript : record.script = (poller plan).script)
    (count : Nat) : record.faults count = count / 3 := by
  induction count with
  | zero => rfl
  | succ count ih =>
      rw [Record.faults_succ, ih, hscript, Nat.succ_div]
      simp only [poller, Nat.dvd_iff_mod_eq_zero]
      split <;> rfl

end TimedTasks.Demo
