import Mathlib.Algebra.GroupWithZero.Nat
import TimedTasks.Proofs.Agenda

/-!
# Counting runs

The counters of a scheduler that have to do with runs are changed in one place: when a run has
ended and is settled (`Agenda.metrics_settle`).  A run that is counted is counted once as
completed or failed, and once under the mode of its task, so that the two ways of adding up the
runs agree (`Metrics.Consistent`).
-/

namespace TimedTasks

namespace Metrics

variable {metrics : Metrics}

/-- The runs of a mode. -/
def runsOf (metrics : Metrics) (mode : TaskMode) : Nat := (metrics.executions.get? mode).getD 0

theorem totalExecutions_eq (metrics : Metrics) :
    metrics.totalExecutions = (TaskMode.all.map metrics.runsOf).sum := by
  rw [totalExecutions, ByMode.toList]
  induction TaskMode.all with
  | nil => rfl
  | cons mode rest ih =>
      rw [List.map_cons, List.sum_cons, ← ih, runsOf]
      cases hruns : metrics.executions.get? mode with
      | none => simp [hruns]
      | some runs => simp [hruns]

theorem runsOf_recordRun (metrics : Metrics) (mode other : TaskMode) (duration : Span)
    (succeeded : Bool) :
    (metrics.recordRun mode duration succeeded).runsOf other =
      metrics.runsOf other + if other = mode then 1 else 0 := by
  by_cases hmode : other = mode
  · simp [runsOf, recordRun, hmode]
  · simp [runsOf, recordRun, hmode]

theorem totalExecutions_recordRun (metrics : Metrics) (mode : TaskMode) (duration : Span)
    (succeeded : Bool) :
    (metrics.recordRun mode duration succeeded).totalExecutions = metrics.totalExecutions + 1 := by
  rw [totalExecutions_eq, totalExecutions_eq]
  simp only [TaskMode.all, List.map_cons, List.map_nil, List.sum_cons, List.sum_nil,
    runsOf_recordRun]
  cases mode <;> simp <;> omega

/-- The counters of the runs agree with each other. -/
structure Consistent (metrics : Metrics) : Prop where
  total_eq : metrics.completed + metrics.failed = metrics.totalExecutions
  /-- A mode has been stamped if it has run. -/
  stamped_iff : ∀ mode, (metrics.stamped.get? mode).isSome = true ↔ 0 < metrics.runsOf mode
  /-- A mode has an average if it has run. -/
  average_iff : ∀ mode, (metrics.averages.get? mode).isSome = true ↔ 0 < metrics.runsOf mode

theorem consistent_new : ({} : Metrics).Consistent where
  total_eq := rfl
  stamped_iff := by intro mode; cases mode <;> decide
  average_iff := by intro mode; cases mode <;> decide

theorem Consistent.recordRun (hmetrics : metrics.Consistent) (mode : TaskMode) (duration : Span)
    (succeeded : Bool) : (metrics.recordRun mode duration succeeded).Consistent where
  total_eq := by
    have htotal := hmetrics.total_eq
    rw [totalExecutions_recordRun]
    cases succeeded <;> simp only [Metrics.recordRun, if_true, Bool.false_eq_true, if_false] <;>
      omega
  stamped_iff := by
    intro other
    rw [runsOf_recordRun]
    by_cases hmode : other = mode
    · simp [Metrics.recordRun, hmode]
    · simpa [Metrics.recordRun, hmode] using hmetrics.stamped_iff other
  average_iff := by
    intro other
    rw [runsOf_recordRun]
    by_cases hmode : other = mode
    · simp [Metrics.recordRun, hmode]
    · simpa [Metrics.recordRun, hmode] using hmetrics.average_iff other

theorem Consistent.of_eq {after : Metrics} (hmetrics : metrics.Consistent)
    (hcompleted : after.completed = metrics.completed) (hfailed : after.failed = metrics.failed)
    (hexecutions : after.executions = metrics.executions)
    (haverages : after.averages = metrics.averages) (hstamped : after.stamped = metrics.stamped) :
    after.Consistent where
  total_eq := by
    rw [hcompleted, hfailed, hmetrics.total_eq, totalExecutions, totalExecutions, hexecutions]
  stamped_iff := by
    intro mode
    rw [hstamped, hmetrics.stamped_iff, runsOf, runsOf, hexecutions]
  average_iff := by
    intro mode
    rw [haverages, hmetrics.average_iff, runsOf, runsOf, hexecutions]

end Metrics

namespace Agenda

variable {α : Type}

theorem metrics_report (agenda : Agenda α) (task : TaskId) (error : TaskError) :
    (agenda.report task error).metrics = agenda.metrics := by
  unfold report
  split <;> rfl

theorem metrics_attempt (agenda : Agenda α) (task : TaskId)
    (move : Record α → Option (Record α)) :
    (agenda.attempt task move).1.metrics = agenda.metrics := by
  unfold attempt
  split <;> rfl

theorem metrics_carryOut (agenda : Agenda α) (task : TaskId) (verdict : Verdict) :
    (agenda.carryOut task verdict).1.metrics = agenda.metrics := by
  cases verdict with
  | giveUp error => exact (metrics_attempt ..).trans (metrics_report ..)
  | finish outcome => exact metrics_attempt ..
  | rearm next =>
      simp only [carryOut, rearm]
      split <;> rfl

theorem metrics_account {agenda : Agenda α} {job : Job α} {record : Record α}
    (hrecord : agenda.records[job.task]? = some record) (completedAt : Moment)
    (error? : Option TaskError) :
    (agenda.account job completedAt error?).metrics =
      agenda.metrics.recordRun record.mode (completedAt.since job.startedAt) error?.isNone := by
  simp only [account, hrecord]
  cases error? with
  | none => rfl
  | some error => exact metrics_report ..

/-- A run that is settled is counted once. -/
theorem metrics_settle {agenda after : Agenda α} {job : Job α} {record : Record α}
    {completedAt : Moment} {error? : Option TaskError} {again : Bool}
    (hrecord : agenda.records[job.task]? = some record)
    (hsettle : agenda.settle job completedAt error? = (after, again)) :
    after.metrics =
      agenda.metrics.recordRun record.mode (completedAt.since job.startedAt) error?.isNone := by
  obtain rfl : (agenda.settle job completedAt error?).1 = after := congrArg Prod.fst hsettle
  simp only [settle, hrecord]
  exact (metrics_carryOut ..).trans (metrics_account hrecord ..)

end Agenda

end TimedTasks
