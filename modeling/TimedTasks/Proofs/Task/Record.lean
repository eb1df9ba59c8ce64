import TimedTasks.Task.Record

/-!
# How records move

One lemma for each operation on a record says when it moves the record and where to.
`Record.Evolves` is what all of them have in common: the name, the schedule and the script
stay, runs are only ever added, a due time that can be represented gives way to another
such time only, and a settled record keeps its state.

What a verdict on a run does to the record is `Record.judged`.
-/

namespace TimedTasks

namespace Record

variable {α : Type}

theorem start?_eq_some {record moved : Record α} :
    record.start? = some moved ↔
      record.state = .pending ∧ moved = { record with state := .running } := by
  unfold start?
  split <;> simp_all [eq_comm]

theorem start?_eq_none {record : Record α} : record.start? = none ↔ record.state ≠ .pending := by
  unfold start?
  split <;> simp_all

theorem cancel?_eq_some {record moved : Record α} :
    record.cancel? = some moved ↔
      record.isDone = false ∧ moved = { record with state := .cancelled } := by
  unfold cancel? isDone
  split
  · rename_i hdone
    simp [hdone]
  · rename_i hlive
    rw [Bool.not_eq_true] at hlive
    simp [hlive, eq_comm]

theorem cancel?_eq_none {record : Record α} : record.cancel? = none ↔ record.isDone = true := by
  unfold cancel? isDone
  split <;> simp_all

theorem finish?_eq_some {record moved : Record α} {outcome : TaskState} :
    record.finish? outcome = some moved ↔
      record.state = .running ∧ moved = { record with state := outcome } := by
  unfold finish?
  split <;> simp_all [eq_comm]

theorem finish?_eq_none {record : Record α} {outcome : TaskState} :
    record.finish? outcome = none ↔ record.state ≠ .running := by
  unfold finish?
  split <;> simp_all

theorem answer?_eq_none {record : Record α} :
    record.answer? = none ↔ record.isPeriodic = false ∧ record.isDone = false := by
  cases hperiodic : record.isPeriodic with
  | true => simp [answer?, hperiodic]
  | false =>
      cases hdone : record.isDone with
      | false => simp [answer?, hperiodic, hdone]
      | true =>
          cases hcancelled : record.isCancelled with
          | true => simp [answer?, hperiodic, hdone, hcancelled]
          | false => simp [answer?, hperiodic, hdone, hcancelled]

theorem isDone_of_answer? {record : Record α} {result : Except TaskError α}
    (honce : record.isPeriodic = false) (hanswer : record.answer? = some result) :
    record.isDone = true := by
  cases hdone : record.isDone with
  | true => rfl
  | false =>
      rw [answer?_eq_none.mpr ⟨honce, hdone⟩] at hanswer
      simp at hanswer

theorem answer?_of_periodic {record : Record α} (hperiodic : record.isPeriodic = true) :
    record.answer? = some (.error .notOneShot) := by
  rw [answer?, if_pos hperiodic]

theorem answer?_of_cancelled {record : Record α} (honce : record.isPeriodic = false)
    (hcancelled : record.state = .cancelled) : record.answer? = some (.error .cancelled) := by
  simp [answer?, honce, isDone, isCancelled, hcancelled, TaskState.isTerminal]

theorem answer?_of_finished {record : Record α} (honce : record.isPeriodic = false)
    (hfinished : record.state = .completed ∨ record.state = .failed) :
    record.answer? = some (record.result?.getD (.error .cancelled)) := by
  rcases hfinished with hstate | hstate <;>
    simp [answer?, honce, isDone, isCancelled, hstate, TaskState.isTerminal]

/-- A task that is settled has come to its end by itself, or it has been cancelled. -/
theorem finished_or_cancelled {record : Record α} (hdone : record.isDone = true) :
    (record.state = .completed ∨ record.state = .failed) ∨ record.state = .cancelled := by
  cases hstate : record.state with
  | pending | running => simp [isDone, hstate, TaskState.isTerminal] at hdone
  | completed => exact Or.inl (Or.inl rfl)
  | failed => exact Or.inl (Or.inr rfl)
  | cancelled => exact Or.inr rfl

/-! ## What all moves have in common -/

/-- What a record may turn into in the course of time. -/
structure Evolves (before after : Record α) : Prop where
  name_eq : after.name = before.name
  schedule_eq : after.schedule = before.schedule
  script_eq : after.script = before.script
  runs_le : before.runs ≤ after.runs
  due : before.nextRunAt.isRepresentable = true → after.nextRunAt.isRepresentable = true
  state_eq : before.isDone = true → after.state = before.state

namespace Evolves

variable {first second third record : Record α}

theorem refl (record : Record α) : record.Evolves record :=
  ⟨rfl, rfl, rfl, Nat.le_refl _, id, fun _ => rfl⟩

theorem isDone (hevolves : first.Evolves second) (hdone : first.isDone = true) :
    second.isDone = true := by
  rw [Record.isDone, hevolves.state_eq hdone]
  exact hdone

theorem trans (hfirst : first.Evolves second) (hsecond : second.Evolves third) :
    first.Evolves third where
  name_eq := hsecond.name_eq.trans hfirst.name_eq
  schedule_eq := hsecond.schedule_eq.trans hfirst.schedule_eq
  script_eq := hsecond.script_eq.trans hfirst.script_eq
  runs_le := Nat.le_trans hfirst.runs_le hsecond.runs_le
  due := fun hdue => hsecond.due (hfirst.due hdue)
  state_eq := fun hdone =>
    (hsecond.state_eq (hfirst.isDone hdone)).trans (hfirst.state_eq hdone)

theorem isPeriodic_eq (hevolves : first.Evolves second) :
    second.isPeriodic = first.isPeriodic := by
  rw [Record.isPeriodic, hevolves.schedule_eq, ← Record.isPeriodic]

theorem of_live (hlive : record.isDone = false) (state : TaskState) :
    record.Evolves { record with state } :=
  ⟨rfl, rfl, rfl, Nat.le_refl _, id,
    fun hdone => absurd (hlive.symm.trans hdone) Bool.false_ne_true⟩

end Evolves

/-! ## Runs -/

theorem enter_of_periodic {record : Record α} (hperiodic : record.isPeriodic = true) :
    record.enter =
      ({ record with runs := record.runs + 1 },
        some (record.runs + 1, record.script (record.runs + 1))) :=
  if_pos hperiodic

theorem enter_of_spent {record : Record α} (honce : record.isPeriodic = false)
    (hspent : record.bodySpent = true) :
    record.enter = ({ record with runs := record.runs + 1 }, none) :=
  (if_neg (Bool.eq_false_iff.mp honce)).trans (if_pos hspent)

theorem enter_of_fresh {record : Record α} (honce : record.isPeriodic = false)
    (hfresh : record.bodySpent = false) :
    record.enter =
      ({ record with runs := record.runs + 1, bodySpent := true }, some (1, record.script 1)) :=
  (if_neg (Bool.eq_false_iff.mp honce)).trans (if_neg (Bool.eq_false_iff.mp hfresh))

theorem enter_fst (record : Record α) :
    ∃ bodySpent, record.enter.1 = { record with runs := record.runs + 1, bodySpent } := by
  cases hperiodic : record.isPeriodic with
  | true => exact ⟨record.bodySpent, congrArg Prod.fst (enter_of_periodic hperiodic)⟩
  | false =>
      cases hspent : record.bodySpent with
      | true => exact ⟨true, by rw [enter_of_spent hperiodic hspent, ← hspent]⟩
      | false => exact ⟨true, congrArg Prod.fst (enter_of_fresh hperiodic hspent)⟩

theorem enter_evolves (record : Record α) : record.Evolves record.enter.1 := by
  obtain ⟨bodySpent, henter⟩ := record.enter_fst
  rw [henter]
  exact ⟨rfl, rfl, rfl, Nat.le_succ _, id, fun _ => rfl⟩

theorem enter_body {record : Record α}
    (hbody : record.isPeriodic = false → record.bodySpent = false) :
    ∃ run turn, record.enter.2 = some (run, turn) := by
  cases hperiodic : record.isPeriodic with
  | true => exact ⟨_, _, congrArg Prod.snd (enter_of_periodic hperiodic)⟩
  | false => exact ⟨_, _, congrArg Prod.snd (enter_of_fresh hperiodic (hbody hperiodic))⟩

theorem run_of_enter {record : Record α} {run : Nat} {turn : Turn α}
    (hbody : record.enter.2 = some (run, turn))
    (hfresh : record.isPeriodic = false → record.runs = 0) : run = record.runs + 1 := by
  cases hperiodic : record.isPeriodic with
  | true =>
      rw [enter_of_periodic hperiodic] at hbody
      exact (congrArg Prod.fst (Option.some.inj hbody)).symm
  | false =>
      cases hspent : record.bodySpent with
      | true => simp [enter_of_spent hperiodic hspent] at hbody
      | false =>
          rw [enter_of_fresh hperiodic hspent] at hbody
          rw [hfresh hperiodic]
          exact (congrArg Prod.fst (Option.some.inj hbody)).symm

/-- A run does what the script says for some run. -/
theorem script_of_enter {record : Record α} {run : Nat} {turn : Turn α}
    (hbody : record.enter.2 = some (run, turn)) : record.script run = turn := by
  cases hperiodic : record.isPeriodic with
  | true =>
      rw [enter_of_periodic hperiodic] at hbody
      obtain ⟨rfl, rfl⟩ := Prod.mk.inj (Option.some.inj hbody)
      rfl
  | false =>
      cases hspent : record.bodySpent with
      | true => simp [enter_of_spent hperiodic hspent] at hbody
      | false =>
          rw [enter_of_fresh hperiodic hspent] at hbody
          obtain ⟨rfl, rfl⟩ := Prod.mk.inj (Option.some.inj hbody)
          rfl

theorem noteFailure_evolves (record : Record α) (error : TaskError) :
    record.Evolves (record.noteFailure error) :=
  ⟨rfl, rfl, rfl, Nat.le_refl _, id, fun _ => rfl⟩

theorem leave_eq (record : Record α) (ending : Ending α) :
    ∃ result? failures lastError?,
      record.leave ending = { record with result?, failures, lastError? } := by
  unfold leave
  dsimp only
  split
  · split <;> exact ⟨_, _, _, rfl⟩
  · split <;> exact ⟨_, _, _, rfl⟩

theorem leave_result? {record : Record α} (honce : record.isPeriodic = false)
    (ending : Ending α) : (record.leave ending).result? = some (resultOf ending) := by
  unfold leave
  rw [if_neg (Bool.eq_false_iff.mp honce)]
  cases ending <;> rfl

theorem leave_lastError? (record : Record α) (ending : Ending α) :
    (record.leave ending).lastError? = ending.error?.or record.lastError? := by
  unfold leave
  split
  · cases ending <;> rfl
  · cases ending <;> rfl

theorem leave_evolves (record : Record α) (ending : Ending α) :
    record.Evolves (record.leave ending) := by
  obtain ⟨result?, failures, lastError?, hleave⟩ := record.leave_eq ending
  rw [hleave]
  exact ⟨rfl, rfl, rfl, Nat.le_refl _, id, fun _ => rfl⟩

end Record

/-! ## Verdicts -/

/-- The state in which a verdict leaves a record that is running. -/
def Verdict.outcome : Verdict → TaskState
  | .giveUp _ => .failed
  | .finish outcome => outcome
  | .rearm _ => .pending

namespace Record

variable {α : Type}

/-- The record after a verdict on a run of the task, and whether the task is to go back into
the queue.  Only a record that is running changes its state; what else a verdict says is noted
in any case. -/
def judged (record : Record α) : Verdict → Record α × Bool
  | .giveUp error =>
      (((record.noteFailure error).finish? .failed).getD (record.noteFailure error), false)
  | .finish outcome => ((record.finish? outcome).getD record, false)
  | .rearm next => record.rearm next

theorem judged_eq_of_running {record : Record α} (hrunning : record.state = .running)
    (verdict : Verdict) :
    record.judged verdict =
      match verdict with
      | .giveUp error => ({ record.noteFailure error with state := .failed }, false)
      | .finish outcome => ({ record with state := outcome }, false)
      | .rearm next => ({ record with nextRunAt := next, state := .pending }, true) := by
  cases verdict with
  | giveUp error =>
      have hfinish : (record.noteFailure error).finish? .failed =
          some { record.noteFailure error with state := .failed } :=
        finish?_eq_some.mpr ⟨hrunning, rfl⟩
      rw [judged, hfinish, Option.getD_some]
  | finish outcome =>
      have hfinish : record.finish? outcome = some { record with state := outcome } :=
        finish?_eq_some.mpr ⟨hrunning, rfl⟩
      rw [judged, hfinish, Option.getD_some]
  | rearm next => simp [judged, rearm, hrunning]

theorem judged_eq_of_not_running {record : Record α} (hnot : record.state ≠ .running)
    (verdict : Verdict) :
    record.judged verdict =
      match verdict with
      | .giveUp error => (record.noteFailure error, false)
      | .finish _ => (record, false)
      | .rearm next => ({ record with nextRunAt := next }, false) := by
  cases verdict with
  | giveUp error =>
      have hfinish : (record.noteFailure error).finish? .failed = none := finish?_eq_none.mpr hnot
      rw [judged, hfinish, Option.getD_none]
  | finish outcome =>
      have hfinish : record.finish? outcome = none := finish?_eq_none.mpr hnot
      rw [judged, hfinish, Option.getD_none]
  | rearm next => simp [judged, rearm, hnot]

theorem judged_state (record : Record α) (verdict : Verdict) :
    (record.judged verdict).1.state =
      if record.state = .running then verdict.outcome else record.state := by
  by_cases hrunning : record.state = .running
  · rw [judged_eq_of_running hrunning, if_pos hrunning]
    cases verdict <;> rfl
  · rw [judged_eq_of_not_running hrunning, if_neg hrunning]
    cases verdict <;> rfl

/-- A verdict changes the due time only if there is to be another run. -/
theorem judged_nextRunAt (record : Record α) (verdict : Verdict) :
    (record.judged verdict).1.nextRunAt =
      match verdict with
      | .rearm next => next
      | _ => record.nextRunAt := by
  by_cases hrunning : record.state = .running
  · rw [judged_eq_of_running hrunning]
    cases verdict <;> rfl
  · rw [judged_eq_of_not_running hrunning]
    cases verdict <;> rfl

theorem judged_lastError? (record : Record α) (error : TaskError) :
    (record.judged (.giveUp error)).1.lastError? = some error := by
  by_cases hrunning : record.state = .running
  · rw [judged_eq_of_running hrunning]
    rfl
  · rw [judged_eq_of_not_running hrunning]
    rfl

theorem judged_result? (record : Record α) (verdict : Verdict) :
    (record.judged verdict).1.result? = record.result? := by
  by_cases hrunning : record.state = .running
  · rw [judged_eq_of_running hrunning]
    cases verdict <;> rfl
  · rw [judged_eq_of_not_running hrunning]
    cases verdict <;> rfl

theorem judged_finish_lastError? (record : Record α) (outcome : TaskState) :
    (record.judged (.finish outcome)).1.lastError? = record.lastError? := by
  by_cases hrunning : record.state = .running
  · rw [judged_eq_of_running hrunning]
  · rw [judged_eq_of_not_running hrunning]

@[simp] theorem judged_runs (record : Record α) (verdict : Verdict) :
    (record.judged verdict).1.runs = record.runs := by
  by_cases hrunning : record.state = .running
  · rw [judged_eq_of_running hrunning]
    cases verdict <;> rfl
  · rw [judged_eq_of_not_running hrunning]
    cases verdict <;> rfl

@[simp] theorem judged_schedule (record : Record α) (verdict : Verdict) :
    (record.judged verdict).1.schedule = record.schedule := by
  by_cases hrunning : record.state = .running
  · rw [judged_eq_of_running hrunning]
    cases verdict <;> rfl
  · rw [judged_eq_of_not_running hrunning]
    cases verdict <;> rfl

theorem judged_snd_eq_true {record : Record α} {verdict : Verdict} :
    (record.judged verdict).2 = true ↔
      record.state = .running ∧ ∃ next, verdict = .rearm next := by
  by_cases hrunning : record.state = .running
  · rw [judged_eq_of_running hrunning]
    cases verdict <;> simp [hrunning]
  · rw [judged_eq_of_not_running hrunning]
    cases verdict <;> simp [hrunning]

theorem judged_evolves (record : Record α) {verdict : Verdict}
    (hnext : ∀ next, verdict = .rearm next → next.isRepresentable = true) :
    record.Evolves (record.judged verdict).1 := by
  by_cases hrunning : record.state = .running
  · have hnot : record.isDone ≠ true := by rw [isDone, hrunning]; decide
    rw [judged_eq_of_running hrunning]
    cases verdict with
    | giveUp | finish => exact ⟨rfl, rfl, rfl, Nat.le_refl _, id, fun hdone => absurd hdone hnot⟩
    | rearm next =>
        exact ⟨rfl, rfl, rfl, Nat.le_refl _, fun _ => hnext next rfl,
          fun hdone => absurd hdone hnot⟩
  · rw [judged_eq_of_not_running hrunning]
    cases verdict with
    | giveUp error => exact record.noteFailure_evolves error
    | finish => exact .refl record
    | rearm next => exact ⟨rfl, rfl, rfl, Nat.le_refl _, fun _ => hnext next rfl, fun _ => rfl⟩

end Record

/-! ### Which verdicts there are -/

/-- A periodic task goes on as long as it can, unless a failure is to stop it: its next run is a
period after some moment. -/
theorem Schedule.verdict_of_after {schedule : Schedule} {base dueAt completedAt : Moment}
    {period : Span} (hnext : schedule.nextRun dueAt completedAt = after base period)
    (error? : Option TaskError) :
    schedule.verdict .keepGoing dueAt completedAt error? =
      match base.add? period with
      | some next => .rearm next
      | none => .giveUp (.outOfRange period) := by
  cases hadd : base.add? period with
  | some next => simp [verdict, hnext, after, hadd]
  | none => simp [verdict, hnext, after, hadd]

theorem Schedule.verdict_of_once {schedule : Schedule} (honce : schedule.isPeriodic = false)
    (policy : FailurePolicy) (dueAt completedAt : Moment) (error? : Option TaskError) :
    schedule.verdict policy dueAt completedAt error? =
      .finish (if error?.isNone then .completed else .failed) := by
  cases schedule with
  | oneShot => rfl
  | fixedRate | fixedDelay => exact absurd honce (by simp [isPeriodic, mode, TaskMode.isPeriodic])

theorem Schedule.periodic_of_verdict_rearm {schedule : Schedule} {policy : FailurePolicy}
    {dueAt completedAt next : Moment} {error? : Option TaskError}
    (hverdict : schedule.verdict policy dueAt completedAt error? = .rearm next) :
    schedule.isPeriodic = true := by
  cases schedule with
  | oneShot => simp [Schedule.verdict, Schedule.nextRun] at hverdict
  | fixedRate period | fixedDelay period => rfl

/-- There is another run only if its due time can be represented. -/
theorem Schedule.nextRun_of_verdict_rearm {schedule : Schedule} {policy : FailurePolicy}
    {dueAt completedAt next : Moment} {error? : Option TaskError}
    (hverdict : schedule.verdict policy dueAt completedAt error? = .rearm next) :
    schedule.nextRun dueAt completedAt = .ok (some next) := by
  unfold Schedule.verdict at hverdict
  split at hverdict
  · simp at hverdict
  · simp at hverdict
  · rename_i found hnext
    split at hverdict
    · simp at hverdict
    · obtain rfl := Verdict.rearm.inj hverdict
      exact hnext

/-- The next run is a period after the due time of the last one or after its completion. -/
theorem Schedule.add?_of_nextRun {schedule : Schedule} {dueAt completedAt next : Moment}
    (hnext : schedule.nextRun dueAt completedAt = .ok (some next)) :
    ∃ period base, schedule.period? = some period ∧ (base = dueAt ∨ base = completedAt) ∧
      base.add? period = some next := by
  have hafter : ∀ {base : Moment} {period : Span},
      Schedule.after base period = .ok (some next) → base.add? period = some next := by
    intro base period hafter
    unfold Schedule.after at hafter
    split at hafter
    · rename_i later hadd
      exact hadd.trans (congrArg some (Option.some.inj (Except.ok.inj hafter)))
    · simp at hafter
  cases schedule with
  | oneShot => simp [Schedule.nextRun] at hnext
  | fixedRate period => exact ⟨period, dueAt, rfl, Or.inl rfl, hafter hnext⟩
  | fixedDelay period => exact ⟨period, completedAt, rfl, Or.inr rfl, hafter hnext⟩

theorem Schedule.isRepresentable_of_verdict_rearm {schedule : Schedule} {policy : FailurePolicy}
    {dueAt completedAt next : Moment} {error? : Option TaskError}
    (hverdict : schedule.verdict policy dueAt completedAt error? = .rearm next) :
    next.isRepresentable = true := by
  obtain ⟨period, base, -, -, hadd⟩ := add?_of_nextRun (nextRun_of_verdict_rearm hverdict)
  exact Moment.isRepresentable_of_add? hadd

/-- A run is the last one only if the task has completed or failed. -/
theorem Schedule.eq_or_eq_of_verdict_finish {schedule : Schedule} {policy : FailurePolicy}
    {dueAt completedAt : Moment} {error? : Option TaskError} {outcome : TaskState}
    (hverdict : schedule.verdict policy dueAt completedAt error? = .finish outcome) :
    outcome = .completed ∨ outcome = .failed := by
  unfold Schedule.verdict at hverdict
  split at hverdict
  · simp at hverdict
  · obtain rfl := Verdict.finish.inj hverdict
    split
    · exact Or.inl rfl
    · exact Or.inr rfl
  · split at hverdict
    · exact Or.inr (Verdict.finish.inj hverdict).symm
    · simp at hverdict

theorem Schedule.outcome_verdict (schedule : Schedule) (policy : FailurePolicy)
    (dueAt completedAt : Moment) (error? : Option TaskError) :
    (schedule.verdict policy dueAt completedAt error?).outcome ≠ .cancelled ∧
      (schedule.verdict policy dueAt completedAt error?).outcome ≠ .running := by
  cases hverdict : schedule.verdict policy dueAt completedAt error? with
  | giveUp | rearm => exact ⟨by simp [Verdict.outcome], by simp [Verdict.outcome]⟩
  | finish outcome =>
      rcases eq_or_eq_of_verdict_finish hverdict with rfl | rfl <;>
        simp [Verdict.outcome]

end TimedTasks
