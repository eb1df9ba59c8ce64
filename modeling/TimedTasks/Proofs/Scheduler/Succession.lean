import TimedTasks.Proofs.Scheduler.Cancelling
import TimedTasks.Proofs.Scheduler.Failures

/-!
# How the runs of a task follow each other

Each run of a task is settled once, and the verdict on it says whether there is another one, and
when.  So the runs make a chain (`Chain`): they are due when the verdicts say, all of them but the
last have been followed by the verdict that there is to be another one, and after a last run the
task is over.

A task is due when the last verdict has said, and nothing else ever moves its due time.  That the
verdict could not be carried out makes no difference: the due time is set before anybody looks
whether the task is still running.  So a task that has been cancelled during a run, or that the
queue does not take back, is left with the due time of a run that never takes place
(`Run.due_after_last_run`).
-/

namespace TimedTasks

/-- The next run is ruled out by the end of time, or by a failure. -/
theorem Schedule.verdict_ne_rearm_iff {schedule : Schedule} {policy : FailurePolicy}
    {dueAt completedAt : Moment} {error? : Option TaskError} :
    (∀ next, schedule.verdict policy dueAt completedAt error? ≠ .rearm next) ↔
      (∀ next, schedule.nextRun dueAt completedAt ≠ .ok (some next)) ∨
        error?.isSome = true ∧ policy = .stop := by
  unfold verdict
  split <;> rename_i hnext
  · simp [hnext]
  · simp [hnext]
  · split <;> rename_i hstop <;> simp [hnext, hstop]

/-- A verdict that does not find the task running notes what it has to say, and moves nothing
else. -/
theorem Record.rearm_eq_false_iff {α : Type} {record later : Record α} {next : Moment} :
    record.rearm next = (later, false) ↔
      record.state ≠ .running ∧ later = { record with nextRunAt := next } := by
  by_cases hrunning : record.state = .running
  · simp [rearm, hrunning]
  · simp [rearm, hrunning, eq_comm]

/-- A run of a task that has been settled. -/
structure Settlement (α : Type) where
  /-- The record of the task as it was just before. -/
  record : Record α
  completedAt : Moment
  /-- The error with which the body has ended. -/
  error? : Option TaskError
  verdict : Verdict

namespace Settlement

variable {α : Type}

/-- When the run was due. -/
def due (settlement : Settlement α) : Moment := settlement.record.nextRunAt

/-- When the task is due after the run. -/
def next (settlement : Settlement α) : Moment :=
  match settlement.verdict with
  | .rearm next => next
  | .giveUp _ | .finish _ => settlement.due

/-- The record of the task just after the run has been settled. -/
def judged (settlement : Settlement α) : Record α :=
  (settlement.record.judged settlement.verdict).1

/-- There is not to be another run. -/
def IsLast (settlement : Settlement α) : Prop := ∀ next, settlement.verdict ≠ .rearm next

/-- A run is settled while it is in progress and not before it was due, with the verdict that the
schedule of the task and the policy ask for. -/
structure IsProper (policy : FailurePolicy) (schedule : Schedule) (settlement : Settlement α) :
    Prop where
  isBusy : settlement.record.IsBusy
  schedule_eq : settlement.record.schedule = schedule
  due_le : settlement.due ≤ settlement.completedAt
  verdict_eq : settlement.verdict =
    schedule.verdict policy settlement.due settlement.completedAt settlement.error?

theorem next_of_isLast {settlement : Settlement α} (hlast : settlement.IsLast) :
    settlement.next = settlement.due := by
  unfold next
  split
  · exact absurd ‹_› (hlast _)
  · rfl
  · rfl

theorem judged_nextRunAt (settlement : Settlement α) :
    settlement.judged.nextRunAt = settlement.next := by
  rw [judged, Record.judged_nextRunAt, next]
  cases settlement.verdict <;> rfl

theorem judged_state (settlement : Settlement α) :
    settlement.judged.state =
      if settlement.record.state = .running then settlement.verdict.outcome
      else settlement.record.state :=
  Record.judged_state ..

variable {policy : FailurePolicy} {schedule : Schedule} {settlement : Settlement α}

/-- The task goes on with another run, unless it has been cancelled in the meantime. -/
theorem IsProper.isDone_judged (hproper : settlement.IsProper policy schedule) :
    settlement.judged.isDone = true ↔
      settlement.IsLast ∨ settlement.record.state = .cancelled := by
  rw [Record.isDone, settlement.judged_state]
  rcases hproper.isBusy with hrunning | hcancelled
  · rw [if_pos hrunning, IsLast, hrunning]
    cases hfound : settlement.verdict with
    | giveUp error => simp [Verdict.outcome, TaskState.isTerminal]
    | finish outcome =>
        rcases Schedule.eq_or_eq_of_verdict_finish (hproper.verdict_eq.symm.trans hfound) with
          rfl | rfl <;> simp [Verdict.outcome, TaskState.isTerminal]
    | rearm next => simp [Verdict.outcome, TaskState.isTerminal]
  · simp [hcancelled, TaskState.isTerminal]

theorem IsProper.due_lt_next (hproper : settlement.IsProper policy schedule)
    (hperiod : schedule.period?.any Span.isZero = false) (hagain : ¬ settlement.IsLast) :
    settlement.due < settlement.next := by
  obtain ⟨next, hverdict⟩ := not_forall_not.mp hagain
  rw [Settlement.next, hverdict]
  exact Schedule.lt_of_verdict_rearm hperiod hproper.due_le
    (hproper.verdict_eq.symm.trans hverdict)

end Settlement

namespace Scheduler

variable {α : Type} {origin before after scheduler : Scheduler α} {action : Action α}
variable {config : Config} {cores : Nat} {past : List (Scheduler α × Action α)} {task : TaskId}
variable {settlement : Settlement α}

/-! ## Runs that have been settled -/

/-- The run of a task that is settled with an action, if there is one. -/
def settlement? (scheduler : Scheduler α) (action : Action α) (task : TaskId) :
    Option (Settlement α) :=
  match scheduler.settles? action, scheduler.record? task with
  | some (settled, error?, verdict), some record =>
    if settled = task then some ⟨record, scheduler.agenda.reading, error?, verdict⟩ else none
  | _, _ => none

/-- The runs of a task that have been settled, the oldest first. -/
def settlements (past : List (Scheduler α × Action α)) (task : TaskId) : List (Settlement α) :=
  (past.filterMap fun step => step.1.settlement? step.2 task).reverse

theorem settlements_of_some (hsettlement : before.settlement? action task = some settlement) :
    settlements ((before, action) :: past) task = settlements past task ++ [settlement] := by
  simp only [settlements, List.filterMap_cons, hsettlement, List.reverse_cons]

theorem settlements_of_none (hnone : before.settlement? action task = none) :
    settlements ((before, action) :: past) task = settlements past task := by
  simp only [settlements, List.filterMap_cons, hnone]

theorem settlement?_eq_some :
    before.settlement? action task = some settlement ↔
      before.settles? action = some (task, settlement.error?, settlement.verdict) ∧
        before.record? task = some settlement.record ∧
        settlement.completedAt = before.agenda.reading := by
  unfold settlement?
  obtain ⟨record, completedAt, error?, verdict⟩ := settlement
  cases hsettles : before.settles? action with
  | none => simp
  | some settled =>
      obtain ⟨moved, found?, found⟩ := settled
      cases hrecord : before.record? task with
      | none => simp
      | some same =>
          by_cases htask : moved = task
          · simp [htask, eq_comm, and_comm, and_left_comm]
          · simp [htask]

theorem settlement?_of_none (hnone : before.record? task = none) :
    before.settlement? action task = none := by
  refine Option.eq_none_iff_forall_ne_some.mpr fun settlement hsettlement => ?_
  obtain ⟨-, hrecord, -⟩ := settlement?_eq_some.mp hsettlement
  exact absurd (hnone.symm.trans hrecord) (by simp)

/-- A step that completes a run settles it. -/
theorem Sound.exists_settlement (hsound : before.Sound)
    (hcompletes : before.completes? action = some task) :
    ∃ settlement, before.settlement? action task = some settlement := by
  obtain ⟨worker, job, error?, rfl, hfind, hstage, hreadable, rfl⟩ :=
    exists_job_of_completes hcompletes
  have hjob := List.mem_of_find?_eq_some hfind
  obtain ⟨record, hrecord⟩ := (hsound.custody.fitsAt_of_mem (mem_tasksAt_place hjob)).exists_record
  refine ⟨⟨record, before.agenda.reading, error?, record.schedule.verdict before.agenda.policy
    job.dueAt before.agenda.reading error?⟩, settlement?_eq_some.mpr ⟨?_, hrecord, rfl⟩⟩
  simp only [settles?, hfind, hstage, hrecord, hreadable, if_true]

/-! ## Tasks that are gone -/

/-- The task is over, and the queue does not have it either. -/
structure Gone (task : TaskId) (scheduler : Scheduler α) (record : Record α) : Prop
    extends IsOver task scheduler record where
  accepted : task ∈ scheduler.accepted
  not_queued : task ∉ scheduler.agenda.queue.tasks

theorem Move.not_queued (hmove : Move origin action before after) (hsound : before.Sound)
    (haccepted : task ∈ before.accepted) (hnot : task ∉ before.agenda.queue.tasks)
    {record later : Record α} (hrecord : before.record? task = some record)
    (hlater : after.record? task = some later) (hdone : later.isDone = true)
    (hcancelled : later.state = .cancelled → record.state = .cancelled) :
    task ∉ after.agenda.queue.tasks := by
  intro hqueued
  rcases hmove.queued_cases hsound hqueued with hold | hnew | hlive
  · exact hnot hold
  · exact hnew haccepted
  · have hmem : task ∈ after.tasksAt .queued := hqueued
    obtain ⟨-, hfits⟩ := (hmove.sound hsound).custody.fitsAt_of_mem hmem
    obtain ⟨hidle, -⟩ := hfits.holds hlater
    rcases hidle with hpending | hstate
    · rw [Record.isDone, hpending] at hdone
      exact absurd hdone (by decide)
    · rw [cancelledOf_of_cancelled ⟨record, hrecord, hcancelled hstate⟩] at hlive
      exact Bool.false_ne_true hlive.symm

theorem Gone.of_move {record later : Record α} (hgone : Gone task before record)
    (hmove : Move origin action before after) (hsound : before.Sound)
    (hrecord : before.record? task = some record) (hlater : after.record? task = some later)
    (hevolves : record.Evolves later) : Gone task after later where
  toIsOver := hgone.toIsOver.of_move hmove hsound hrecord hevolves
  accepted := hmove.accepted_subset hgone.accepted
  not_queued := by
    refine hmove.not_queued hsound hgone.accepted hgone.not_queued hrecord hlater
      (hevolves.isDone hgone.isDone) fun hcancelled => ?_
    rw [← hevolves.state_eq hgone.isDone, hcancelled]

theorem Gone.of_step {record later : Record α} (hgone : Gone task before record)
    (hsound : before.Sound) (hstep : before.step action = some after)
    (hrecord : before.record? task = some record) (hlater : after.record? task = some later) :
    Gone task after later := by
  have hafter : after.Has task (Gone task after) := by
    refine Scheduler.of_step (p := fun state => state.Has task (Gone task state)) hsound hstep
      ⟨record, hrecord, hgone⟩ ?_
    rintro current next hcurrent ⟨found, hfound, hgone⟩ hmove
    obtain ⟨moved, hmoved, hevolves⟩ := hmove.recordsEvolve hcurrent.custody task found hfound
    exact ⟨moved, hmoved, hgone.of_move hmove hcurrent hfound hmoved hevolves⟩
  exact hafter.holds hlater

/-- What a step does that settles a run of a task. -/
structure Settled (policy : FailurePolicy) (task : TaskId) (before : Scheduler α)
    (settlement : Settlement α) (after : Scheduler α) : Prop where
  record_eq : before.record? task = some settlement.record
  proper : settlement.IsProper policy settlement.record.schedule
  judged_eq : after.record? task = some settlement.judged
  schedule_eq : settlement.judged.schedule = settlement.record.schedule
  starts_eq : after.agenda.starts task = before.agenda.starts task
  one : before.inProgress task = 1
  zero : after.inProgress task = 0
  gone : settlement.judged.isDone = true → Gone task after settlement.judged

theorem Reachable.settled_of_step (hreachable : Reachable config cores before)
    (hstep : before.step action = some after)
    (hsettlement : before.settlement? action task = some settlement) :
    Settled config.policy task before settlement after := by
  have hsound := hreachable.sound
  obtain ⟨hsettles, hrecord, hcompleted⟩ := settlement?_eq_some.mp hsettlement
  obtain ⟨worker, job, record, rfl, hfind, rfl, hstage, -, hsame, hverdict⟩ :=
    exists_job_of_settles hsettles
  obtain rfl := Option.some.inj (hsame.symm.trans hrecord)
  have hjob := List.mem_of_find?_eq_some hfind
  have hplace : job.place = .running := by rw [Job.place, hstage]
  -- The step is a single move, the one that settles the run of this job.
  obtain ⟨hsettling, hmove, hsettled⟩ := hsound.judged_of_settles hstep hsettles hrecord
  have hrunning : job.task ∈ before.tasksAt .running := hplace ▸ mem_tasksAt_place hjob
  obtain ⟨haccepted, hfits⟩ := hsound.custody.fitsAt_of_mem hrunning
  obtain ⟨hbusy, -⟩ := hfits.holds hrecord
  obtain ⟨hdueAt, hnow⟩ := hreachable.punctual.job job hjob hplace
  rw [dueOf_eq_nextRunAt hrecord] at hdueAt
  have hproper : settlement.IsProper config.policy settlement.record.schedule := by
    refine ⟨hbusy, rfl, ?_, ?_⟩
    · rw [hcompleted, Settlement.due, ← hdueAt]
      exact hnow
    · rw [← hverdict, hcompleted, hreachable.policy_eq, hdueAt]
      rfl
  have hisOver : settlement.judged.isDone = true → IsOver job.task after settlement.judged :=
    hsettling.isOver hmove hsound ⟨_, hrecord, hbusy⟩
  obtain ⟨-, -, -, -, -, hone, hzero⟩ := hsettling
  refine ⟨hrecord, hproper, hsettled, settlement.record.judged_schedule _, ?_, hone, hzero,
    fun hdone => ⟨hisOver hdone, hmove.accepted_subset haccepted, ?_⟩⟩
  · rcases hreachable.enters_of_step hstep with hbodies | ⟨_, _, _, _, henters, -⟩
    · rw [Agenda.starts, hbodies, Agenda.starts]
    · obtain ⟨position, hcause⟩ := henters.cause
      simp at hcause
  · have hnot := hsound.custody.not_mem_of_mem hrunning (by decide : Place.running ≠ .queued)
    refine hmove.not_queued hsound haccepted hnot hrecord hsettled hdone fun hcancelled => ?_
    rw [Record.judged_state] at hcancelled
    split at hcancelled
    · rw [hproper.verdict_eq] at hcancelled
      exact absurd hcancelled (Schedule.outcome_verdict ..).1
    · exact hcancelled

theorem Reachable.rests_of_step (hreachable : Reachable config cores before)
    (hstep : before.step action = some after) (hnone : before.settlement? action task = none) :
    Rests before after task := by
  refine hreachable.sound.rests_of_step hstep fun hcompletes => ?_
  obtain ⟨settlement, hsome⟩ := hreachable.sound.exists_settlement hcompletes
  exact absurd (hnone.symm.trans hsome) (by simp)

/-! ## Tasks that have come to their end by themselves -/

/-- A task comes to its end by itself only with a run. -/
structure EndsWithRun (scheduler : Scheduler α) : Prop where
  tallied : scheduler.Tallied
  inProgress_le : ∀ task, scheduler.inProgress task ≤ scheduler.agenda.entries task
  runs_pos : ∀ task record, scheduler.record? task = some record →
    record.state = .completed ∨ record.state = .failed → 0 < record.runs

theorem Move.endsWithRun (hmove : Move origin action before after) (hsound : before.Sound)
    (hends : before.EndsWithRun) : after.EndsWithRun where
  tallied := fun task => (hmove.fate hsound.custody task).tallied (hends.tallied task)
  inProgress_le := fun task => hmove.inProgress_le hsound (hends.inProgress_le task)
  runs_pos := by
    intro task later hlater hfinished
    cases hrecord : before.record? task with
    | none =>
        obtain ⟨submission, due, -, -, rfl⟩ :=
          (hmove.fate hsound.custody task).submitted hrecord hlater
        simp [Submission.record] at hfinished
    | some record =>
        obtain ⟨found, hfound, hevolves⟩ := hmove.recordsEvolve hsound.custody task record hrecord
        obtain rfl := Option.some.inj (hfound.symm.trans hlater)
        rcases hmove.settling_or_rests hsound task with ⟨-, -, -, -, -, hone, -⟩ | hrests
        · have hentries := hends.tallied task
          rw [hrecord] at hentries
          calc 0 < before.inProgress task := hone ▸ Nat.one_pos
            _ ≤ before.agenda.entries task := hends.inProgress_le task
            _ = record.runs := hentries
            _ ≤ found.runs := hevolves.runs_le
        · obtain ⟨same, hsame, hrest⟩ := hrests.record record hrecord
          obtain rfl := Option.some.inj (hsame.symm.trans hfound)
          obtain rfl := hrest.finished hfinished
          exact hends.runs_pos task same hrecord hfinished

theorem Reachable.endsWithRun (hreachable : Reachable config cores scheduler) :
    scheduler.EndsWithRun := by
  refine hreachable.induction_on_moves (fun first hcreated => ?_)
    fun _ _ _ _ hsound hends hmove => hmove.endsWithRun hsound hends
  have hfirst : Reachable config cores first := .start hcreated
  refine ⟨hfirst.tallied, hfirst.inProgress_le, fun task record hrecord => ?_⟩
  obtain ⟨hnone, -⟩ := Prod.mk.inj (standing_new hcreated task)
  exact absurd (hnone.symm.trans hrecord) (by simp)

/-! ## The chain of runs -/

/-- A step starts no run of a task, or one that is due when its record says. -/
theorem Reachable.starts_of_step (hreachable : Reachable config cores before)
    (hstep : before.step action = some after) {record : Record α}
    (hrecord : before.record? task = some record) :
    after.agenda.starts task = before.agenda.starts task ∨
      task ∈ before.backlog ∧ after.agenda.starts task =
        before.agenda.starts task ++ [⟨record.nextRunAt, before.agenda.reading⟩] := by
  rcases hreachable.enters_of_step hstep with hbodies | ⟨moved, entered, run, worker, henters, -⟩
  · left
    rw [Agenda.starts, hbodies, Agenda.starts]
  · have hstarts := Agenda.starts_of_entered henters.bodies_eq task
    by_cases htask : moved = task
    · subst htask
      obtain rfl := Option.some.inj (hrecord.symm.trans henters.record_eq)
      rw [if_pos rfl] at hstarts
      exact Or.inr ⟨henters.mem, hstarts⟩
    · rw [if_neg htask, List.append_nil] at hstarts
      exact Or.inl hstarts

/-- Where a task stands after the runs that have been settled. -/
structure Chain (policy : FailurePolicy) (past : List (Scheduler α × Action α)) (task : TaskId)
    (scheduler : Scheduler α) (record : Record α) : Prop where
  /-- What has been entered has been settled, or it is in progress. -/
  dues_eq : (scheduler.agenda.starts task).map Start.due =
    (settlements past task).map Settlement.due ++
      List.replicate (scheduler.inProgress task) record.nextRunAt
  proper : ∀ settlement ∈ settlements past task, settlement.IsProper policy record.schedule
  next_eq : ∀ settlement, (settlements past task).getLast? = some settlement →
    record.nextRunAt = settlement.next
  /-- Nothing comes after a run with which the task is done. -/
  done : ∀ earlier settlement later, settlements past task = earlier ++ settlement :: later →
    settlement.judged.isDone = true →
      later = [] ∧ Gone task scheduler record ∧ record.state = settlement.judged.state
  finished : record.state = .completed ∨ record.state = .failed →
    ∃ settlement, (settlements past task).getLast? = some settlement ∧ settlement.IsLast

namespace Chain

variable {policy : FailurePolicy} {record : Record α}

theorem settled (hchain : Chain policy past task before record)
    (hrecord : before.record? task = some record)
    (hsettlement : before.settlement? action task = some settlement)
    (hsettled : Settled policy task before settlement after) :
    Chain policy ((before, action) :: past) task after settlement.judged := by
  obtain rfl := Option.some.inj (hrecord.symm.trans hsettled.record_eq)
  have hsettlements : settlements ((before, action) :: past) task =
      settlements past task ++ [settlement] := settlements_of_some hsettlement
  refine ⟨?_, fun found hfound => ?_, fun found hfound => ?_,
    fun earlier found later hsplit hdone => ?_, fun hfinished => ⟨settlement, ?_, fun next => ?_⟩⟩
  · rw [hsettlements, hsettled.starts_eq, hchain.dues_eq, hsettled.one, hsettled.zero,
      List.map_append, List.replicate_zero, List.append_nil]
    rfl
  · rw [hsettled.schedule_eq]
    rw [hsettlements] at hfound
    rcases List.mem_append.mp hfound with hold | hnew
    · exact hchain.proper found hold
    · obtain rfl := List.mem_singleton.mp hnew
      exact hsettled.proper
  · rw [hsettlements, List.getLast?_concat] at hfound
    rw [← Option.some.inj hfound, settlement.judged_nextRunAt]
  · rw [hsettlements] at hsplit
    rcases List.eq_nil_or_concat later with rfl | ⟨others, final, rfl⟩
    · obtain ⟨-, hsame⟩ := List.append_inj' hsplit rfl
      obtain rfl := List.singleton_inj.mp hsame
      exact ⟨rfl, hsettled.gone hdone, rfl⟩
    · -- A task that is over has no run in progress that could be settled.
      have hsplit : settlements past task ++ [settlement] =
          (earlier ++ found :: others) ++ [final] := by
        rw [hsplit, List.append_assoc, List.cons_append, List.concat_eq_append]
      obtain ⟨-, hgone, -⟩ := hchain.done _ _ _ (List.append_inj' hsplit rfl).1 hdone
      exact absurd (hsettled.one.symm.trans hgone.inProgress_eq) Nat.one_ne_zero
  · rw [hsettlements, List.getLast?_concat]
  · intro hverdict
    rw [settlement.judged_state, hverdict] at hfinished
    rcases hsettled.proper.isBusy with hstate | hstate <;>
      simp [hstate, Verdict.outcome] at hfinished

theorem rests {later : Record α} (hchain : Chain policy past task before record)
    (hreachable : Reachable config cores before) (hstep : before.step action = some after)
    (hrecord : before.record? task = some record) (hlater : after.record? task = some later)
    (hnone : before.settlement? action task = none) :
    Chain policy ((before, action) :: past) task after later := by
  have hsettlements : settlements ((before, action) :: past) task = settlements past task :=
    settlements_of_none hnone
  have hsound := hreachable.sound
  have hrests := hreachable.rests_of_step hstep hnone
  obtain ⟨same, hsame, hrest⟩ := hrests.record record hrecord
  obtain rfl := Option.some.inj (hsame.symm.trans hlater)
  obtain ⟨found, hfound, hevolves⟩ := hsound.recordsEvolve_of_step hstep task record hrecord
  obtain rfl := Option.some.inj (hfound.symm.trans hlater)
  refine ⟨?_, ?_, ?_, fun earlier found later hsplit hdone => ?_, fun hfinished => ?_⟩
  · have hbalance := hrests.balance
    rw [← Agenda.length_starts, ← Agenda.length_starts] at hbalance
    rw [hsettlements, hrest.due_eq]
    rcases hreachable.starts_of_step hstep hrecord with hstarts | ⟨hbacklog, hstarts⟩
    · rw [hstarts] at hbalance ⊢
      rw [hchain.dues_eq, Nat.add_left_cancel hbalance]
    · have hwaits : task ∈ before.tasksAt .backlog := hbacklog
      have hzero := hsound.custody.inProgress_eq_zero hwaits (by decide) (by decide)
      rw [hstarts, List.length_append, List.length_singleton, hzero] at hbalance
      obtain hone : after.inProgress task = 1 := by omega
      rw [hstarts, hone, List.map_append, hchain.dues_eq, hzero, List.replicate_zero,
        List.append_nil]
      rfl
  · rw [hsettlements, hevolves.schedule_eq]
    exact hchain.proper
  · rw [hsettlements, hrest.due_eq]
    exact hchain.next_eq
  · rw [hsettlements] at hsplit
    obtain ⟨hnil, hgone, hstate⟩ := hchain.done _ _ _ hsplit hdone
    exact ⟨hnil, hgone.of_step hsound hstep hrecord hfound,
      (hevolves.state_eq hgone.isDone).trans hstate⟩
  · rw [hsettlements]
    obtain rfl := hrest.finished hfinished
    exact hchain.finished hfinished

end Chain

theorem Run.settlements_eq_nil (hrun : Run config cores past scheduler)
    (hnone : scheduler.record? task = none) : settlements past task = [] := by
  induction hrun with
  | start => rfl
  | @step past before after hrun action hstep ih =>
      have hbefore : before.record? task = none := by
        cases hrecord : before.record? task with
        | none => rfl
        | some record =>
            obtain ⟨later, hlater, -⟩ :=
              hrun.reachable.sound.recordsEvolve_of_step hstep task record hrecord
            exact absurd (hnone.symm.trans hlater) (by simp)
      exact (settlements_of_none (settlement?_of_none hbefore)).trans (ih hbefore)

theorem Run.chain_of_new (hrun : Run config cores past before)
    (hstep : before.step action = some after) (hnone : before.record? task = none)
    {record : Record α} (hrecord : after.record? task = some record) :
    Chain config.policy ((before, action) :: past) task after record := by
  have hafter : Reachable config cores after := .step hrun.reachable action hstep
  have hsettlements : settlements ((before, action) :: past) task = [] :=
    (settlements_of_none (settlement?_of_none hnone)).trans (hrun.settlements_eq_nil hnone)
  have hfresh : after.agenda.entries task = 0 := by
    have hbefore := hrun.reachable.tallied task
    rw [hnone] at hbefore
    rcases hrun.reachable.enters_of_step hstep with hbodies | ⟨moved, _, _, _, henters, -⟩
    · rw [Agenda.entries_eq_countP_bodies, hbodies, ← Agenda.entries_eq_countP_bodies, hbefore]
      rfl
    · rw [Agenda.entries_of_entered henters.bodies_eq, hbefore, if_neg]
      · rfl
      · rintro rfl
        exact absurd (hnone.symm.trans henters.record_eq) (by simp)
  have hstarts : after.agenda.starts task = [] :=
    List.length_eq_zero_iff.mp ((Agenda.length_starts ..).trans hfresh)
  have hprogress : after.inProgress task = 0 := Nat.le_zero.mp (hfresh ▸ hafter.inProgress_le task)
  refine ⟨?_, fun settlement hmem => ?_, fun settlement hlast => ?_,
    fun earlier settlement later hsplit => ?_, fun hfinished => ?_⟩
  · rw [hstarts, hsettlements, hprogress]
    rfl
  · simp [hsettlements] at hmem
  · simp [hsettlements] at hlast
  · simp [hsettlements] at hsplit
  · have hruns := hafter.endsWithRun.runs_pos task record hrecord hfinished
    have htallied := hafter.tallied task
    rw [hrecord, hfresh] at htallied
    exact absurd htallied (Nat.ne_of_lt hruns)

/-- The runs of a task make a chain. -/
theorem Run.chain (hrun : Run config cores past scheduler) {record : Record α}
    (hrecord : scheduler.record? task = some record) :
    Chain config.policy past task scheduler record := by
  induction hrun generalizing record with
  | start hcreated =>
      obtain ⟨hnone, -⟩ := Prod.mk.inj (standing_new hcreated task)
      exact absurd (hnone.symm.trans hrecord) (by simp)
  | @step past before after hrun action hstep ih =>
      cases hbefore : before.record? task with
      | none => exact hrun.chain_of_new hstep hbefore hrecord
      | some found =>
          -- The chain only grows when a run of the task is settled.
          cases hsettlement : before.settlement? action task with
          | none => exact (ih hbefore).rests hrun.reachable hstep hbefore hrecord hsettlement
          | some settlement =>
              have hsettled := hrun.reachable.settled_of_step hstep hsettlement
              obtain rfl := Option.some.inj (hsettled.judged_eq.symm.trans hrecord)
              exact (ih hbefore).settled hbefore hsettlement hsettled

/-! ## The due time after the last run -/

/-- What the due time of a task has to do with its last run, which was due at `due` and has been
settled. -/
structure DueAfter (policy : FailurePolicy) (past : List (Scheduler α × Action α))
    (task : TaskId) (record : Record α) (due : Moment) (settlement : Settlement α) : Prop where
  settled : (settlements past task).getLast? = some settlement
  due_eq : settlement.due = due
  due_le : due ≤ settlement.completedAt
  /-- The task has its due time from the verdict, whether or not that could be carried out. -/
  next_eq : record.nextRunAt = settlement.next
  /-- This is the due time of its last run only if there can be no other one. -/
  kept_iff : record.nextRunAt = due ↔
    (∀ next, record.schedule.nextRun due settlement.completedAt ≠ .ok (some next)) ∨
      settlement.error?.isSome = true ∧ policy = .stop
  lt_of_ne : record.nextRunAt ≠ due → due < record.nextRunAt
  failed : record.state = .failed → record.nextRunAt = due
  cancelled : settlement.record.state = .cancelled → record.state = .cancelled

/-- The last run of a task is settled, and the task is due when the verdict has said. -/
theorem Chain.dueAfter {policy : FailurePolicy} {record : Record α} {start : Start}
    (hchain : Chain policy past task scheduler record)
    (hperiod : record.schedule.period?.any Span.isZero = false)
    (hstart : (scheduler.agenda.starts task).getLast? = some start)
    (hreturned : scheduler.inProgress task = 0) :
    ∃ settlement, DueAfter policy past task record start.due settlement := by
  have hdues := hchain.dues_eq
  rw [hreturned, List.replicate_zero, List.append_nil] at hdues
  have hlast := congrArg List.getLast? hdues
  rw [List.getLast?_map, List.getLast?_map, hstart] at hlast
  obtain ⟨settlement, hsettled, hdue⟩ := Option.map_eq_some_iff.mp hlast.symm
  obtain ⟨earlier, hsettlements⟩ := List.getLast?_eq_some_iff.mp hsettled
  have hproper := hchain.proper settlement (List.mem_of_getLast? hsettled)
  have hnext := hchain.next_eq settlement hsettled
  have hmoved : ¬ settlement.IsLast → start.due < record.nextRunAt := by
    rw [hnext, ← hdue]
    exact hproper.due_lt_next hperiod
  have hkept : record.nextRunAt = start.due ↔ settlement.IsLast := by
    refine ⟨fun hsame => ?_, fun hlast => ?_⟩
    · by_contra hagain
      exact Nat.lt_irrefl _ (hsame ▸ hmoved hagain)
    · rw [hnext, Settlement.next_of_isLast hlast, hdue]
  refine ⟨settlement, hsettled, hdue, hdue ▸ hproper.due_le, hnext, ?_, fun hne => ?_,
    fun hfailed => ?_, fun hcancelled => ?_⟩
  · rw [hkept, Settlement.IsLast, hproper.verdict_eq, Schedule.verdict_ne_rearm_iff, hdue]
  · exact hmoved fun hlast => hne (hkept.mpr hlast)
  · obtain ⟨found, hfound, hlast⟩ := hchain.finished (Or.inr hfailed)
    obtain rfl := Option.some.inj (hfound.symm.trans hsettled)
    exact hkept.mpr hlast
  · obtain ⟨-, -, hstate⟩ := hchain.done earlier settlement [] hsettlements
      (hproper.isDone_judged.mpr (Or.inr hcancelled))
    rw [hstate, settlement.judged_state, hcancelled]
    rfl

theorem Chain.nextRunAt_eq {policy : FailurePolicy} {record : Record α} {start : Start}
    (hchain : Chain policy past task scheduler record)
    (hstart : (scheduler.agenda.starts task).getLast? = some start)
    (hone : scheduler.inProgress task = 1) : record.nextRunAt = start.due := by
  have hlast := congrArg List.getLast? hchain.dues_eq
  rw [hone, List.getLast?_map, hstart, List.replicate_one, List.getLast?_concat] at hlast
  exact (Option.some.inj hlast).symm

/-- In every run of a scheduler, a record that is not running when it is to be rearmed keeps its
state and all else but its due time, which is set all the same.  So once the last run of a task has
returned, the task is due when the next run was to take place, if there was to be one, also if the
task has been cancelled during the run or has not been taken back by the queue.  It is due when its
last run was only if the next due time could not be represented or a failure has stopped it, or if
the run has been lost, as the clock could not be read. -/
theorem Run.due_after_last_run (hrun : Run config cores past scheduler) {record : Record α}
    (hrecord : scheduler.record? task = some record) :
    (∀ (found later : Record α) (next : Moment), found.rearm next = (later, false) ↔
      found.state ≠ .running ∧ later = { found with nextRunAt := next }) ∧
    ∀ start, (scheduler.agenda.starts task).getLast? = some start →
      task ∉ scheduler.tasksAt .running →
        (∃ settlement, DueAfter config.policy past task record start.due settlement) ∨
          scheduler.agenda.clock.isReadable = false ∧ task ∈ scheduler.uncounted ∧
            record.nextRunAt = start.due := by
  refine ⟨fun found later next => Record.rearm_eq_false_iff, fun start hstart hreturned => ?_⟩
  have hsound := hrun.reachable.sound
  have hchain := hrun.chain hrecord
  have hzero : (scheduler.tasksAt .running).count task = 0 := List.count_eq_zero.mpr hreturned
  by_cases hlost : task ∈ scheduler.uncounted
  · have hle := hsound.custody.inProgress_le_one task
    have hpos := List.count_pos_iff.mpr hlost
    rw [inProgress, hzero, Nat.zero_add] at hle
    refine Or.inr ⟨?_, hlost, hchain.nextRunAt_eq hstart ?_⟩
    · by_contra hreadable
      rw [uncounted, (hsound.intact (Bool.not_eq_false _ ▸ hreadable)).1] at hlost
      exact absurd hlost List.not_mem_nil
    · rw [inProgress, hzero, Nat.zero_add]
      exact Nat.le_antisymm hle hpos
  · refine Or.inl (hchain.dueAfter (hrun.reachable.punctual.period task record hrecord) hstart ?_)
    rw [inProgress, hzero, List.count_eq_zero.mpr hlost]

/-- A scheduler begins to drain while a task with a period of a second is running for the first
time.  The task is rearmed, but the queue does not take it back, and it is left with the due time of
a second run. -/
theorem due_after_last_run_of_refused :
    ∃ (past : List (Scheduler Unit × Action Unit)) (scheduler : Scheduler Unit)
      (record : Record Unit) (settlement : Settlement Unit), Run {} 1 past scheduler ∧
      scheduler.record? 0 = some record ∧ record.state = .cancelled ∧
      scheduler.agenda.starts 0 = [⟨.origin, .origin⟩] ∧ scheduler.tasksAt .running = [] ∧
      DueAfter .keepGoing past 0 record .origin settlement ∧
      settlement.record.state = .running ∧ record.nextRunAt = ⟨1000000000⟩ := by
  have hview : (played {} 1
      [.request (.schedule (plainTask (.fixedRate (.ofSeconds 1)) .zero) true), .proceed 0,
        .dispatch, .dispatch, .takeUp 0, .request (.shutdown true), .proceed 1, .work 0, .work 0,
        .work 0, .work 0]).map (fun result =>
          ((result.2.record? 0).map fun record => (record.state, record.nextRunAt),
            result.2.agenda.starts 0,
            (result.2.tasksAt .running).isEmpty && result.2.agenda.clock.isReadable,
            (settlements result.1 0).getLast?.map fun settlement => settlement.record.state)) =
      some (some (.cancelled, ⟨1000000000⟩), [⟨.origin, .origin⟩], true, some .running) := by
    decide +kernel
  obtain ⟨⟨past, scheduler⟩, hplayed, hparts⟩ := Option.map_eq_some_iff.mp hview
  simp only [Prod.mk.injEq, Option.map_eq_some_iff, Bool.and_eq_true, List.isEmpty_iff] at hparts
  obtain ⟨⟨record, hrecord, hstate, hdue⟩, hstarts, ⟨hreturned, hreadable⟩, last, hlast,
    hrunning⟩ := hparts
  have hrun := Run.of_played hplayed
  obtain ⟨-, hafter⟩ := hrun.due_after_last_run hrecord
  obtain ⟨settlement, hdueAfter⟩ := (hafter ⟨.origin, .origin⟩ (by rw [hstarts]; rfl)
    (by rw [hreturned]; exact List.not_mem_nil)).resolve_right fun hlost =>
      Bool.false_ne_true (hlost.1.symm.trans hreadable)
  obtain rfl := Option.some.inj (hlast.symm.trans hdueAfter.settled)
  exact ⟨past, scheduler, record, last, hrun, hrecord, hstate, hstarts, hreturned, hdueAfter,
    hrunning, hdue⟩

/-- A task with a period of a second is cancelled while it is running for the first time.  To rearm
it then is in vain, but does not leave the record alone; and when the run has returned, the task is
done and its one run was due at once, but the task is due after a second. -/
theorem not_due_at_last_run :
    ∃ (past : List (Scheduler Unit × Action Unit)) (before after : Scheduler Unit)
      (found record : Record Unit), Run {} 1 past before ∧
      before.record? 0 = some found ∧ found.state = .cancelled ∧ before.inProgress 0 = 1 ∧
      (∃ later, found.rearm ⟨1000000000⟩ = (later, false) ∧ later ≠ found) ∧
      before.step (.work 0) = some after ∧ after.jobs = [] ∧
      after.agenda.starts 0 = [⟨.origin, .origin⟩] ∧
      after.record? 0 = some record ∧ record.state = .cancelled ∧ record.nextRunAt ≠ .origin := by
  have hview : (played {} 1
      [.request (.schedule (plainTask (.fixedRate (.ofSeconds 1)) .zero) true), .proceed 0,
        .dispatch, .dispatch, .takeUp 0, .work 0, .request (.cancel 0), .proceed 1]).bind
        (fun result => (result.2.step (.work 0)).map fun after =>
          ((result.2.record? 0).map fun found => (found.state, found.nextRunAt),
            (after.record? 0).map fun record => (record.state, record.nextRunAt),
            after.agenda.starts 0, result.2.inProgress 0, after.jobs.length)) =
      some (some (.cancelled, .origin), some (.cancelled, ⟨1000000000⟩), [⟨.origin, .origin⟩],
        1, 0) := by
    decide +kernel
  obtain ⟨⟨past, before⟩, hplayed, hstepped⟩ := Option.bind_eq_some_iff.mp hview
  obtain ⟨after, hstep, hparts⟩ := Option.map_eq_some_iff.mp hstepped
  simp only [Prod.mk.injEq, Option.map_eq_some_iff] at hparts
  obtain ⟨⟨found, hfound, hcancelled, hdue⟩, ⟨record, hrecord, hstate, hnext⟩, hstarts, hone,
    hjobs⟩ := hparts
  refine ⟨past, before, after, found, record, Run.of_played hplayed, hfound, hcancelled, hone,
    ⟨{ found with nextRunAt := ⟨1000000000⟩ }, Record.rearm_eq_false_iff.mpr ⟨?_, rfl⟩, ?_⟩,
    hstep, List.length_eq_zero_iff.mp hjobs, hstarts, hrecord, hstate, ?_⟩
  · rw [hcancelled]
    decide
  · intro hsame
    have hmoved : (⟨1000000000⟩ : Moment) = found.nextRunAt := congrArg Record.nextRunAt hsame
    exact absurd (hmoved.trans hdue) (by decide)
  · rw [hnext]
    decide

end Scheduler

end TimedTasks
