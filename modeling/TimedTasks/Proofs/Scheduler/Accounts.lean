import Mathlib.Algebra.BigOperators.Group.Finset.Basic
import TimedTasks.Proofs.Scheduler.Counters
import TimedTasks.Proofs.Scheduler.Repose

/-!
# Settled accounts

When a scheduler has settled, its snapshot can be checked against what has happened and against
what is there: each counter is the number of something that callers, bodies or the queue have
seen, and the tasks that have been scheduled are all accounted for (`Accounts`).  Runs that have
been lost are on the books as well, but there are none as long as the clock can be read.
-/

namespace TimedTasks

/-- The task whose body has been entered. -/
def Event.entered? : Event → Option TaskId
  | .entered task _ _ _ _ => some task
  | .reported _ | .submitted .. => none

namespace Agenda

variable {α : Type}

/-- The tasks whose bodies have been entered, as often as they have been. -/
def ran (agenda : Agenda α) : List TaskId := agenda.bodies.filterMap Event.entered?

theorem count_ran (agenda : Agenda α) (task : TaskId) :
    agenda.ran.count task = agenda.entries task := by
  rw [ran, List.count_filterMap, entries_eq_countP_bodies]
  refine List.countP_congr fun event _ => ?_
  cases event <;> simp [Event.entered?]

theorem length_ran (agenda : Agenda α) : agenda.ran.length = agenda.bodies.length := by
  unfold ran bodies
  induction agenda.history with
  | nil => rfl
  | cons event rest ih =>
      cases event with
      | entered => exact congrArg Nat.succ ih
      | _ => exact ih

end Agenda

namespace Scheduler

variable {α : Type} {origin before after scheduler : Scheduler α} {action : Action α}
variable {config : Config} {cores : Nat} {past : List (Scheduler α × Action α)} {task : TaskId}

/-! ## Runs of accepted tasks -/

/-- How often a task has run, as its record says. -/
def runCount (scheduler : Scheduler α) (task : TaskId) : Nat :=
  ((scheduler.record? task).map Record.runs).getD 0

/-- How often accepted tasks have run. -/
def totalRuns (scheduler : Scheduler α) : Nat := (scheduler.accepted.map scheduler.runCount).sum

theorem Reachable.ran_subset (hreachable : Reachable config cores scheduler) :
    scheduler.agenda.ran ⊆ scheduler.accepted := by
  refine hreachable.induction_on_moves (p := fun state => state.agenda.ran ⊆ state.accepted)
    (fun first hcreated => ?_) fun origin action first second hsound hfirst hmove => ?_
  · obtain rfl := new_eq_ok hcreated
    exact List.nil_subset _
  · rcases hmove.bodies_cases hsound.custody with hsame | ⟨task, record, run, worker, henters⟩
    · rw [Agenda.ran, hsame]
      exact List.Subset.trans hfirst hmove.accepted_subset
    · have hbacklog : task ∈ first.tasksAt .backlog := henters.mem
      rw [Agenda.ran, henters.bodies_eq]
      refine List.cons_subset.mpr ⟨?_, List.Subset.trans hfirst hmove.accepted_subset⟩
      exact hmove.accepted_subset (hsound.custody.accepted_of_mem hbacklog (by decide))

/-- A body has been entered for each run of an accepted task. -/
theorem Reachable.totalRuns_eq (hreachable : Reachable config cores scheduler) :
    scheduler.totalRuns = scheduler.agenda.bodies.length := by
  have hruns : scheduler.runCount = fun task => scheduler.agenda.ran.count task :=
    funext fun task => ((scheduler.agenda.count_ran task).trans (hreachable.tallied task)).symm
  have hsum := Multiset.sum_count_eq_card (s := scheduler.accepted.toFinset)
    (m := (scheduler.agenda.ran : Multiset TaskId)) fun task hmem =>
      List.mem_toFinset.mpr (hreachable.ran_subset hmem)
  rw [totalRuns, hruns, ← List.sum_toFinset _ hreachable.accepted_nodup,
    ← scheduler.agenda.length_ran]
  simpa only [Multiset.coe_count, Multiset.coe_card] using hsum

/-! ## Settled schedulers -/

/-- A snapshot agrees with what has happened and with what is there. -/
structure Accounts (past : List (Scheduler α × Action α)) (scheduler : Scheduler α)
    (snapshot : Snapshot) : Prop where
  /-- Somebody has been told of each task that has been scheduled. -/
  scheduled_eq : snapshot.metrics.scheduled = scheduler.acceptances
  dispatched_eq : snapshot.metrics.dispatched =
    snapshot.metrics.completed + snapshot.metrics.failed + snapshot.active + scheduler.lost.length
  ended_eq : snapshot.metrics.completed + snapshot.metrics.failed =
    snapshot.metrics.totalExecutions
  by_mode : snapshot.metrics.totalExecutions = (TaskMode.all.map snapshot.metrics.runsOf).sum
  stamped_iff : ∀ mode, (snapshot.metrics.stamped.get? mode).isSome = true ↔
    0 < snapshot.metrics.runsOf mode
  average_iff : ∀ mode, (snapshot.metrics.averages.get? mode).isSome = true ↔
    0 < snapshot.metrics.runsOf mode
  popped_eq : snapshot.metrics.dispatched + snapshot.metrics.discarded = timesPopped past
  executions_le : snapshot.metrics.totalExecutions ≤ scheduler.totalRuns
  runs_le : scheduler.totalRuns ≤ snapshot.metrics.dispatched
  /-- A task that has been scheduled is queued, in flight, over or forsaken. -/
  tasks_eq : snapshot.metrics.scheduled =
    snapshot.depth + snapshot.active + scheduler.accepted.countP scheduler.isOver +
      scheduler.accepted.countP scheduler.isForsaken
  lost_eq : scheduler.agenda.clock.isReadable = true →
    scheduler.lost = [] ∧ scheduler.accepted.countP scheduler.isForsaken = 0

/-- In a settled state, each run that is in flight either waits for a worker or is in progress. -/
theorem Sound.active_of_settled (hsound : scheduler.Sound)
    (hsettled : scheduler.isSettled = true) :
    scheduler.active = scheduler.backlog.length + scheduler.progressing := by
  have hrunning : scheduler.tasksAt .running = scheduler.jobs.map Job.task := by
    rw [tasksAt, List.map_eq_flatMap]
    refine List.flatMap_congr fun job hjob => ?_
    obtain ⟨turn, hstage, -⟩ := hsound.waits_of_settled hsettled hjob
    rw [Job.tasksAt, Job.place, hstage]
    rfl
  rw [active, progressing, hrunning, List.length_map]

/-- In every settled state of every run the metrics add up. -/
theorem Run.accounts_of_settled (hrun : Run config cores past scheduler)
    (hsettled : scheduler.isSettled = true) : Accounts past scheduler scheduler.snapshot := by
  have hreachable := hrun.reachable
  have hsound := hreachable.sound
  obtain ⟨hscheduled, hdispatched, hbodies, hconsistent⟩ := hreachable.balanced
  have hactive := hsound.active_of_settled hsettled
  have hpopped := hrun.timesPopped_eq
  have hruns := hreachable.totalRuns_eq
  have hended := hconsistent.total_eq
  rw [handled, hand_of_settled hsettled, List.length_nil, Nat.add_zero] at hpopped
  have htasks : scheduler.accepted.length = scheduler.pending + scheduler.active +
      scheduler.accepted.countP scheduler.isOver +
        scheduler.accepted.countP scheduler.isForsaken := by
    rw [(hreachable.accepted_perm hsettled).length_eq, List.length_append, List.length_append,
      List.length_append, ← List.countP_eq_length_filter, ← List.countP_eq_length_filter, inFlight,
      List.length_append, List.length_map, Queue.tasks, List.length_map, ← Nat.add_assoc]
    rfl
  have hlost := scheduler.length_lost
  refine ⟨hscheduled.trans hreachable.vouched.symm, ?_, hended, Metrics.totalExecutions_eq _,
    hconsistent.stamped_iff, hconsistent.average_iff, hpopped.symm, ?_, ?_,
    hscheduled.trans htasks, fun hreadable => ?_⟩
  · show scheduler.agenda.metrics.dispatched = scheduler.agenda.metrics.completed +
      scheduler.agenda.metrics.failed + scheduler.active + scheduler.lost.length
    omega
  · show scheduler.agenda.metrics.totalExecutions ≤ scheduler.totalRuns
    omega
  · show scheduler.totalRuns ≤ scheduler.agenda.metrics.dispatched
    omega
  · have hnone := (hsound.intact hreadable).1
    refine ⟨hnone, List.countP_eq_zero.mpr fun task _ hforsaken => ?_⟩
    have hmem := (isForsaken_iff.mp hforsaken).2
    rw [lostTasks, hnone] at hmem
    exact absurd hmem List.not_mem_nil

/-- One run is held in its body, one has failed, a periodic task is queued again after its first
run, and a cancelled task has been discarded. -/
theorem accounts_of_settled_with_held_run :
    ∃ (past : List (Scheduler Unit × Action Unit)) (scheduler : Scheduler Unit),
      Run {} 2 past scheduler ∧ scheduler.isSettled = true ∧ scheduler.heldGates = ["gate"] ∧
        scheduler.snapshot.metrics.scheduled = 4 ∧ scheduler.snapshot.active = 1 ∧
        scheduler.snapshot.depth = 1 ∧ timesPopped past = 4 ∧ scheduler.totalRuns = 3 ∧
        Accounts past scheduler scheduler.snapshot := by
  have hview : (played {} 2
      [.request (.schedule { plainTask .oneShot .zero with
          script := fun _ => { gate? := some "gate", ending := .value () } } true),
        .proceed 0, .dispatch, .dispatch, .takeUp 0,
        .request (.schedule { plainTask .oneShot .zero with
          script := fun _ => { ending := .error "refused" } } true),
        .proceed 1, .dispatch, .dispatch, .takeUp 0, .work 1, .work 1,
        .request (.schedule (plainTask (.fixedRate (.ofSeconds 1)) .zero) true), .proceed 2,
        .dispatch, .dispatch, .takeUp 0, .work 1, .work 1, .work 1,
        .request (.schedule (plainTask .oneShot .zero) true), .proceed 3, .dispatch,
        .request (.cancel 3), .proceed 4, .dispatch, .dispatch]).map (fun result =>
          ((result.2.isSettled, result.2.heldGates), result.2.snapshot.metrics.scheduled,
            result.2.snapshot.active, result.2.snapshot.depth, timesPopped result.1,
            result.2.totalRuns)) =
      some ((true, ["gate"]), 4, 1, 1, 4, 3) := by
    decide +kernel
  obtain ⟨⟨past, scheduler⟩, hplayed, hparts⟩ := Option.map_eq_some_iff.mp hview
  simp only [Prod.mk.injEq] at hparts
  obtain ⟨⟨hsettled, hheld⟩, hscheduled, hactive, hdepth, hpopped, hruns⟩ := hparts
  have hrun := Run.of_played hplayed
  exact ⟨past, scheduler, hrun, hsettled, hheld, hscheduled, hactive, hdepth, hpopped, hruns,
    hrun.accounts_of_settled hsettled⟩

end Scheduler

end TimedTasks
