import TimedTasks.Proofs.Scheduler.Run

/-!
# One owner for every task

The parts of a scheduler that can have an accepted task are the queue, the dispatcher, the
runs handed over and the shutdown calls.  In every reachable state no task is with two of
them or with one of them twice, and a task which is not settled is with one of them, unless
its run has been lost.  No run is lost while the clock can be read.
-/

namespace TimedTasks

namespace Scheduler

variable {α : Type} {config : Config} {cores : Nat} {scheduler : Scheduler α}

/-- The tasks handed over whose runs have not ended, the re-armed ones included. -/
def inFlight (scheduler : Scheduler α) : List TaskId :=
  scheduler.backlog ++ scheduler.jobs.map Job.task

/-- The tasks that shutdown calls have removed from the queue and still have to cancel. -/
def sweptOut (scheduler : Scheduler α) : List TaskId :=
  scheduler.calls.flatMap fun call => call.2.sweeps

/-- All that the parts of a scheduler have in hand. -/
def holdings (scheduler : Scheduler α) : List TaskId :=
  scheduler.agenda.queue.tasks ++ scheduler.dispatcher.hand ++ scheduler.inFlight ++
    scheduler.sweptOut

/-- A worker has a task either before or after it has been re-armed. -/
theorem count_tasks_of_jobs (jobs : List (Job α)) (task : TaskId) :
    (jobs.map Job.task).count task =
      (jobs.flatMap (Job.tasksAt .running)).count task +
        (jobs.flatMap (Job.tasksAt .returning)).count task := by
  induction jobs with
  | nil => rfl
  | cons job rest ih =>
      have hjob : [job.task].count task =
          (Job.tasksAt .running job).count task + (Job.tasksAt .returning job).count task := by
        rcases job.place_eq with hplace | hplace
        · simp [Job.tasksAt, hplace]
        · simp [Job.tasksAt, hplace]
      rw [List.map_cons, ← List.singleton_append, List.flatMap_cons, List.flatMap_cons,
        List.count_append, List.count_append, List.count_append, ih, hjob]
      omega

theorem count_holdings (scheduler : Scheduler α) (task : TaskId) :
    scheduler.holdings.count task =
      (scheduler.tasksAt .queued).count task + (scheduler.tasksAt .held).count task +
        (scheduler.tasksAt .backlog).count task + (scheduler.tasksAt .running).count task +
        (scheduler.tasksAt .returning).count task + (scheduler.tasksAt .swept).count task := by
  rw [holdings, inFlight, List.count_append, List.count_append, List.count_append,
    List.count_append, count_tasks_of_jobs]
  simp only [tasksAt, sweptOut]
  omega

/-- A task is in hand once if it is anywhere but with the call that brings it, or lost. -/
theorem Located.count_holdings {task : TaskId} {place? : Option Place}
    (hlocated : scheduler.Located task place?) :
    scheduler.holdings.count task =
      if place? = none ∨ place? = some .drafted ∨ place? = some .lost then 0 else 1 := by
  rw [Scheduler.count_holdings]
  -- Six of the places are added up, and the task is in one of the eight at most.
  simp only [hlocated _]
  rcases place? with _ | place
  · rfl
  · cases place <;> rfl

/-- No part of a scheduler has a task that another one has, or has it twice; only accepted
tasks are in hand, and all of them that are not settled and whose run has not been lost, which
happens to none as long as the clock can be read. -/
theorem Reachable.single_owner (hreachable : Reachable config cores scheduler) :
    scheduler.holdings.Nodup ∧ (∀ task ∈ scheduler.holdings, task ∈ scheduler.accepted) ∧
      (∀ task ∈ scheduler.accepted, scheduler.IsLive task →
        scheduler.holdings.count task = if task ∈ scheduler.lostTasks then 0 else 1) ∧
      (scheduler.agenda.clock.isReadable = true →
        scheduler.lostTasks = [] ∧
          ∀ task ∈ scheduler.accepted, scheduler.IsLive task →
            scheduler.holdings.count task = 1) := by
  have hcustody := hreachable.sound.custody
  have hlive : ∀ task ∈ scheduler.accepted, scheduler.IsLive task →
      scheduler.holdings.count task = if task ∈ scheduler.lostTasks then 0 else 1 := by
    intro task haccepted hlive
    -- A live task is in one place, and that is not with a call, since it has been accepted.
    obtain ⟨place, hlocated, hfits⟩ := hcustody.located_of_live haccepted hlive
    rw [hlocated.count_holdings]
    by_cases hlost : task ∈ scheduler.lostTasks
    · have hmem : task ∈ scheduler.tasksAt .lost := hlost
      rw [hlocated.eq_of_mem hmem, if_pos hlost]
      rfl
    · rw [if_neg hlost]
      refine if_neg ?_
      rintro (hnone | hdrafted | hplace)
      · exact absurd hnone (by simp)
      · obtain rfl := Option.some.inj hdrafted
        exact hfits.1 haccepted
      · obtain rfl := Option.some.inj hplace
        exact hlost hlocated.mem
  refine ⟨?_, fun task hmem => ?_, hlive, fun hreadable => ?_⟩
  · rw [List.nodup_iff_count_le_one]
    intro task
    obtain ⟨place?, hlocated, -⟩ := hcustody task
    rw [hlocated.count_holdings]
    split <;> decide
  · obtain ⟨place?, hlocated, hfits⟩ := hcustody task
    have hcount := List.count_pos_iff.mpr hmem
    rw [hlocated.count_holdings] at hcount
    rcases place? with _ | place
    · exact absurd hcount (by decide)
    · cases place with
      | drafted | lost => exact absurd hcount (by decide)
      | _ => exact hfits.1
  · have hnone : scheduler.lostTasks = [] :=
      congrArg (List.map _) (hreachable.sound.intact hreadable).1
    refine ⟨hnone, fun task haccepted hlives => (hlive task haccepted hlives).trans ?_⟩
    rw [hnone, if_neg List.not_mem_nil]

/-- While the first of two tasks runs, the queue has the second. -/
theorem single_owner_while_running :
    ∃ scheduler : Scheduler Unit, Reachable { capacity := 1 } 1 scheduler ∧
      scheduler.agenda.queue.tasks = [1] ∧ scheduler.inFlight = [0] ∧ scheduler.IsLive 0 ∧
      scheduler.holdings.Nodup ∧ scheduler.holdings.count 0 = 1 := by
  have hview : (played { capacity := 1 } 1
      [.request (.schedule (plainTask .oneShot .zero) true), .proceed 0, .dispatch, .dispatch,
        .takeUp 0, .request (.schedule (plainTask (.fixedRate (.ofSeconds 1)) .zero) true),
        .proceed 1]).map (fun result => (result.2.agenda.queue.tasks, result.2.inFlight,
          result.2.accepted, result.2.agenda.clock.isReadable,
          (result.2.record? 0).map fun record => record.isDone)) =
      some ([1], [0], [1, 0], true, some false) := by
    decide +kernel
  obtain ⟨⟨past, scheduler⟩, hplayed, hparts⟩ := Option.map_eq_some_iff.mp hview
  simp only [Prod.mk.injEq] at hparts
  obtain ⟨hqueued, hinFlight, haccepted, hreadable, hrecord⟩ := hparts
  have hlive : scheduler.IsLive 0 := Option.map_eq_some_iff.mp hrecord
  have hreachable := (Run.of_played hplayed).reachable
  obtain ⟨hnodup, -, -, hone⟩ := hreachable.single_owner
  exact ⟨scheduler, hreachable, hqueued, hinFlight, hlive, hnodup,
    (hone hreadable).2 0 (by rw [haccepted]; decide) hlive⟩

end Scheduler

end TimedTasks
