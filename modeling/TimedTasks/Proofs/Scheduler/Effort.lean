import Mathlib.Algebra.BigOperators.Ring.Multiset
import Mathlib.Algebra.Order.BigOperators.Group.List
import TimedTasks.Proofs.Scheduler.Termination

/-!
# How much there can be to do

The rank says after how many steps at most a scheduler settles, and it is made of what everybody is
about at the time.  This module bounds it by what can be told of a scheduler without looking at
that: how many tasks there are, and how many of their runs have come due.

Wherever a task is, it costs no more than six for itself and six for each run that it is owed
(`cost_job_le` and the lemmas beside it); and it is in one place at a time (`nodup_placed`).
-/

namespace TimedTasks

variable {α : Type}

/-- What a duty adds to the burden. -/
def Duty.cost (owed : TaskId → Nat) (duty : Duty) : Nat :=
  duty.toil + 6 * (duty.prospects.map (Prospect.price owed)).sum

namespace Scheduler

variable {scheduler : Scheduler α}

theorem burden_eq_weigh (scheduler : Scheduler α) :
    scheduler.burden = scheduler.weigh (Duty.cost scheduler.allowance) := by
  have hbind : scheduler.prospects = scheduler.duties.bind Duty.prospects := rfl
  rw [burden, outstanding, hbind, Multiset.map_bind, Multiset.sum_bind, weigh, weigh,
    ← Multiset.sum_map_mul_left, ← Multiset.sum_map_add]
  rfl

/-! ## What tasks cost -/

/-- What a task costs at most, wherever it is. -/
def price (owed : TaskId → Nat) (task : TaskId) : Nat := 6 + 6 * owed task

theorem cost_call_le (owed : TaskId → Nat) (stage : Call) :
    (Duty.call stage).cost owed ≤ 3 + ((stage.drafts ++ stage.sweeps).map (price owed)).sum := by
  cases stage with
  | cancelling drain left done =>
      have hlength : ∀ tasks : List TaskId, tasks.length ≤ (tasks.map (price owed)).sum := by
        intro tasks
        induction tasks with
        | nil => exact Nat.le_refl 0
        | cons task rest ih =>
            rw [List.map_cons, List.sum_cons, List.length_cons, price]
            omega
      have hleft := hlength left
      simp only [Duty.cost, Duty.toil, Call.toil, Duty.prospects, Call.drafts, Call.sweeps,
        List.nil_append, List.map_nil, Multiset.coe_nil, Multiset.map_zero, Multiset.sum_zero]
      omega
  | _ =>
      simp [Duty.cost, Duty.toil, Call.toil, Duty.prospects, Call.drafts, Call.sweeps, price,
        Prospect.price]
      try omega

theorem cost_dispatcher_le (owed : TaskId → Nat) (stage : Dispatcher) :
    (Duty.dispatcher stage).cost owed ≤ 3 + (stage.hand.map (price owed)).sum := by
  cases stage <;>
    simp [Duty.cost, Duty.toil, Dispatcher.toil, Duty.prospects, Dispatcher.hand, price,
      Prospect.price]
  omega

theorem cost_job_le (owed : TaskId → Nat) (job : Job α) :
    job.duty.cost owed ≤ price owed job.task := by
  unfold Job.duty
  split <;> simp [Duty.cost, Duty.toil, Duty.prospects, price, Prospect.price] <;> omega

theorem sum_cost_le {β : Type} (owed : TaskId → Nat) (duty : β → Duty)
    (tasks : β → List TaskId) (extra : Nat)
    (hcost : ∀ item, (duty item).cost owed ≤ extra + ((tasks item).map (price owed)).sum)
    (items : List β) :
    ((items.map duty).map (Duty.cost owed)).sum ≤
      extra * items.length + ((items.flatMap tasks).map (price owed)).sum := by
  induction items with
  | nil => exact Nat.zero_le _
  | cons item rest ih =>
      have hfirst := hcost item
      simp only [List.map_cons, List.sum_cons, List.length_cons, List.flatMap_cons,
        List.map_append, List.sum_append, Nat.mul_succ] at ih ⊢
      omega

/-! ## All tasks -/

/-- The tasks that somebody is about, or that are queued. -/
def placed (scheduler : Scheduler α) : List TaskId :=
  (scheduler.calls.flatMap fun call => call.2.drafts ++ call.2.sweeps) ++
    scheduler.agenda.queue.tasks ++ scheduler.dispatcher.hand ++ scheduler.backlog ++
    scheduler.jobs.map Job.task

theorem count_jobs (jobs : List (Job α)) (task : TaskId) :
    (jobs.map Job.task).count task = (jobs.flatMap (Job.tasksAt .running)).count task +
      (jobs.flatMap (Job.tasksAt .returning)).count task := by
  induction jobs with
  | nil => rfl
  | cons job rest ih =>
      rw [List.map_cons, List.count_cons, ih, List.flatMap_cons, List.flatMap_cons,
        List.count_append, List.count_append, count_tasksAt, count_tasksAt]
      rcases job.place_eq with hplace | hplace <;> simp [hplace] <;> omega

theorem count_calls (calls : List (CallId × Call)) (task : TaskId) :
    (calls.flatMap fun call => call.2.drafts ++ call.2.sweeps).count task =
      (calls.flatMap fun call => call.2.drafts).count task +
        (calls.flatMap fun call => call.2.sweeps).count task := by
  induction calls with
  | nil => rfl
  | cons call rest ih =>
      simp only [List.flatMap_cons, List.count_append, ih]
      omega

/-- No task is in two places. -/
theorem Custody.nodup_placed (hcustody : scheduler.Custody) : scheduler.placed.Nodup := by
  refine List.nodup_iff_count_le_one.mpr fun task => ?_
  obtain ⟨place?, hlocated, -⟩ := hcustody task
  have hdrafted := hlocated .drafted
  have hqueued := hlocated .queued
  have hheld := hlocated .held
  have hbacklog := hlocated .backlog
  have hrunning := hlocated .running
  have hreturning := hlocated .returning
  have hswept := hlocated .swept
  simp only [tasksAt] at hdrafted hqueued hheld hbacklog hrunning hreturning hswept
  simp only [placed, List.count_append, count_calls, count_jobs]
  rw [hdrafted, hqueued, hheld, hbacklog, hrunning, hreturning, hswept]
  rcases place? with _ | place
  · decide
  · cases place <;> decide

/-- Every task has a record. -/
theorem Custody.lt_size_of_placed (hcustody : scheduler.Custody) {task : TaskId}
    (hplaced : task ∈ scheduler.placed) : task < scheduler.agenda.records.size := by
  have hsome : ∃ place, task ∈ scheduler.tasksAt place := by
    simp only [placed, List.mem_append] at hplaced
    rcases hplaced with (((hcalls | hqueued) | hheld) | hbacklog) | hjobs
    · obtain ⟨call, hcall, hmem⟩ := List.mem_flatMap.mp hcalls
      rcases List.mem_append.mp hmem with hdrafts | hsweeps
      · exact ⟨.drafted, List.mem_flatMap.mpr ⟨call, hcall, hdrafts⟩⟩
      · exact ⟨.swept, List.mem_flatMap.mpr ⟨call, hcall, hsweeps⟩⟩
    · exact ⟨.queued, hqueued⟩
    · exact ⟨.held, hheld⟩
    · exact ⟨.backlog, hbacklog⟩
    · obtain ⟨job, hjob, rfl⟩ := List.mem_map.mp hjobs
      exact ⟨job.place, mem_tasksAt_place hjob⟩
  obtain ⟨place, hmem⟩ := hsome
  obtain ⟨record, hrecord⟩ := (hcustody.fitsAt_of_mem hmem).exists_record
  exact (Array.getElem?_eq_some_iff.mp hrecord).1

/-- What all tasks together cost bounds what there is to do. -/
theorem Custody.burden_le (hcustody : scheduler.Custody) :
    scheduler.burden ≤
      ((List.range scheduler.agenda.records.size).map (price scheduler.allowance)).sum +
        3 * (scheduler.calls.length + 1) + scheduler.unannounced := by
  have hcalls := sum_cost_le scheduler.allowance (fun call : CallId × Call => Duty.call call.2)
    (fun call => call.2.drafts ++ call.2.sweeps) 3 (fun call => cost_call_le _ call.2)
    scheduler.calls
  have hqueued := sum_cost_le scheduler.allowance Duty.queued (fun task => [task]) 0
    (fun task => by simp [Duty.cost, Duty.toil, Duty.prospects, price, Prospect.price])
    scheduler.agenda.queue.tasks
  have hdispatcher := cost_dispatcher_le scheduler.allowance scheduler.dispatcher
  have hbacklog := sum_cost_le scheduler.allowance Duty.backlog (fun task => [task]) 0
    (fun task => by simp [Duty.cost, Duty.toil, Duty.prospects, price, Prospect.price]; omega)
    scheduler.backlog
  have hjobs := sum_cost_le scheduler.allowance Job.duty (fun job : Job α => [job.task]) 0
    (fun job => by simpa using cost_job_le _ job) scheduler.jobs
  have hplaced : (scheduler.placed.map (price scheduler.allowance)).sum ≤
      ((List.range scheduler.agenda.records.size).map (price scheduler.allowance)).sum := by
    have hsub : scheduler.placed.Subperm (List.range scheduler.agenda.records.size) :=
      List.subperm_of_subset hcustody.nodup_placed fun task hmem =>
        List.mem_range.mpr (hcustody.lt_size_of_placed hmem)
    obtain ⟨tasks, hperm, hsublist⟩ := hsub
    rw [← (hperm.map _).sum_eq]
    exact (hsublist.map _).sum_le_sum fun _ _ => Nat.zero_le _
  rw [burden_eq_weigh]
  simp only [weigh, duties, Multiset.map_add, Multiset.sum_add, Multiset.map_coe, Multiset.sum_coe,
    Multiset.map_singleton, Multiset.sum_singleton, Multiset.map_replicate,
    Multiset.sum_replicate]
  have hannounced : Duty.cost scheduler.allowance .announcement = 1 := rfl
  simp only [placed, List.map_append, List.sum_append, List.flatMap_singleton',
    ← List.map_eq_flatMap] at hplaced hqueued hbacklog hjobs
  rw [hannounced, nsmul_one, Nat.cast_id]
  omega

/-- What all tasks cost, if no task but one has more than one run ahead of it. -/
theorem sum_price_le {owed : TaskId → Nat} {busy : TaskId} {extra : Nat}
    (howed : ∀ task, owed task ≤ 1 + if task = busy then extra else 0) (count : Nat) :
    ((List.range count).map (price owed)).sum ≤
      12 * count + if busy < count then 6 * extra else 0 := by
  induction count with
  | zero => exact Nat.zero_le _
  | succ count ih =>
      have hlast := howed count
      rw [List.range_succ, List.map_append, List.sum_append, List.map_singleton, List.sum_singleton,
        price]
      -- The busy task adds its extra runs once, when the sum comes to it.
      by_cases hbusy : count = busy
      · subst hbusy
        rw [if_neg (Nat.lt_irrefl _)] at ih
        rw [if_pos rfl] at hlast
        rw [if_pos (Nat.lt_succ_self _)]
        omega
      · have hiff : busy < count + 1 ↔ busy < count := by
          rw [Nat.lt_succ_iff_lt_or_eq, or_iff_left (Ne.symm hbusy)]
        rw [if_neg hbusy] at hlast
        simp only [hiff]
        omega

theorem Sound.rank_lt_square (hsound : scheduler.Sound) {bound : Nat}
    (hburden : scheduler.burden + 2 ≤ bound) : scheduler.rank < bound * bound := by
  have hwaking := hsound.waking_le
  calc scheduler.rank
      ≤ scheduler.burden * (scheduler.burden + 2) + (scheduler.burden + 1) :=
        Nat.add_le_add_left hwaking _
    _ < (scheduler.burden + 2) * (scheduler.burden + 2) := by
        rw [Nat.add_mul]
        omega
    _ ≤ bound * bound := Nat.mul_le_mul hburden hburden

end Scheduler

end TimedTasks
