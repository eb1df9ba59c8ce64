import TimedTasks.Proofs.Queue.Capacity
import TimedTasks.Proofs.Queue.Conservation
import TimedTasks.Proofs.Scheduler.Punctuality

/-!
# How a scheduler uses its queue

What is known of a queue rests on its callers: they bring a task only while it is not queued,
leave its due time alone while it is, and put back only periodic tasks.  A scheduler does so.
Each of its moves acts on the queue by one operation or not at all (`Move.operates`), so that
every reachable state has a course of operations behind it that keeps to the rules
(`Reachable.exists_usage`).  All that is said about such courses then holds of the queue of a
scheduler.
-/

namespace TimedTasks

namespace Queue

variable {queue : Queue} {operation : Operation}

theorem tryInsert_of_room (hadmission : queue.admission = .accepting)
    (hroom : queue.isFull = false) (task : TaskId) (periodic : Bool) (due : Moment) :
    queue.tryInsert task periodic due = .ok (queue.push task periodic due) := by
  rw [tryInsert, if_neg (not_not_intro hadmission)]
  split
  · rename_i capacity hcapacity
    rw [if_neg]
    simpa [isFull, hcapacity] using hroom
  · rfl

theorem requeue_of_accepting (hadmission : queue.admission = .accepting) (task : TaskId)
    (periodic : Bool) (due : Moment) :
    queue.requeue task periodic false due = some (queue.push task periodic due) := by
  simp [requeue, hadmission]

/-- A taker that finds nothing due falls asleep until the first entry is. -/
theorem take_of_nothing_due (hadmission : queue.admission ≠ .closed)
    (hmore : queue.entries = [] → queue.admission = .draining → queue.blockedProducers ≠ 0)
    {now : Moment} (hearly : ∀ first ∈ queue.entries.head?, now < first.key.due) (caller : Nat) :
    (queue.take caller now).1 =
      { queue with
        takers := (queue.alert caller).takers.park
          ⟨caller, queue.entries.head?.map fun first => first.key.due⟩ } := by
  cases hentries : queue.entries with
  | nil => rw [take_of_empty hentries hadmission (hmore hentries), hentries]; rfl
  | cons first rest =>
      have hlt : now < first.key.due := hearly first (by rw [hentries]; rfl)
      rw [take_of_early hentries hadmission caller (Nat.not_le_of_lt hlt), hentries]
      rfl

theorem not_mem_of_entering (hnodup : (queue.apply operation).tasks.Nodup) {entry : Entry}
    (hentry : entry ∈ queue.entering operation) :
    entry.task ∉ queue.tasks ∧ entry ∈ (queue.apply operation).entries := by
  cases queue.flow operation with
  | inserts brought hinserted hputBack _ _ htakesIn
  | putsBack brought hinserted hputBack _ htakesIn =>
      rw [entering, hinserted, hputBack] at hentry
      obtain rfl := List.mem_singleton.mp hentry
      have htasks := ((htakesIn.entries_perm.map Entry.task).nodup_iff).mp hnodup
      exact ⟨(List.nodup_cons.mp htasks).1,
        htakesIn.entries_perm.mem_iff.mpr (List.mem_cons_self ..)⟩
  | letsGo hentering =>
      rw [hentering] at hentry
      exact absurd hentry List.not_mem_nil

end Queue

namespace Scheduler

variable {α : Type} {origin before after scheduler : Scheduler α} {action : Action α}
variable {config : Config} {cores : Nat} {task : TaskId}

theorem Sound.periodicOf_returning (hsound : before.Sound) {job : Job α}
    (hjob : job ∈ before.jobs) (hstage : job.stage = .rearmed) :
    before.agenda.periodicOf job.task = true := by
  have hplace : job.place = .returning := by rw [Job.place, hstage]
  have hmem := mem_tasksAt_place hjob
  rw [hplace] at hmem
  obtain ⟨-, record, hrecord, -, hperiodic⟩ := hsound.custody.fitsAt_of_mem hmem
  rw [periodicOf_eq_isPeriodic hrecord, hperiodic]

/-- A move does one allowed operation to the queue, or none, and puts back only what is
periodic. -/
theorem Move.operates (hmove : Move origin action before after) (hsound : before.Sound) :
    after.agenda.queue = before.agenda.queue ∨
      ∃ operation, after.agenda.queue = before.agenda.queue.apply operation ∧
        Queue.Allows dispatcherCaller before.agenda.queue operation ∧
        operation.ReturnsPeriodic := by
  cases hmove with
  | @admitted call task patient hcall hadmission hroom =>
      refine Or.inr ⟨.tryInsert task (before.agenda.periodicOf task) (before.agenda.dueOf task), ?_,
        trivial, trivial⟩
      rw [Queue.apply, Queue.tryInsert_of_room hadmission hroom]
      rfl
  | @parked call task hcall hadmission hfull =>
      refine Or.inr ⟨.insert ⟨call, task, before.agenda.periodicOf task⟩ .origin, ?_,
        hsound.caller_ne hcall, trivial⟩
      rw [Queue.apply, Queue.insert_of_full hadmission hfull]
      rfl
  | @parkedAgain call task producer hcall hcaller hwoken hadmission hfull =>
      refine Or.inr ⟨.resume producer .origin, ?_, hwoken, trivial⟩
      rw [Queue.apply, Queue.resume_of_full hfull hadmission]
      rfl
  | @resumedRefused call task producer hcall hcaller hwoken hadmission =>
      refine Or.inr ⟨.resume producer .origin, ?_, hwoken, trivial⟩
      rw [Queue.apply, Queue.resume_of_closed hadmission]
      rfl
  | @resumedAdmitted call task producer hcall hcaller hwoken hadmission hroom =>
      refine Or.inr ⟨.resume producer (before.agenda.dueOf producer.task), ?_, hwoken, trivial⟩
      rw [Queue.apply, Queue.resume_of_room hroom hadmission]
      rfl
  | removed => exact Or.inr ⟨.remove _, rfl, trivial, trivial⟩
  | pulledInBody => exact Or.inr ⟨.remove _, rfl, trivial, trivial⟩
  | closed => exact Or.inr ⟨.close _, rfl, trivial, trivial⟩
  | announced | timePassed => exact Or.inr ⟨.wake, rfl, trivial, trivial⟩
  | expired => exact Or.inr ⟨.expire _, rfl, trivial, trivial⟩
  | took _ hawake hadmission hentries hdue =>
      refine Or.inr ⟨.take dispatcherCaller before.agenda.reading, ?_, ⟨rfl, hawake⟩, trivial⟩
      rw [Queue.apply, Queue.take_of_due hentries hadmission _ hdue]
      rfl
  | slept _ hawake hadmission htimer hmore hearly =>
      refine Or.inr ⟨.take dispatcherCaller before.agenda.reading, ?_, ⟨rfl, hawake⟩, trivial⟩
      rw [Queue.apply, Queue.take_of_nothing_due hadmission hmore hearly, htimer]
      rfl
  | ceased _ hawake hadmission =>
      refine Or.inr ⟨.take dispatcherCaller before.agenda.reading, ?_, ⟨rfl, hawake⟩, trivial⟩
      rcases hadmission with hclosed | ⟨hdraining, hentries, hblocked⟩
      · rw [Queue.apply, Queue.take_of_closed hclosed]
        rfl
      · rw [Queue.apply, Queue.take_of_over hentries hdraining hblocked]
        rfl
  | tookUp => exact Or.inl (Agenda.enter_queue ..)
  | settled _ _ hsettle | rearmed _ _ hsettle => exact Or.inl (Agenda.settle_queue hsettle)
  | @requeued job hjob hstage hadmission =>
      refine Or.inr ⟨.requeue job.task (before.agenda.periodicOf job.task) false
        (before.agenda.dueOf job.task), ?_, trivial, hsound.periodicOf_returning hjob hstage⟩
      rw [Queue.apply, Queue.requeue_of_accepting hadmission]
      rfl
  | @submitted submission due _ hadmission hroom =>
      -- The record of the task is drafted in the same move, and only there after it.
      refine Or.inr ⟨.tryInsert before.agenda.records.size
        ((before.draft submission due).1.agenda.periodicOf before.agenda.records.size)
        ((before.draft submission due).1.agenda.dueOf before.agenda.records.size), ?_,
        trivial, trivial⟩
      rw [Queue.apply, Queue.tryInsert_of_room hadmission hroom]
      rfl
  | _ => exact Or.inl rfl

/-- Behind the queue of a scheduler there is a course of operations that keeps to the rules. -/
theorem Reachable.exists_usage (hreachable : Reachable config cores scheduler) :
    ∃ past, Queue.Usage.Run config.capacity past
        ⟨scheduler.agenda.queue, scheduler.agenda.dueOf⟩ ∧
      ∀ moment ∈ past, moment.2.ReturnsPeriodic := by
  refine hreachable.induction_on_moves (p := fun state => ∃ past, Queue.Usage.Run config.capacity
    past ⟨state.agenda.queue, state.agenda.dueOf⟩ ∧ ∀ moment ∈ past, moment.2.ReturnsPeriodic)
    (fun first hcreated => ?_) fun origin action first second hsound hpast hmove => ?_
  · refine ⟨[], ?_, fun _ hmoment => absurd hmoment List.not_mem_nil⟩
    rw [queue_new hcreated]
    exact .start _
  · obtain ⟨past, hrun, hreturns⟩ := hpast
    -- The due times move on before the queue does: a task that comes in brings its new one.
    have hdue : ∀ task ∈ first.tasksAt .queued,
        second.agenda.dueOf task = first.agenda.dueOf task :=
      fun task htask => hmove.dueOf_eq hsound htask (by decide)
    have hmoved := Queue.Usage.Run.rescheduled second.agenda.dueOf hrun hdue
    rcases hmove.operates hsound with hsame | ⟨operation, happly, hallows, hperiodic⟩
    · exact ⟨past, hsame ▸ hmoved, hreturns⟩
    · refine ⟨(first.agenda.queue, operation) :: past, ?_, List.forall_mem_cons.mpr
        ⟨hperiodic, hreturns⟩⟩
      rw [happly]
      refine hmoved.operate hallows fun entry hentry => ?_
      have hnodup := (hmove.custody hsound).tasks_nodup
      rw [happly] at hnodup
      obtain ⟨hnew, hmem⟩ := Queue.not_mem_of_entering hnodup hentry
      refine ⟨hnew, ?_⟩
      rcases hmove.entry_of_mem hsound (happly ▸ hmem) with hold | ⟨-, hdue⟩
      · exact absurd (List.mem_map_of_mem hold) hnew
      · exact hdue

/-- The one-shot tasks in the queue of a scheduler keep within the capacity. -/
theorem Reachable.one_shots_le (hreachable : Reachable config cores scheduler)
    (hcapacity : config.capacity ≠ 0) :
    scheduler.agenda.queue.entries.countP (fun entry => !entry.periodic) ≤ config.capacity := by
  obtain ⟨past, hrun, hreturns⟩ := hreachable.exists_usage
  exact hrun.course.countP_one_shots_le hcapacity hreturns

end Scheduler

end TimedTasks
