import TimedTasks.Proofs.Scheduler.Handover

/-!
# Tasks that are cancelled

A task is cancelled in two steps: first its record is cancelled, and then the task is pulled
out of the queue, whereupon the caller learns that it has cancelled the task.  Anything may
come between the two.  In particular a worker may bring the task back; what it brings is
pulled out then.  After the second step the task is out of the queue and does not return
(`Withdrawn`).  A body takes both steps in one go; if it took them one by one, it would be
like any other caller.

A cancelled task is not started any more, and so it is not handed over any more either
(`Recalled`).  A run that had been handed over already is not stopped: if it still waits for a
worker, its body will be entered once.
-/

namespace TimedTasks

namespace Agenda

variable {α : Type}

/-- A cancellation changes nothing but the state of a record. -/
theorem map_records_cancel {β : Type} {f : Record α → β}
    (hf : ∀ record, f { record with state := .cancelled } = f record) (agenda : Agenda α)
    (task other : TaskId) :
    (agenda.cancel task).1.records[other]?.map f = agenda.records[other]?.map f := by
  cases hcancel : agenda.cancel task with
  | mk after won =>
      cases won with
      | true =>
          obtain ⟨record, hrecord, -, rfl⟩ := cancel_eq_true hcancel
          rw [records_withRecord hrecord]
          by_cases hother : other = task
          · rw [if_pos hother, hother, hrecord, Option.map_some, Option.map_some, hf]
          · rw [if_neg hother]
      | false =>
          obtain ⟨rfl, -⟩ := cancel_eq_false hcancel
          rfl

/-- The queue looks at the record of a task before it takes the task back.  A cancellation
that comes in between amounts to one that comes after. -/
theorem cancel_of_requeue {agenda after : Agenda α} {task : TaskId}
    (hrequeue : agenda.requeue task = (after, true)) (other : TaskId) :
    after.cancel other =
      ({ (agenda.cancel other).1 with
          queue := agenda.queue.push task ((agenda.cancel other).1.periodicOf task)
            ((agenda.cancel other).1.dueOf task) }, (agenda.cancel other).2) := by
  obtain ⟨-, -, rfl⟩ := requeue_eq_true hrequeue
  have hperiodic : (agenda.cancel other).1.periodicOf task = agenda.periodicOf task :=
    congrArg (·.getD false) (map_records_cancel (fun _ => rfl) agenda other task)
  have hdue : (agenda.cancel other).1.dueOf task = agenda.dueOf task :=
    congrArg (·.getD Moment.origin) (map_records_cancel (fun _ => rfl) agenda other task)
  rw [hperiodic, hdue]
  simp only [cancel, attempt]
  cases agenda.records[other]?.bind Record.cancel? with
  | none => rfl
  | some moved => rfl

end Agenda

namespace Scheduler

variable {α : Type} {origin before after scheduler : Scheduler α} {action : Action α}
variable {config : Config} {cores : Nat} {past later : List (Scheduler α × Action α)}
variable {task : TaskId}

/-! ## Being told -/

/-- Whether an action tells somebody that he has cancelled a task: the holder of the task, once
it has been pulled out of the queue, or a body. -/
def Confirms (scheduler : Scheduler α) : Action α → TaskId → Prop
  | .proceed call, task => scheduler.calls.lookup call = some (.removing task)
  | .work worker, task => scheduler.Cancels (.work worker) task
  | _, _ => False

theorem answer_of_removing {call : CallId}
    (hcall : before.calls.lookup call = some (.removing task))
    (hstep : before.step (.proceed call) = some after) :
    after.answer? call = some (.cancelled true) := by
  obtain ⟨found, hremove⟩ := before.agenda.remove_eq task
  simp only [step, hcall, proceed, hremove] at hstep
  obtain rfl := Option.some.inj hstep
  simp [answer?, reply]

theorem Cancels.mem_accepted (hcancels : before.Cancels action task) :
    task ∈ before.accepted := by
  cases action with
  | request asked =>
      cases asked with
      | cancel asked =>
          obtain ⟨rfl, haccepted, -⟩ := hcancels
          exact haccepted
      | _ => exact hcancels.elim
  | work worker =>
      obtain ⟨turn, agenda, -, -, htask, -⟩ := hcancels
      obtain ⟨name, -, hname⟩ := Option.bind_eq_some_iff.mp htask
      exact List.mem_of_find?_eq_some hname
  | _ => exact hcancels.elim

theorem Move.accepted_subset (hmove : Move origin action before after) :
    before.accepted ⊆ after.accepted := by
  cases hmove with
  | admitted | resumedAdmitted | submitted => exact List.subset_cons_self _ _
  | _ => exact List.Subset.refl _

theorem Reachable.accepted_of_removing (hreachable : Reachable config cores scheduler)
    {call : CallId} (hcall : (call, .removing task) ∈ scheduler.calls) :
    task ∈ scheduler.accepted := by
  refine hreachable.induction_on_moves
    (p := fun state => (call, .removing task) ∈ state.calls → task ∈ state.accepted)
    (fun first hcreated hcall => ?_)
    (fun origin action first second hsound hfirst hmove hcall => ?_) hcall
  · obtain rfl := new_eq_ok hcreated
    exact absurd hcall List.not_mem_nil
  · rcases hmove.arises hcall with hbefore | harises
    · exact hmove.accepted_subset (hfirst hbefore)
    · cases harises with
      | removing _ haccepted => exact haccepted

/-! ## Cancelled, and out of the queue -/

/-- The task has been cancelled and pulled out of the queue. -/
structure Withdrawn (scheduler : Scheduler α) (task : TaskId) : Prop where
  accepted : task ∈ scheduler.accepted
  cancelled : scheduler.Has task fun record => record.state = .cancelled
  not_queued : task ∉ scheduler.agenda.queue.tasks

theorem Custody.not_accepted_of_drafts (hcustody : before.Custody) {call : CallId} {stage : Call}
    (hcall : (call, stage) ∈ before.calls) (hdrafts : task ∈ stage.drafts) :
    task ∉ before.accepted := by
  have hmem : task ∈ before.tasksAt .drafted := List.mem_flatMap.mpr ⟨_, hcall, hdrafts⟩
  exact (hcustody.fitsAt_of_mem hmem).1

/-- A task comes into the queue when it is accepted, or when it returns and has not been
cancelled. -/
theorem Move.queued_cases (hmove : Move origin action before after) (hsound : before.Sound)
    (hqueued : task ∈ after.agenda.queue.tasks) :
    task ∈ before.agenda.queue.tasks ∨ task ∉ before.accepted ∨
      before.agenda.cancelledOf task = false := by
  cases hmove with
  | admitted hcall =>
      rcases Queue.mem_tasks_push.mp hqueued with rfl | hold
      · have hdrafted := hsound.custody.not_accepted_of_drafts hcall (List.mem_singleton_self _)
        exact Or.inr (Or.inl hdrafted)
      · exact Or.inl hold
  | resumedAdmitted hcall hcaller hwoken =>
      rcases Queue.mem_tasks_push.mp hqueued with rfl | hold
      · have htask := hsound.task_eq hcall hcaller (List.mem_append_right _ hwoken)
        have hdrafted := hsound.custody.not_accepted_of_drafts hcall (List.mem_singleton.mpr htask)
        exact Or.inr (Or.inl hdrafted)
      · exact Or.inl hold
  | submitted =>
      rcases Queue.mem_tasks_push.mp hqueued with rfl | hold
      · exact Or.inr (Or.inl hsound.custody.size_not_accepted)
      · exact Or.inl hold
  | requeued _ _ _ hcancelled =>
      rcases Queue.mem_tasks_push.mp hqueued with rfl | hold
      · exact Or.inr (Or.inr hcancelled)
      · exact Or.inl hold
  | removed | pulledInBody =>
      exact Or.inl (((Queue.remove_rest _ _).2.map Entry.task).subset hqueued)
  | closed =>
      obtain ⟨entry, hentry, rfl⟩ := List.mem_map.mp hqueued
      rw [goOn, withQueue, Queue.close_entries] at hentry
      exact Or.inl (List.mem_map_of_mem (List.mem_of_mem_filter hentry))
  | took _ _ _ hentries =>
      rw [Queue.tasks, hentries]
      exact Or.inl (List.mem_cons_of_mem _ hqueued)
  | tookUp => exact Or.inl ((Agenda.enter_queue ..) ▸ hqueued)
  | settled _ _ hsettle | rearmed _ _ hsettle =>
      exact Or.inl (Agenda.settle_queue hsettle ▸ hqueued)
  | _ => exact Or.inl hqueued

theorem cancelledOf_of_cancelled
    (hcancelled : before.Has task fun record => record.state = .cancelled) :
    before.agenda.cancelledOf task = true := by
  obtain ⟨record, hrecord, hstate⟩ := hcancelled
  have hfound : before.agenda.records[task]? = some record := hrecord
  simp [Agenda.cancelledOf, hfound, Record.isCancelled, hstate]

theorem Move.withdrawn (hmove : Move origin action before after) (hsound : before.Sound)
    (hwithdrawn : before.Withdrawn task) : after.Withdrawn task where
  accepted := hmove.accepted_subset hwithdrawn.accepted
  cancelled := (hmove.recordsEvolve hsound.custody).cancelled hwithdrawn.cancelled
  not_queued := by
    intro hqueued
    rcases hmove.queued_cases hsound hqueued with hold | hnew | hlive
    · exact hwithdrawn.not_queued hold
    · exact hnew hwithdrawn.accepted
    · rw [cancelledOf_of_cancelled hwithdrawn.cancelled] at hlive
      exact Bool.false_ne_true hlive.symm

/-- A task is withdrawn when it has been cancelled and pulled out in one go. -/
theorem withdrawn_cancelNow (hsound : before.Sound) (haccepted : task ∈ before.accepted)
    (hlive : before.IsLive task) : (before.cancelNow task).Withdrawn task := by
  obtain ⟨record, hrecord, hnot⟩ := hlive
  rw [cancelNow_of_live hrecord hnot]
  refine ⟨haccepted, has_withRecord hrecord rfl, ?_⟩
  exact hsound.queue.wellFormed.not_mem_tasks_remove task

/-- Whoever is told that he has cancelled a task finds it withdrawn. -/
theorem Reachable.withdrawn_of_confirms (hreachable : Reachable config cores before)
    (hconfirms : before.Confirms action task) (hstep : before.step action = some after) :
    after.Withdrawn task := by
  have hsound := hreachable.sound
  cases action with
  | proceed call =>
      have hlookup : before.calls.lookup call = some (.removing task) := hconfirms
      have hcall := mem_calls_of_lookup hlookup
      obtain ⟨found, hremove⟩ := before.agenda.remove_eq task
      simp only [Scheduler.step, hlookup, proceed, hremove] at hstep
      obtain rfl := Option.some.inj hstep
      refine ⟨hreachable.accepted_of_removing hcall, hsound.revoked call task hcall, ?_⟩
      exact hsound.queue.wellFormed.not_mem_tasks_remove task
  | work worker =>
      have hcancels : before.Cancels (.work worker) task := hconfirms
      have haccepted := hcancels.mem_accepted
      obtain ⟨turn, agenda, hplays, hpass, htask, hlive⟩ := hcancels
      -- The body cancels the task at once, and whatever it does then changes nothing of that.
      obtain ⟨htime, -⟩ := moves_passTime hplays hpass
      obtain ⟨hfirst, hrest⟩ := moves_perform_of_cancel hplays hpass htask
      refine of_moves (hsound.of_moves hfirst) (hrest.tail (move_of_plays hplays hstep)) ?_
        fun first second hmid hwithdrawn hmove => hmove.withdrawn hmid hwithdrawn
      exact withdrawn_cancelNow (hsound.of_moves htime) haccepted
        ((isLive_passTime hpass task).mpr hlive)
  | _ => exact hconfirms.elim

/-! ## Cancelled, and not started any more -/

theorem not_starts_of_cancelled
    (hcancelled : scheduler.Has task fun record => record.state = .cancelled) :
    ¬ scheduler.Starts task := by
  rintro ⟨-, record, hrecord, hpending⟩
  exact absurd (hpending.symm.trans (hcancelled.holds hrecord)) (by decide)

/-- What holds of a task from the moment on that it is cancelled. -/
structure Recalled (origin scheduler : Scheduler α) (task : TaskId) : Prop where
  cancelled : scheduler.Has task fun record => record.state = .cancelled
  handedOver_eq : scheduler.handedOver task = origin.handedOver task
  entries_le : origin.agenda.entries task ≤ scheduler.agenda.entries task
  unentered_le : origin.unentered.count task ≤ scheduler.unentered.count task

/-- A task that no worker is to take up is not run again after it has been cancelled. -/
theorem Recalled.entries_eq (hrecalled : Recalled origin scheduler task)
    (hnot : task ∉ origin.backlog) :
    scheduler.agenda.entries task = origin.agenda.entries task := by
  obtain ⟨-, hsame, hentries, hunentered⟩ := hrecalled
  rw [handedOver, handedOver, List.count_eq_zero_of_not_mem hnot] at hsame
  omega

theorem Move.recalled {cause : Scheduler α} (hmove : Move cause action before after)
    (hsound : before.Sound) (hrecalled : Recalled origin before task) :
    Recalled origin after task where
  cancelled := (hmove.recordsEvolve hsound.custody).cancelled hrecalled.cancelled
  handedOver_eq := by
    rcases hmove.handedOver_cases hsound.custody task with hsame | ⟨-, hstarts, -⟩
    · exact hsame.trans hrecalled.handedOver_eq
    · exact absurd hstarts (not_starts_of_cancelled hrecalled.cancelled)
  entries_le := Nat.le_trans hrecalled.entries_le (hmove.fate hsound.custody task).entries_le
  unentered_le := Nat.le_trans hrecalled.unentered_le (hmove.count_unentered_le task)

theorem cancelled_of_request {asked : TaskId}
    (hcancels : before.Cancels (.request (.cancel asked)) task)
    (hstep : before.step (.request (.cancel asked)) = some after) :
    after.Has task fun record => record.state = .cancelled := by
  obtain ⟨rfl, haccepted, record, hrecord, hlive⟩ := hcancels
  have hcancel := Agenda.cancel_of_live hrecord hlive
  simp only [step, request, if_pos haccepted, hcancel] at hstep
  obtain rfl := Option.some.inj hstep
  exact has_withRecord hrecord rfl

/-- Whoever cancels a task, or is told that he has, leaves its record cancelled. -/
theorem Reachable.cancelled_of_cancels (hreachable : Reachable config cores before)
    (hcancels : before.Cancels action task ∨ before.Confirms action task)
    (hstep : before.step action = some after) :
    after.Has task fun record => record.state = .cancelled := by
  rcases hcancels with hcancels | hconfirms
  · cases action with
    | request asked =>
        cases asked with
        | cancel asked => exact cancelled_of_request hcancels hstep
        | _ => exact hcancels.elim
    | work worker =>
        have hconfirms : before.Confirms (.work worker) task := hcancels
        exact (hreachable.withdrawn_of_confirms hconfirms hstep).cancelled
    | _ => exact hcancels.elim
  · exact (hreachable.withdrawn_of_confirms hconfirms hstep).cancelled

theorem not_launches_of_cancels
    (hcancels : before.Cancels action task ∨ before.Confirms action task) (other : TaskId) :
    ¬ before.Launches action other := by
  cases action with
  | dispatch => exact absurd hcancels (not_or_intro id id)
  | _ => exact id

theorem Run.recalled (hrun : Run config cores (later ++ (origin, action) :: past) scheduler)
    (hcancels : origin.Cancels action task ∨ origin.Confirms action task) :
    Recalled origin scheduler task := by
  have hreachable := hrun.at_step.1.reachable
  refine hrun.ever_after (fun after hstep => ⟨?_, ?_, ?_, ?_⟩)
    fun _ _ _ _ hsound hrecalled hmove => hmove.recalled hsound hrecalled
  · exact hreachable.cancelled_of_cancels hcancels hstep
  · have hsame := handedOver_step hreachable.sound hstep task
    rwa [if_neg (not_launches_of_cancels hcancels task), Nat.add_zero] at hsame
  · exact (counts_le_of_step hreachable.sound hstep task).1
  · exact (counts_le_of_step hreachable.sound hstep task).2

/-- A task that has not been handed over when it is cancelled, or when somebody is told so, is
never run again.  If it has been, and waits for a worker, its body is entered when a worker
takes it up, provided that the clock can be read, and that is the last time.  Otherwise the run
is lost, and the body is not entered at all. -/
theorem Run.entries_of_cancels
    (hrun : Run config cores (later ++ (origin, action) :: past) scheduler)
    (hcancels : origin.Cancels action task ∨ origin.Confirms action task) :
    (task ∉ origin.backlog →
      scheduler.agenda.entries task = origin.agenda.entries task ∧
        scheduler.Has task fun record => record.runs = origin.agenda.entries task) ∧
    (task ∈ origin.backlog →
      scheduler.agenda.entries task + scheduler.backlog.count task +
          scheduler.unentered.count task = origin.agenda.entries task + 1 ∧
        (scheduler.agenda.clock.isReadable = true → scheduler.unentered.count task = 0) ∧
        ∀ position after, scheduler.backlog[position]? = some task →
          scheduler.step (.takeUp position) = some after →
            after.agenda.entries task = origin.agenda.entries task +
              if scheduler.agenda.clock.isReadable then 1 else 0) := by
  have hrecalled := hrun.recalled hcancels
  have hsame := hrecalled.handedOver_eq
  have hsound := hrun.reachable.sound
  refine ⟨fun hnot => ?_, fun hbacklog => ?_⟩
  · have hentries := hrecalled.entries_eq hnot
    obtain ⟨record, hrecord, -⟩ := hrecalled.cancelled
    have htallied := hrun.reachable.tallied task
    rw [hrecord] at htallied
    exact ⟨hentries, record, hrecord, htallied.symm.trans hentries⟩
  · have horigin := hrun.at_step.1.reachable.sound.custody
    have hmem : task ∈ origin.tasksAt .backlog := hbacklog
    have hone : origin.backlog.count task = 1 :=
      (horigin.located_of_mem hmem .backlog).trans (if_pos rfl)
    -- A task that waits for a worker has not been lost.
    have hnone : origin.unentered.count task = 0 := by
      have hlost : task ∉ origin.tasksAt .lost := horigin.not_mem_of_mem hmem (by decide)
      exact List.count_eq_zero.mpr fun hunentered => hlost (mem_lostTasks_of_unentered hunentered)
    rw [handedOver, handedOver, hone, hnone] at hsame
    refine ⟨hsame, fun hreadable => ?_, fun position after htask hstep => ?_⟩
    · rw [unentered, (hsound.intact hreadable).1]
      rfl
    · have hwaits : 0 < scheduler.backlog.count task :=
        List.count_pos_iff.mpr (List.mem_of_getElem? htask)
      have hle := hrecalled.entries_le
      rw [hsound.entries_of_takeUp htask hstep]
      omega

/-- A periodic task has run once and is in the dispatcher's hand for its second run when it is
cancelled: it does not run a second time. -/
theorem entries_of_cancels_in_hand :
    ∃ (past later : List (Scheduler Unit × Action Unit)) (origin final : Scheduler Unit),
      Run {} 1 (later ++ (origin, .request (.cancel 0)) :: past) final ∧
        origin.Cancels (.request (.cancel 0)) 0 ∧ origin.dispatcher = .holding 0 ∧
        final.dispatcher = .seeking ∧ final.agenda.entries 0 = 1 := by
  have hview : ((played {} 1
      [.request (.schedule (plainTask (.fixedRate (.ofSeconds 1)) .zero) true), .proceed 0,
        .dispatch, .dispatch, .takeUp 0, .work 0, .work 0, .work 0, .advance (.ofSeconds 1),
        .announce, .dispatch]).bind fun first =>
      (replay first.1 first.2 [.request (.cancel 0), .proceed 1, .dispatch]).map fun second =>
        (((first.2.record? 0).map Record.isDone, first.2.accepted, first.2.dispatcher),
          first.2.backlog, first.2.agenda.entries 0, second.2.dispatcher)) =
      some ((some false, [0], .holding 0), [], 1, .seeking) := by
    decide +kernel
  obtain ⟨⟨past, origin⟩, hplayed, hrest⟩ := Option.bind_eq_some_iff.mp hview
  obtain ⟨⟨whole, final⟩, hreplay, hparts⟩ := Option.map_eq_some_iff.mp hrest
  simp only [Prod.mk.injEq] at hparts
  obtain ⟨⟨hstate, haccepted, hholding⟩, hbacklog, hentries, hseeking⟩ := hparts
  obtain ⟨record, hrecord, hlive⟩ := Option.map_eq_some_iff.mp hstate
  obtain ⟨later, rfl⟩ := exists_append_of_replay_cons hreplay
  have hcancels : origin.Cancels (.request (.cancel 0)) 0 :=
    ⟨rfl, by rw [haccepted]; decide, record, hrecord, hlive⟩
  have hrun := (Run.of_played hplayed).of_replay hreplay
  have hnot : 0 ∉ origin.backlog := by rw [hbacklog]; decide
  obtain ⟨hsame, -⟩ := (hrun.entries_of_cancels (Or.inl hcancels)).1 hnot
  exact ⟨past, later, origin, final, hrun, hcancels, hholding, hseeking, hsame.trans hentries⟩

/-- With its only worker busy, a scheduler tells the holder of a task that has been handed over
that he has cancelled it, and enters the body of the task all the same. -/
theorem enters_after_cancel :
    ∃ (past later : List (Scheduler Unit × Action Unit)) (origin told final : Scheduler Unit),
      Run {} 1 past origin ∧ origin.Confirms (.proceed 2) 1 ∧
        origin.step (.proceed 2) = some told ∧ told.answer? 2 = some (.cancelled true) ∧
        told.agenda.entries 1 = 0 ∧
        Run {} 1 (later ++ (origin, .proceed 2) :: past) final ∧ final.agenda.entries 1 = 1 := by
  have hview : ((played {} 1
      [.request (.schedule (plainTask .oneShot .zero) true), .proceed 0, .dispatch, .dispatch,
        .takeUp 0, .request (.schedule (plainTask .oneShot .zero) true), .proceed 1, .dispatch,
        .dispatch, .request (.cancel 1)]).bind fun first =>
      (first.2.step (.proceed 2)).bind fun told =>
        (replay first.1 first.2 [.proceed 2, .work 0, .work 0, .takeUp 0]).map fun second =>
          (first.2.calls.lookup 2, told.agenda.entries 1, second.2.agenda.entries 1)) =
      some (some (.removing 1), 0, 1) := by
    decide +kernel
  obtain ⟨⟨past, origin⟩, hplayed, hrest⟩ := Option.bind_eq_some_iff.mp hview
  obtain ⟨told, htold, hrest⟩ := Option.bind_eq_some_iff.mp hrest
  obtain ⟨⟨whole, final⟩, hreplay, hparts⟩ := Option.map_eq_some_iff.mp hrest
  simp only [Prod.mk.injEq] at hparts
  obtain ⟨hcall, hbefore, hafter⟩ := hparts
  obtain ⟨later, rfl⟩ := exists_append_of_replay_cons hreplay
  have hrun := Run.of_played hplayed
  exact ⟨past, later, origin, told, final, hrun, hcall, htold, answer_of_removing hcall htold,
    hbefore, hrun.of_replay hreplay, hafter⟩

/-! ## Cancelled for good -/

/-- Once somebody has been told that he has cancelled a task, the task is out of the queue and
stays cancelled.  It is not started any more, and has run no more often than it had been
started by then. -/
theorem Run.final_of_confirms
    (hrun : Run config cores (later ++ (origin, action) :: past) scheduler)
    (hconfirms : origin.Confirms action task) :
    task ∉ scheduler.agenda.queue.tasks ∧ ¬ scheduler.Starts task ∧
      timesStarted (later ++ (origin, action) :: past) task = timesStarted past task ∧
      ∃ record, scheduler.record? task = some record ∧ record.state = .cancelled ∧
        record.runs ≤ timesStarted past task ∧
        (origin.agenda.entries task = timesStarted past task →
          record.runs = timesStarted past task) := by
  have hbefore := hrun.at_step.1
  have hwithdrawn : scheduler.Withdrawn task :=
    hrun.ever_after (fun _ hstep => hbefore.reachable.withdrawn_of_confirms hconfirms hstep)
      fun _ _ _ _ hsound hwithdrawn hmove => hmove.withdrawn hsound hwithdrawn
  obtain ⟨-, hsame, hle, -⟩ := hrun.recalled (Or.inr hconfirms)
  obtain ⟨record, hrecord, hcancelled⟩ := hwithdrawn.cancelled
  have hstarted : timesStarted (later ++ (origin, action) :: past) task =
      timesStarted past task := by
    rw [hrun.timesStarted_eq, hbefore.timesStarted_eq]
    exact hsame
  have hruns : record.runs = scheduler.agenda.entries task := by
    rw [hrun.reachable.tallied task, hrecord]
    rfl
  have hwhole := hrun.timesStarted_eq task
  rw [hstarted, handedOver] at hwhole
  refine ⟨hwithdrawn.not_queued, not_starts_of_cancelled hwithdrawn.cancelled, hstarted,
    record, hrecord, hcancelled, ?_, fun hall => ?_⟩
  · omega
  · omega

/-- A periodic task is cancelled after its first run, between being re-armed and returning to
the queue: it has run exactly once, and does not return. -/
theorem final_of_confirms_while_returning :
    ∃ (past later : List (Scheduler Unit × Action Unit)) (origin final : Scheduler Unit),
      Run {} 1 (later ++ (origin, .proceed 1) :: past) final ∧ origin.Confirms (.proceed 1) 0 ∧
        origin.tasksAt .returning = [0] ∧ 0 ∉ final.agenda.queue.tasks ∧
        ∃ record, final.record? 0 = some record ∧ record.state = .cancelled ∧ record.runs = 1 := by
  have hview : ((played {} 1
      [.request (.schedule (plainTask (.fixedRate (.ofSeconds 1)) .zero) true), .proceed 0,
        .dispatch, .dispatch, .takeUp 0, .work 0, .work 0, .request (.cancel 0)]).bind fun first =>
      (replay first.1 first.2
        [.proceed 1, .work 0, .work 0, .advance (.ofSeconds 1), .announce, .dispatch]).map fun _ =>
        ((first.2.calls.lookup 1, first.2.tasksAt .returning),
          first.2.agenda.entries 0, timesStarted first.1 0)) =
      some ((some (.removing 0), [0]), 1, 1) := by
    decide +kernel
  obtain ⟨⟨past, origin⟩, hplayed, hrest⟩ := Option.bind_eq_some_iff.mp hview
  obtain ⟨⟨whole, final⟩, hreplay, hparts⟩ := Option.map_eq_some_iff.mp hrest
  simp only [Prod.mk.injEq] at hparts
  obtain ⟨⟨hcall, hplace⟩, hentries, hstarted⟩ := hparts
  obtain ⟨later, rfl⟩ := exists_append_of_replay_cons hreplay
  have hrun := (Run.of_played hplayed).of_replay hreplay
  have hconfirms : origin.Confirms (.proceed 1) 0 := hcall
  obtain ⟨hqueued, -, -, record, hrecord, hcancelled, -, hexact⟩ :=
    hrun.final_of_confirms hconfirms
  exact ⟨past, later, origin, final, hrun, hconfirms, hplace, hqueued, record, hrecord, hcancelled,
    (hexact (hentries.trans hstarted.symm)).trans hstarted⟩

end Scheduler

end TimedTasks
