import TimedTasks.Proofs.Scheduler.Interlude
import TimedTasks.Proofs.Scheduler.Latecomers

/-!
# A scheduler with nothing to do

When everything has settled and no body waits at a gate, all runs that have come due have been made:
the tasks that are left are queued, and none of them is due (`Interlude.dormant`).  From then on the
scheduler is `Dormant` until the clock is moved or a task is submitted.  Its callers may cancel
tasks or have it shut down, and its dispatcher may look at the queue over and over; nobody is handed
a task for that, and no run begins (`Dormant.of_step`).
-/

namespace TimedTasks

namespace Scheduler

variable {α : Type} {before after scheduler : Scheduler α} {action : Action α}
variable {config : Config} {cores : Nat} {task culprit : TaskId} {starts : Array (Record α)}

theorem eq_of_advance {move : Span} (hstep : before.step (.advance move) = some after) :
    ∃ clock, after =
      { before with
        agenda := { before.agenda with clock }
        unannounced := before.unannounced + 1 } := by
  simp only [step] at hstep
  split at hstep
  · exact ⟨_, (Option.some.inj hstep).symm⟩
  · simp at hstep

/-- Only a call that waits for room cannot go on. -/
theorem exists_parked_of_proceed {call : CallId} {stage : Call}
    (hnone : scheduler.proceed call stage = none) : ∃ task, stage = .parked task := by
  unfold proceed at hnone
  split at hnone
  case h_3 task => exact ⟨task, rfl⟩
  all_goals split at hnone <;> simp at hnone

theorem Sound.exists_parked_of_settled (hsound : scheduler.Sound)
    (hsettled : scheduler.isSettled = true) {call : CallId} {stage : Call}
    (hcall : (call, stage) ∈ scheduler.calls) : ∃ task, stage = .parked task := by
  have hnone := proceed_of_settled hsettled hcall
  simp only [step, hsound.numbered.lookup_eq hcall] at hnone
  exact exists_parked_of_proceed hnone

/-- No run is in flight, and nothing that is queued is due. -/
structure Dormant (config : Config) (cores : Nat) (culprit : TaskId) (scheduler : Scheduler α) :
    Prop where
  reachable : Reachable config cores scheduler
  plain : scheduler.Plain
  capacity_eq : scheduler.agenda.queue.capacity? = none
  readable : scheduler.agenda.clock.isReadable = true
  backlog_eq : scheduler.backlog = []
  jobs_eq : scheduler.jobs = []
  hand_eq : scheduler.dispatcher.hand = []
  early : ∀ entry ∈ scheduler.agenda.queue.entries, scheduler.agenda.reading < entry.key.due
  complete : ∀ task record, scheduler.record? task = some record → task ∈ scheduler.accepted
  unstranded : ¬ scheduler.agenda.queue.IsStranded dispatcherCaller
  blamed : Blamed culprit scheduler

namespace Dormant

section

variable (hdormant : Dormant config cores culprit scheduler)

include hdormant

theorem drafts_eq_nil {call : CallId} {stage : Call} (hcall : (call, stage) ∈ scheduler.calls) :
    stage.drafts = [] := by
  refine List.eq_nil_iff_forall_not_mem.mpr fun task htask => ?_
  have hcustody := hdormant.reachable.sound.custody
  have hdrafted : task ∈ scheduler.tasksAt .drafted := List.mem_flatMap.mpr ⟨_, hcall, htask⟩
  obtain ⟨record, hrecord⟩ := (hcustody.fitsAt_of_mem hdrafted).exists_record
  exact hcustody.not_accepted_of_drafts hcall htask (hdormant.complete task record hrecord)

theorem producers_eq_nil : scheduler.agenda.queue.producers.everyone = [] := by
  refine List.eq_nil_iff_forall_not_mem.mpr fun producer hproducer => ?_
  exact absurd (hdormant.drafts_eq_nil (hdormant.reachable.sound.parked_mem hproducer)) (by
    simp [Call.drafts])

theorem calls_eq_nil (hsettled : scheduler.isSettled = true) : scheduler.calls = [] := by
  refine List.eq_nil_iff_forall_not_mem.mpr fun ⟨call, stage⟩ hcall => ?_
  obtain ⟨task, rfl⟩ := hdormant.reachable.sound.exists_parked_of_settled hsettled hcall
  exact absurd (hdormant.drafts_eq_nil hcall) (List.cons_ne_nil _ _)

theorem lostTasks_eq_nil : scheduler.lostTasks = [] := by
  rw [lostTasks, (hdormant.reachable.sound.intact hdormant.readable).1]
  rfl

theorem inProgress_eq (task : TaskId) : scheduler.inProgress task = 0 := by
  have hnot : task ∉ scheduler.lostTasks := hdormant.lostTasks_eq_nil ▸ List.not_mem_nil
  have huncounted := count_uncounted_eq_zero hnot
  rw [inProgress, huncounted, tasksAt, hdormant.jobs_eq]
  rfl

theorem isOver {record : Record α} (hdone : record.isDone = true) :
    IsOver task scheduler record where
  isDone := hdone
  not_mem := by
    rw [hdormant.backlog_eq]
    exact List.not_mem_nil
  inProgress_eq := hdormant.inProgress_eq task

/-- Unless somebody cancels tasks, those that are queued are those that may still run. -/
theorem mem_tasks_iff (hremoving : ∀ call task, (call, .removing task) ∉ scheduler.calls)
    (hswept : scheduler.sweptOut = []) :
    task ∈ scheduler.agenda.queue.tasks ↔ scheduler.IsLive task := by
  have hsound := hdormant.reachable.sound
  constructor
  · intro hqueued
    have hmem : task ∈ scheduler.tasksAt .queued := hqueued
    obtain ⟨-, record, hrecord, hidle, -⟩ := hsound.custody.fitsAt_of_mem hmem
    refine ⟨record, hrecord, ?_⟩
    rcases hidle with hpending | hcancelled
    · rw [Record.isDone, hpending]
      rfl
    · obtain ⟨call, hcall⟩ :=
        hdormant.reachable.noticed.2 task hqueued ⟨record, hrecord, hcancelled⟩
      exact absurd hcall (hremoving call task)
  · intro hlive
    obtain ⟨record, hrecord, -⟩ := id hlive
    have haccepted := hdormant.complete task record hrecord
    obtain ⟨place, hlocated, hfits⟩ := hsound.custody.located_of_live haccepted hlive
    have hmem := hlocated.mem
    have hempty : ∀ {tasks : List TaskId}, tasks = [] → task ∉ tasks := by
      rintro tasks rfl
      exact List.not_mem_nil
    cases place with
    | queued => exact hmem
    | drafted => exact absurd haccepted hfits.1
    | held => exact absurd hmem (hempty hdormant.hand_eq)
    | backlog => exact absurd hmem (hempty hdormant.backlog_eq)
    | running | returning =>
        rw [tasksAt, hdormant.jobs_eq] at hmem
        exact absurd hmem List.not_mem_nil
    | swept => exact absurd hmem (hempty hswept)
    | lost => exact absurd hmem (hempty hdormant.lostTasks_eq_nil)

theorem entries_eq_nil (hcalls : scheduler.calls = []) (hover : ∀ task, ¬ scheduler.IsLive task) :
    scheduler.agenda.queue.entries = [] := by
  refine List.eq_nil_iff_forall_not_mem.mpr fun entry hentry => hover entry.task ?_
  exact (hdormant.mem_tasks_iff (by simp [hcalls]) (by simp [sweptOut, hcalls])).mp
    (List.mem_map_of_mem hentry)

/-- A scheduler that lets nobody in, and has nothing left to do, comes to its end. -/
theorem stopped (hsettled : scheduler.isSettled = true)
    (hadmission : scheduler.agenda.queue.admission ≠ .accepting)
    (hempty : scheduler.agenda.queue.entries = []) : scheduler.lifecycle = .stopped := by
  have hsound := hdormant.reachable.sound
  have hdispatch : scheduler.dispatch = none :=
    step_eq_none_of_settled hsettled (by simp [candidates] : .dispatch ∈ scheduler.candidates)
  refine hdormant.reachable.concluded.stopped_iff.mpr ?_
  cases hdispatcher : scheduler.dispatcher with
  | gone => rfl
  | broken => exact absurd hdispatcher (hsound.intact hdormant.readable).2
  | winding =>
      simp [dispatch, hdispatcher, hdormant.backlog_eq, hdormant.jobs_eq] at hdispatch
  | idle => simp [dispatch, hdispatcher] at hdispatch
  | holding task =>
      have hhand := hdormant.hand_eq
      rw [hdispatcher] at hhand
      exact absurd hhand (List.cons_ne_nil _ _)
  | seeking =>
      -- It would sleep on a queue that is closed or drained.
      have hasleep : scheduler.agenda.queue.isAsleep dispatcherCaller = true := by
        by_contra hawake
        simp [dispatch, hdispatcher, hawake] at hdispatch
      obtain ⟨taker, htaker, -⟩ := List.any_eq_true.mp hasleep
      obtain ⟨hopen, -⟩ := hsound.queue.watchful taker htaker
      refine absurd ⟨⟨?_, hempty, ?_⟩, hasleep⟩ hdormant.unstranded
      · cases hstage : scheduler.agenda.queue.admission with
        | accepting => exact absurd hstage hadmission
        | draining => rfl
        | closed => exact absurd hstage hopen
      · rw [hsound.queue.counted.blocked_eq, hdormant.producers_eq_nil, List.length_nil]

end

/-! ## Steps -/

section

variable (hdormant : Dormant config cores culprit before)

include hdormant

theorem not_work (hstep : before.step action = some after) (worker : Nat) :
    action ≠ .work worker := by
  rintro rfl
  simp [step, hdormant.jobs_eq] at hstep

/-- A step hands nobody a task. -/
theorem dozes_of_step (hquiet : ¬ action.Disturbs) (hstep : before.step action = some after) :
    after.agenda.clock = before.agenda.clock ∧ after.backlog = [] ∧ after.jobs = [] ∧
      after.dispatcher.hand = [] ∧ after.unannounced ≤ before.unannounced ∧
      after.agenda.queue.entries ⊆ before.agenda.queue.entries := by
  have hsound := hdormant.reachable.sound
  have hscripted := hdormant.reachable.scripted
  have hcalm := (hdormant.plain.tame hscripted).calm hquiet
  have hwork := hdormant.not_work hstep
  have hbacklog := hdormant.backlog_eq
  have hjobs := hdormant.jobs_eq
  have hhand := hdormant.hand_eq
  -- Nobody works and nothing is due, which leaves timers and the calls that cancel and shut down.
  have hbrings : ∀ {call stage}, (call, stage) ∈ before.calls → stage.drafts ≠ [] → False :=
    fun hcall hdrafts => hdrafts (hdormant.drafts_eq_nil hcall)
  cases hdormant.plain.move_of_step hscripted hstep with
  | drafted _ _ hcause | submittedInVain _ hcause | submitted _ _ _ hcause =>
      exact absurd hcause (hcalm.nothingNew _ _)
  | turnedAway hcall | admitted hcall | parked hcall | parkedAgain hcall | resumedRefused hcall
  | resumedAdmitted hcall => exact (hbrings hcall (by simp [Call.drafts])).elim
  | removed =>
      exact ⟨rfl, hbacklog, hjobs, hhand, Nat.le_refl _, (Queue.remove_rest _ _).2.subset⟩
  | closed =>
      refine ⟨rfl, hbacklog, hjobs, hhand, Nat.le_refl _, ?_⟩
      rw [goOn, withQueue, Queue.close_entries]
      exact List.filter_sublist.subset
  | @clockMoved move _ _ hasked => exact absurd hasked (hcalm.unmoved move)
  | took _ _ _ hentries hdue =>
      have hearly := hdormant.early _ (hentries ▸ List.mem_cons_self ..)
      exact absurd hdue (Nat.not_le.mpr hearly)
  | broke _ _ _ _ hunreadable =>
      exact absurd (hunreadable.symm.trans hdormant.readable) Bool.false_ne_true
  | started _ hdispatcher | discarded _ hdispatcher =>
      rw [hdispatcher] at hhand
      exact absurd hhand (List.cons_ne_nil _ _)
  | tookUp htask | lostUnentered htask =>
      rw [hbacklog] at htask
      exact absurd htask (by simp)
  | skipped hjob | ended _ hjob | settled hjob | rearmed hjob | lostUncounted hjob | requeued hjob
  | requeueRefused hjob | dropped hjob | letGo hjob =>
      exact absurd (hjobs ▸ hjob) List.not_mem_nil
  | timePassed _ _ hbody | pulledInBody _ _ _ hbody | noted _ _ hbody =>
      obtain ⟨worker, hbody⟩ := hbody
      exact absurd hbody (hwork worker)
  | idled | stopped | ceased =>
      exact ⟨rfl, hbacklog, hjobs, rfl, Nat.le_refl _, List.Subset.refl _⟩
  | announced => exact ⟨rfl, hbacklog, hjobs, hhand, Nat.sub_le _ _, List.Subset.refl _⟩
  | _ => exact ⟨rfl, hbacklog, hjobs, hhand, Nat.le_refl _, List.Subset.refl _⟩

/-- No task is new. -/
theorem exists_earlier (hquiet : ¬ action.Disturbs) (hstep : before.step action = some after)
    {later : Record α} (hlater : after.record? task = some later) :
    ∃ record, before.record? task = some record ∧ record.Evolves later := by
  have hsound := hdormant.reachable.sound
  have hscripted := hdormant.reachable.scripted
  cases hrecord : before.record? task with
  | none =>
      have hnone := (hdormant.plain.move_of_step hscripted hstep).record?_eq_none hsound
        ((hdormant.plain.tame hscripted).calm hquiet) hrecord
      exact absurd (hnone.symm.trans hlater) (by simp)
  | some record =>
      obtain ⟨found, hfound, hevolves⟩ := hsound.recordsEvolve_of_step hstep task record hrecord
      obtain rfl := Option.some.inj (hfound.symm.trans hlater)
      exact ⟨record, rfl, hevolves⟩

theorem completes?_eq_none : before.completes? action = none := by
  cases hcompletes : before.completes? action with
  | none => rfl
  | some task =>
      obtain ⟨worker, job, error?, -, hfind, -⟩ := exists_job_of_completes hcompletes
      rw [hdormant.jobs_eq] at hfind
      exact absurd hfind (by simp)

/-- As long as no task is pulled out of a queue that drains, the scheduler goes on as it does. -/
theorem of_step (hquiet : ¬ action.Disturbs)
    (hkept : before.lifecycle = .running ∨ ∀ task, ¬ before.Removes action task)
    (hstep : before.step action = some after) : Dormant config cores culprit after := by
  have hreachable := hdormant.reachable
  have hplain := hdormant.plain
  have hmove := hplain.move_of_step hreachable.scripted hstep
  obtain ⟨hclock, hbacklog, hjobs, hhand, -, hentries⟩ := hdormant.dozes_of_step hquiet hstep
  have hreading : after.agenda.reading = before.agenda.reading :=
    congrArg ManualClock.reading hclock
  refine
    { reachable := hreachable.step action hstep
      plain := hplain.of_step hreachable hquiet hstep
      capacity_eq := ?_
      readable := hclock ▸ hdormant.readable
      backlog_eq := hbacklog
      jobs_eq := hjobs
      hand_eq := hhand
      early := fun entry hentry => hreading ▸ hdormant.early entry (hentries hentry)
      complete := fun task later hlater => ?_
      unstranded := fun hafter => ?_
      blamed := ?_ }
  · rcases hmove.change hreachable.sound with heq | ⟨operation, hchange, -⟩
    · rw [heq]
      exact hdormant.capacity_eq
    · exact hchange.capacity_eq.trans hdormant.capacity_eq
  · obtain ⟨record, hrecord, -⟩ := hdormant.exists_earlier hquiet hstep hlater
    exact hmove.accepted_subset (hdormant.complete task record hrecord)
  · obtain ⟨task, hremoves, hstrands⟩ := exists_removes_of_isStranded hreachable.sound
      hdormant.unstranded hstep hafter
    rcases hkept with hrunning | hnot
    · have hdraining := hstrands.draining
      exact hreachable.foretold.of_not_accepting (by rw [hdraining]; decide) hrunning
    · exact hnot task hremoves
  · refine hdormant.blamed.of_step hplain hreachable hstep
      (fun task record hcompletes => ?_) fun task later hnone hlater => ?_
    · exact absurd (hcompletes.symm.trans hdormant.completes?_eq_none) (by simp)
    · obtain ⟨record, hrecord, -⟩ := hdormant.exists_earlier hquiet hstep hlater
      exact absurd (hnone.symm.trans hrecord) (by simp)

/-- Only callers change the records. -/
theorem records_of_step (hspontaneous : action.IsSpontaneous)
    (hproceed : ∀ call, action ≠ .proceed call) (hstep : before.step action = some after) :
    after.agenda.records = before.agenda.records := by
  cases action with
  | request | advance | release | observe => exact hspontaneous.elim
  | proceed call => exact absurd rfl (hproceed call)
  | work worker => exact absurd rfl (hdormant.not_work hstep worker)
  | takeUp position => simp [step, takeUp, hdormant.backlog_eq] at hstep
  | expire =>
      obtain rfl := Option.some.inj hstep
      rfl
  | announce =>
      simp only [step] at hstep
      split at hstep
      · simp at hstep
      · obtain rfl := Option.some.inj hstep
        rfl
  -- The dispatcher has nothing in hand, so that it starts no task.
  | dispatch =>
      have hdispatch : before.dispatch = some after := hstep
      unfold dispatch at hdispatch
      split at hdispatch
      · split at hdispatch
        · simp at hdispatch
        · obtain rfl := Option.some.inj hdispatch
          obtain ⟨queue, dispatcher, hlook⟩ := before.look_eq
          rw [hlook]
          rfl
      · rename_i task hholding
        have hhand := hdormant.hand_eq
        rw [hholding] at hhand
        exact absurd hhand (List.cons_ne_nil _ _)
      · split at hdispatch
        · obtain rfl := Option.some.inj hdispatch
          rfl
        · simp at hdispatch
      · obtain rfl := Option.some.inj hdispatch
        rfl
      · simp at hdispatch
      · simp at hdispatch

theorem not_removes (hremoving : ∀ call task, (call, .removing task) ∉ before.calls)
    (hstep : before.step action = some after) (task : TaskId) : ¬ before.Removes action task := by
  cases action with
  | proceed call => exact fun hremoves => hremoving call task (mem_calls_of_lookup hremoves)
  | work worker => exact absurd rfl (hdormant.not_work hstep worker)
  | _ => exact id

/-- When the clock is moved, the tasks start from where they are. -/
theorem interlude_of_advance (hcalls : before.calls = []) {move : Span}
    (hstep : before.step (.advance move) = some after)
    (hreadable : after.agenda.clock.isReadable = true)
    (hsteady : before.lifecycle = .running ∨ ∀ task record, before.record? task = some record →
      record.isDone = false → record.isPeriodic = false)
    (hstays : ∀ task record, before.record? task = some record →
      record.StaysRepresentable after.agenda.reading) :
    Interlude config cores culprit before.agenda.records after := by
  have hreachable := hdormant.reachable.step _ hstep
  have hblamed : Blamed culprit after :=
    hdormant.blamed.of_step hdormant.plain hdormant.reachable hstep
      (fun task record hcompletes => absurd hcompletes (by simp [completes?]))
      fun task later hnone hlater => by
        obtain ⟨clock, rfl⟩ := eq_of_advance hstep
        exact absurd (hnone.symm.trans hlater) (by simp)
  -- The move has changed no record, so that each task lapses from the record that it has.
  have hlapses : ∀ task start, before.record? task = some start →
      Lapses start start.runs task after start := by
    intro task start hstart
    have hidle : after.inProgress task = 0 := by
      obtain ⟨clock, rfl⟩ := eq_of_advance hstep
      exact hdormant.inProgress_eq task
    have hover : start.isDone = true → IsOver task after start := by
      obtain ⟨clock, rfl⟩ := eq_of_advance hstep
      exact fun hdone => ⟨hdone, (hdormant.isOver hdone).not_mem, hidle⟩
    have hlater : after.record? task = some start := by
      obtain ⟨clock, rfl⟩ := eq_of_advance hstep
      exact hstart
    have hruns : after.settledRuns task = start.runs := by
      rw [settledRuns, hidle, hreachable.tallied, hlater]
      rfl
    exact hruns ▸ lapses_refl hover
  obtain ⟨clock, rfl⟩ := eq_of_advance hstep
  exact
    { reachable := hreachable
      unattended :=
        { plain := hdormant.plain
          bringing := fun call hcall => absurd (hcalls ▸ hcall) List.not_mem_nil
          accepting := fun hsome => absurd hcalls hsome
          capacity_eq := hdormant.capacity_eq }
      readable := hreadable
      size_eq := rfl
      complete := fun task record hrecord => Or.inl (hdormant.complete task record hrecord)
      lapses := fun task start hstart => ⟨start, hstart, hlapses task start hstart⟩
      stays := hstays
      steady := hsteady
      unstranded := hdormant.unstranded
      blamed := hblamed }

end

end Dormant

/-! ## How it comes to that -/

namespace Interlude

variable (hinterlude : Interlude config cores culprit starts scheduler)

include hinterlude

theorem calls_eq_nil (hsettled : scheduler.isSettled = true) : scheduler.calls = [] := by
  refine List.eq_nil_iff_forall_not_mem.mpr fun ⟨call, stage⟩ hcall => ?_
  obtain ⟨task, rfl⟩ := hinterlude.reachable.sound.exists_parked_of_settled hsettled hcall
  exact hinterlude.unattended.not_mem_calls (by simp) hcall

theorem dormant (hcores : 0 < cores) (hsettled : scheduler.isSettled = true) :
    Dormant config cores culprit scheduler := by
  have hreachable := hinterlude.reachable
  have hidle := hinterlude.unattended
  have hcalls := hinterlude.calls_eq_nil hsettled
  have hungated : scheduler.Ungated := fun task record hrecord run =>
    (hidle.plain task record hrecord run).gate_eq
  have hjobs := hreachable.scripted.jobs_of_settled hungated hsettled
  exact
    { reachable := hreachable
      plain := hidle.plain
      capacity_eq := hidle.capacity_eq
      readable := hinterlude.readable
      backlog_eq := backlog_of_settled hsettled hjobs (hreachable.workers_pos hcores)
      jobs_eq := hjobs
      hand_eq := hand_of_settled hsettled
      early := fun entry hentry => hreachable.lt_due_of_settled hsettled
        (hreachable.sound.intact hinterlude.readable).2 hentry
      complete := fun task record hrecord => (hinterlude.complete task record hrecord).resolve_right
        (by simp [tasksAt, hcalls])
      unstranded := hinterlude.unstranded
      blamed := hinterlude.blamed }

/-- When the scheduler has stopped, it need not have settled. -/
theorem dormant_of_stopped (hcalls : scheduler.calls = [])
    (hstopped : scheduler.lifecycle = .stopped) : Dormant config cores culprit scheduler := by
  have hreachable := hinterlude.reachable
  obtain ⟨hgone, hentries, hbacklog, hjobs⟩ := hreachable.emptied_of_stopped hstopped
  exact
    { reachable := hreachable
      plain := hinterlude.unattended.plain
      capacity_eq := hinterlude.unattended.capacity_eq
      readable := hinterlude.readable
      backlog_eq := hbacklog
      jobs_eq := hjobs
      hand_eq := by rw [hgone]; rfl
      early := fun entry hentry => absurd (hentries ▸ hentry) List.not_mem_nil
      complete := fun task record hrecord => (hinterlude.complete task record hrecord).resolve_right
        (by simp [tasksAt, hcalls])
      unstranded := hinterlude.unstranded
      blamed := hinterlude.blamed }

/-- Each task has then had all its runs. -/
theorem lapsed (hdormant : Dormant config cores culprit scheduler) (hcalls : scheduler.calls = [])
    {start record : Record α} (hstart : starts[task]? = some start)
    (hrecord : scheduler.record? task = some record) :
    Lapsed start scheduler.agenda.reading record := by
  refine ((hinterlude.lapses task start hstart).holds hrecord).lapsed hinterlude.reachable
    (hdormant.inProgress_eq task) hrecord fun hlive => ?_
  have hqueued := (hdormant.mem_tasks_iff (by simp [hcalls]) (by simp [sweptOut, hcalls])).mpr
    ⟨record, hrecord, hlive⟩
  obtain ⟨entry, hentry, rfl⟩ := List.mem_map.mp hqueued
  have hearly := hdormant.early entry hentry
  rwa [hinterlude.reachable.punctual.entry entry hentry, dueOf_eq_nextRunAt hrecord] at hearly

end Interlude

end Scheduler

end TimedTasks
