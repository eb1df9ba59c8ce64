import TimedTasks.Proofs.Scheduler.Answering
import TimedTasks.Proofs.Scheduler.Faults
import TimedTasks.Proofs.Scheduler.Stranding

/-!
# While the clock stands still

From one move of the clock to the next, callers may bring new tasks, and the scheduler goes on by
itself in whatever order.  An `Interlude` is what holds at any moment in between, against the
records with which the tasks started: those that there were when the clock came to where it stands,
and those with which tasks have been submitted since.  However the steps are ordered, each task
gets the runs that have come due since its start.

Nobody asks for a cancellation in an interlude.  The one thing that could still cancel a task is a
shutdown, which keeps periodic tasks from going back into the queue; so either there is none yet,
or no periodic task is left.
-/

namespace TimedTasks

namespace Scheduler

variable {α : Type} {before after scheduler : Scheduler α} {action : Action α}
variable {config : Config} {cores : Nat} {task culprit : TaskId} {starts : Array (Record α)}

/-! ## What cannot happen -/

namespace Unattended

variable (hidle : before.Unattended)

include hidle

/-- Nothing is cancelled without somebody asking for it. -/
theorem not_cancelled_of_step (hreachable : Reachable config cores before)
    (hspontaneous : action.IsSpontaneous) (hstep : before.step action = some after)
    {record later : Record α} (hsteady : before.lifecycle = .running ∨ record.isPeriodic = false)
    (hrecord : before.record? task = some record) (hkept : record.state ≠ .cancelled)
    (hlater : after.record? task = some later) : later.state ≠ .cancelled := by
  intro hcancelled
  have hcause : ¬ before.Cancels action task :=
    hidle.plain.not_cancels hreachable.scripted hspontaneous
  rcases hsteady with hrunning | honce
  · rcases hreachable.cause_of_cancelled hstep (fun hold => hkept (hold.holds hrecord))
      ⟨later, hlater, hcancelled⟩ with hcancels | hbegun
    · exact hcause hcancels
    · exact hbegun hrunning
  · have hsound := hreachable.sound
    have hmove := hidle.plain.move_of_step hreachable.scripted hstep
    obtain ⟨found, hfound, hevolves⟩ := hmove.recordsEvolve hsound.custody task record hrecord
    obtain rfl := Option.some.inj (hfound.symm.trans hlater)
    rcases (hmove.fate hsound.custody task).cancels hlater hcancelled
      (hevolves.isPeriodic_eq.trans honce) with hcancels | hswept | ⟨old, hold, hstate⟩
    · exact hcause hcancels
    · obtain ⟨⟨call, stage⟩, hcall, hmem⟩ := List.mem_flatMap.mp hswept
      obtain ⟨brought, patient, hstage⟩ := hidle.bringing _ hcall
      obtain rfl : stage = .inserting brought patient := hstage
      exact absurd hmem List.not_mem_nil
    · obtain rfl := Option.some.inj (hold.symm.trans hrecord)
      exact hkept hstate

/-- Nobody pulls a task out of the queue. -/
theorem not_removes (hscripted : before.Scripted) (action : Action α) (task : TaskId) :
    ¬ before.Removes action task := by
  cases action with
  | proceed call =>
      intro hremoves
      exact hidle.not_mem_calls (by simp) (mem_calls_of_lookup hremoves)
  | work worker =>
      rintro ⟨turn, hplays, -, hcancel, -⟩
      rw [(hidle.plain.of_plays hscripted hplays).cancel_eq] at hcancel
      exact absurd hcancel (by simp)
  | _ => exact id

/-- A call that goes on has its task accepted, and nobody loses one. -/
theorem complete_of_step (hreachable : Reachable config cores before)
    (hspontaneous : action.IsSpontaneous) (hstep : before.step action = some after)
    (hcomplete : task ∈ before.accepted ∨ task ∈ before.tasksAt .drafted) :
    task ∈ after.accepted ∨ task ∈ after.tasksAt .drafted := by
  by_cases hproceed : ∃ call, action = .proceed call
  · obtain ⟨call, rfl⟩ := hproceed
    obtain ⟨brought, patient, hcall, rfl⟩ := hidle.eq_of_proceed hstep
    refine hcomplete.elim (fun haccepted => Or.inl (List.mem_cons_of_mem _ haccepted))
      fun hdrafted => ?_
    obtain ⟨⟨other, stage⟩, hother, hdrafts⟩ := List.mem_flatMap.mp hdrafted
    by_cases hsame : other = call
    · subst hsame
      obtain rfl := hreachable.sound.numbered.eq_of_mem hother hcall
      obtain rfl := List.mem_singleton.mp hdrafts
      exact Or.inl (List.mem_cons_self ..)
    · refine Or.inr (List.mem_flatMap.mpr ⟨(other, stage), List.mem_filter.mpr ⟨hother, ?_⟩,
        hdrafts⟩)
      simpa using hsame
  · have hfront := front_of_step hstep (by rintro asked rfl; exact hspontaneous)
      (fun call hcall => hproceed ⟨call, hcall⟩)
    have hcalls : after.calls = before.calls := congrArg Front.calls hfront
    have hdrafted : after.tasksAt .drafted = before.tasksAt .drafted := by
      rw [tasksAt, tasksAt, hcalls]
    rw [hdrafted]
    exact hcomplete.imp_left
      fun haccepted => (hidle.same_of_step hreachable hspontaneous hstep).accepted_subset haccepted

end Unattended

/-! ## Tasks that are submitted -/

/-- A running scheduler accepts a task if its first two due times can be represented. -/
theorem firstDue_of_representable {submission : Submission α}
    (hrunning : scheduler.lifecycle = .running)
    (hreadable : scheduler.agenda.clock.isReadable = true)
    (hperiod : submission.schedule.period?.any Span.isZero = false)
    (hfirst : scheduler.agenda.reading.nanos + submission.delay.nanos < Moment.horizon)
    (hsecond : ∀ period, submission.schedule.period? = some period →
      scheduler.agenda.reading.nanos + submission.delay.nanos + period.nanos < Moment.horizon) :
    scheduler.firstDue submission =
      .ok (.ok ⟨scheduler.agenda.reading.nanos + submission.delay.nanos⟩) := by
  have hnow := Agenda.now_of_readable hreadable
  have hadd := Moment.add?_eq_some_iff.mpr
    (⟨rfl, hfirst⟩ : (⟨_⟩ : Moment).nanos = _ ∧ (⟨_⟩ : Moment).nanos < _)
  have hnext : ∀ {due : Moment},
      due.nanos = scheduler.agenda.reading.nanos + submission.delay.nanos →
      ∃ second?, submission.schedule.nextRun due due = .ok second? := by
    rintro due hdue
    have hafter : ∀ period, submission.schedule.period? = some period →
        Schedule.after due period = .ok (some ⟨due.nanos + period.nanos⟩) := by
      intro period hsome
      rw [Schedule.after, Moment.add?_eq_some_iff.mpr ⟨rfl, hdue ▸ hsecond period hsome⟩]
    cases hschedule : submission.schedule with
    | oneShot => exact ⟨none, rfl⟩
    | fixedRate period | fixedDelay period =>
        exact ⟨_, hafter period (by rw [hschedule]; rfl)⟩
  obtain ⟨second?, hsecondRun⟩ := hnext rfl
  simp [firstDue, hperiod, hrunning, Lifecycle.ensureRunning, hnow, hadd, hsecondRun]

/-- A call is to bring a task to the queue, or has been told that it has been accepted. -/
def Submitting (call : CallId) (task : TaskId) (scheduler : Scheduler α) : Prop :=
  (∃ patient, scheduler.calls = [(call, .inserting task patient)]) ∨
    scheduler.calls = [] ∧ scheduler.answer? call = some (.scheduled (.ok task))

theorem Unattended.submitting_of_step (hidle : before.Unattended) {call : CallId}
    (hsubmitting : Submitting call task before) (hspontaneous : action.IsSpontaneous)
    (hstep : before.step action = some after) : Submitting call task after := by
  by_cases hproceed : ∃ other, action = .proceed other
  · obtain ⟨other, rfl⟩ := hproceed
    obtain ⟨brought, patient, hcall, rfl⟩ := hidle.eq_of_proceed hstep
    rcases hsubmitting with ⟨same, hcalls⟩ | ⟨hcalls, -⟩
    · obtain ⟨rfl, hstage⟩ := Prod.mk.inj (List.mem_singleton.mp (hcalls ▸ hcall))
      obtain ⟨rfl, -⟩ := Call.inserting.inj hstage
      refine Or.inr ⟨?_, answer?_reply_self _ _ _⟩
      simp [reply, withQueue, accept, hcalls]
    · exact absurd (hcalls ▸ hcall) List.not_mem_nil
  · have hfront := front_of_step hstep (by rintro asked rfl; exact hspontaneous)
      (fun other hother => hproceed ⟨other, hother⟩)
    have hcalls : after.calls = before.calls := congrArg Front.calls hfront
    have hanswer : after.answer? call = before.answer? call :=
      congrArg (fun front => front.answers.lookup call) hfront
    rw [Submitting, hcalls, hanswer]
    exact hsubmitting

theorem Submitting.of_answer {call : CallId} (hsubmitting : Submitting call task scheduler)
    (hreachable : Reachable config cores scheduler) {answer : Answer}
    (hanswer : scheduler.answer? call = some answer) :
    scheduler.calls = [] ∧ answer = .scheduled (.ok task) := by
  rcases hsubmitting with ⟨patient, hcalls⟩ | ⟨hcalls, hok⟩
  · have hlookup := hreachable.attended.closed call answer hanswer
    rw [hcalls, List.lookup_cons_self] at hlookup
    exact absurd hlookup (by simp)
  · exact ⟨hcalls, Option.some.inj (hanswer.symm.trans hok)⟩

/-- A task has been given its record, and a call is to bring it to the queue. -/
structure Drafts (submission : Submission α) (due : Moment) (patient : Bool)
    (before after : Scheduler α) : Prop where
  record?_eq : ∀ other, after.record? other =
    if other = before.agenda.records.size then some (submission.record due)
    else before.record? other
  size_eq : after.agenda.records.size = before.agenda.records.size + 1
  calls_eq : after.calls =
    before.calls ++ [(before.nextCall, .inserting before.agenda.records.size patient)]
  clock_eq : after.agenda.clock = before.agenda.clock
  queue_eq : after.agenda.queue = before.agenda.queue
  accepted_eq : after.accepted = before.accepted
  lifecycle_eq : after.lifecycle = before.lifecycle
  unannounced_eq : after.unannounced = before.unannounced

/-- A task that may be scheduled now is to enter the queue. -/
theorem drafts_request {submission : Submission α} {due : Moment}
    (hdue : scheduler.firstDue submission = .ok (.ok due)) (patient : Bool) :
    Drafts submission due patient scheduler (scheduler.request (.schedule submission patient)) := by
  have hnumbered : scheduler.numbered.firstDue submission = .ok (.ok due) := hdue
  have hopened : scheduler.request (.schedule submission patient) =
      (scheduler.numbered.draft submission due).1.opened scheduler.nextCall
        (.inserting scheduler.agenda.records.size patient) := by
    unfold numbered at hnumbered ⊢
    simp only [request, hnumbered]
    rfl
  rw [hopened]
  exact ⟨scheduler.numbered.record?_draft submission due, Array.size_push .., rfl, rfl, rfl, rfl,
    rfl, rfl⟩

namespace Drafts

variable {submission : Submission α} {due : Moment} {patient : Bool}
variable (hdrafts : Drafts submission due patient before after)

include hdrafts

theorem reading_eq : after.agenda.reading = before.agenda.reading :=
  congrArg ManualClock.reading hdrafts.clock_eq

theorem record?_new : after.record? before.agenda.records.size = some (submission.record due) :=
  (hdrafts.record?_eq _).trans (if_pos rfl)

theorem record_cases {later : Record α} (hlater : after.record? task = some later) :
    task = before.agenda.records.size ∧ later = submission.record due ∨
      before.record? task = some later := by
  rw [hdrafts.record?_eq] at hlater
  split at hlater
  · rename_i htask
    exact Or.inl ⟨htask, (Option.some.inj hlater).symm⟩
  · exact Or.inr hlater

theorem drafted_eq :
    after.tasksAt .drafted = before.tasksAt .drafted ++ [before.agenda.records.size] := by
  rw [tasksAt, hdrafts.calls_eq, List.flatMap_append]
  rfl

theorem settledRuns_eq (hreachable : Reachable config cores after) :
    after.settledRuns before.agenda.records.size = 0 := by
  rw [settledRuns, hreachable.tallied, hdrafts.record?_new]
  exact Nat.zero_sub _

theorem unattended (hidle : before.Unattended) (hreachable : Reachable config cores before)
    (hrunning : before.lifecycle = .running) (hplain : ∀ run, (submission.script run).IsPlain) :
    after.Unattended where
  plain := by
    intro task later hlater
    rcases hdrafts.record_cases hlater with ⟨-, rfl⟩ | hold
    · exact hplain
    · exact hidle.plain task later hold
  bringing := by
    intro call hcall
    rw [hdrafts.calls_eq] at hcall
    rcases List.mem_append.mp hcall with hold | hnew
    · exact hidle.bringing call hold
    · exact ⟨_, patient, congrArg Prod.snd (List.mem_singleton.mp hnew)⟩
  accepting := by
    intro _
    by_contra hnot
    exact hreachable.foretold.of_not_accepting (hdrafts.queue_eq ▸ hnot) hrunning
  capacity_eq := by
    rw [hdrafts.queue_eq]
    exact hidle.capacity_eq

end Drafts

/-! ## Interludes -/

/-- The clock has not been moved since all tasks were as `starts` has them, or, for tasks that are
newer than that, since they were submitted. -/
structure Interlude (config : Config) (cores : Nat) (culprit : TaskId) (starts : Array (Record α))
    (scheduler : Scheduler α) : Prop where
  reachable : Reachable config cores scheduler
  unattended : scheduler.Unattended
  readable : scheduler.agenda.clock.isReadable = true
  size_eq : scheduler.agenda.records.size = starts.size
  /-- No task has been refused. -/
  complete : ∀ task record, scheduler.record? task = some record →
    task ∈ scheduler.accepted ∨ task ∈ scheduler.tasksAt .drafted
  lapses : ∀ task (start : Record α), starts[task]? = some start →
    scheduler.Has task (Lapses start start.runs task scheduler)
  stays : ∀ (task : TaskId) (start : Record α), starts[task]? = some start →
    start.StaysRepresentable scheduler.agenda.reading
  steady : scheduler.lifecycle = .running ∨ ∀ (task : TaskId) (start : Record α),
    starts[task]? = some start → start.isDone = false → start.isPeriodic = false
  /-- The dispatcher does not sleep on a drained queue. -/
  unstranded : ¬ scheduler.agenda.queue.IsStranded dispatcherCaller
  blamed : Blamed culprit scheduler

namespace Interlude

variable (hinterlude : Interlude config cores culprit starts before)

include hinterlude

theorem exists_start {record : Record α} (hrecord : before.record? task = some record) :
    ∃ start, starts[task]? = some start ∧ Lapses start start.runs task before record := by
  have hlt := (Array.getElem?_eq_some_iff.mp hrecord).1
  rw [hinterlude.size_eq] at hlt
  have hstart := Array.getElem?_eq_getElem hlt
  exact ⟨_, hstart, (hinterlude.lapses task _ hstart).holds hrecord⟩

/-- A step that leaves the clock alone and cancels nothing takes the tasks along. -/
theorem lapses_of_step (hpolicy : config.policy = .keepGoing)
    (hstep : before.step action = some after)
    (hnow : after.agenda.reading = before.agenda.reading) {start : Record α}
    (hstart : starts[task]? = some start)
    (hspared : start.isDone = false → ∀ later, after.record? task = some later →
      later.state ≠ .cancelled) :
    after.Has task (Lapses start start.runs task after) := by
  have hreachable := hinterlude.reachable
  exact (hinterlude.unattended.plain.move_of_step hreachable.scripted hstep).lapses
    hreachable.sound hreachable.punctual (hreachable.policy_eq.trans hpolicy) hnow
    (hinterlude.stays task start hstart) (hreachable.inProgress_le task) hspared
    (hinterlude.lapses task start hstart)

/-- No task is given up. -/
theorem blamed_of_step (hpolicy : config.policy = .keepGoing)
    (hstep : before.step action = some after)
    (hnew : ∀ task record, before.record? task = none → after.record? task = some record →
      before.Observed ∧ (task ≠ culprit → ∀ run, (record.script run).ending.error? = none)) :
    Blamed culprit after := by
  have hreachable := hinterlude.reachable
  refine hinterlude.blamed.of_step hinterlude.unattended.plain hreachable hstep
    (fun task record hcompletes hrecord error? => ?_) hnew
  obtain ⟨start, hstart, hlapses⟩ := hinterlude.exists_start hrecord
  rw [hreachable.policy_eq.trans hpolicy]
  exact hlapses.reason?_eq_none hreachable.sound hreachable.punctual
    (hinterlude.stays task start hstart)
    (hreachable.sound.settling_of_completes hstep hcompletes).1 hrecord error?

/-- The scheduler goes on by itself. -/
theorem of_step (hpolicy : config.policy = .keepGoing) (hspontaneous : action.IsSpontaneous)
    (hstep : before.step action = some after) : Interlude config cores culprit starts after := by
  have hreachable := hinterlude.reachable
  have hidle := hinterlude.unattended
  have hsame := hidle.same_of_step hreachable hspontaneous hstep
  refine
    { reachable := hreachable.step action hstep
      unattended := hidle.of_step hreachable hspontaneous hstep
      readable := hsame.clock_eq ▸ hinterlude.readable
      size_eq := hsame.size_eq.trans hinterlude.size_eq
      complete := fun task later hlater => ?_
      lapses := fun task start hstart => ?_
      stays := hsame.reading_eq ▸ hinterlude.stays
      steady := hinterlude.steady.imp_left hsame.lifecycle_eq
      unstranded := fun hafter => ?_
      blamed := ?_ }
  · obtain ⟨record, hrecord, -⟩ := hidle.exists_earlier hreachable hspontaneous hstep hlater
    exact hidle.complete_of_step hreachable hspontaneous hstep
      (hinterlude.complete task record hrecord)
  · refine hinterlude.lapses_of_step hpolicy hstep hsame.reading_eq hstart
      fun hlive later hlater => ?_
    obtain ⟨record, hrecord, hlapses⟩ := hinterlude.lapses task start hstart
    refine hidle.not_cancelled_of_step hreachable hspontaneous hstep ?_ hrecord
      (hlapses.spared hlive) hlater
    exact hinterlude.steady.imp_right fun honce =>
      (congrArg Schedule.isPeriodic hlapses.schedule_eq).trans (honce task start hstart hlive)
  · obtain ⟨task, hremoves, -⟩ := exists_removes_of_isStranded hreachable.sound
      hinterlude.unstranded hstep hafter
    exact hidle.not_removes hreachable.scripted action task hremoves
  · refine hinterlude.blamed_of_step hpolicy hstep fun task record hnone hlater => ?_
    exact absurd (((hsame.none_iff task).mpr hnone).symm.trans hlater) (by simp)

/-- Somebody begins to observe. -/
theorem observe (hpolicy : config.policy = .keepGoing) {observer : Observer}
    (hstep : before.step (.observe observer) = some after) :
    Interlude config cores culprit starts after ∧ after.Observed := by
  have hreachable := hinterlude.reachable.step _ hstep
  obtain rfl := Option.some.inj hstep
  refine ⟨?_, rfl⟩
  exact
    { reachable := hreachable
      unattended :=
        { plain := hinterlude.unattended.plain
          bringing := hinterlude.unattended.bringing
          accepting := hinterlude.unattended.accepting
          capacity_eq := hinterlude.unattended.capacity_eq }
      readable := hinterlude.readable
      size_eq := hinterlude.size_eq
      complete := hinterlude.complete
      lapses := fun task start hstart =>
        hinterlude.lapses_of_step hpolicy hstep rfl hstart fun hlive later hlater =>
          ((hinterlude.lapses task start hstart).holds hlater).spared hlive
      stays := hinterlude.stays
      steady := hinterlude.steady
      unstranded := hinterlude.unstranded
      blamed := hinterlude.blamed_of_step hpolicy hstep fun task record hnone hlater =>
        absurd (hnone.symm.trans hlater) (by simp) }

/-- A task is submitted, and starts as it is. -/
theorem schedule (hpolicy : config.policy = .keepGoing) {submission : Submission α} {due : Moment}
    (hdue : before.firstDue submission = .ok (.ok due)) (hrunning : before.lifecycle = .running)
    (hobserved : before.Observed) (hplain : ∀ run, (submission.script run).IsPlain)
    (hfaultless : starts.size ≠ culprit → ∀ run, (submission.script run).ending.error? = none)
    (hstays : (submission.record due).StaysRepresentable before.agenda.reading) (patient : Bool) :
    Interlude config cores culprit (starts.push (submission.record due))
      (before.request (.schedule submission patient)) := by
  have hstep : before.step (.request (.schedule submission patient)) = some _ := rfl
  have hreachable := hinterlude.reachable.step _ hstep
  have hdrafts := drafts_request hdue patient
  generalize before.request (.schedule submission patient) = after at hstep hreachable hdrafts ⊢
  have hsize := hinterlude.size_eq
  -- Whatever is said of all tasks is said of the new one and of the old ones.
  have hstarts : ∀ {task : TaskId} {start : Record α},
      (starts.push (submission.record due))[task]? = some start →
      task = starts.size ∧ start = submission.record due ∨ starts[task]? = some start := by
    intro task start hstart
    rw [Array.getElem?_push] at hstart
    split at hstart
    · rename_i htask
      exact Or.inl ⟨htask, (Option.some.inj hstart).symm⟩
    · exact Or.inr hstart
  refine
    { reachable := hreachable
      unattended := hdrafts.unattended hinterlude.unattended hinterlude.reachable hrunning hplain
      readable := hdrafts.clock_eq ▸ hinterlude.readable
      size_eq := by rw [hdrafts.size_eq, hsize, Array.size_push]
      complete := fun task later hlater => ?_
      lapses := fun task start hstart => ?_
      stays := fun task start hstart => ?_
      steady := Or.inl (hdrafts.lifecycle_eq.trans hrunning)
      unstranded := hdrafts.queue_eq ▸ hinterlude.unstranded
      blamed := hinterlude.blamed_of_step hpolicy hstep fun task later hnone hlater =>
        ⟨hobserved, fun hne => ?_⟩ }
  · rw [hdrafts.accepted_eq, hdrafts.drafted_eq]
    rcases hdrafts.record_cases hlater with ⟨rfl, -⟩ | hold
    · exact Or.inr (List.mem_append_right _ (List.mem_singleton_self _))
    · exact (hinterlude.complete task later hold).imp_right (List.mem_append_left _)
  · rcases hstarts hstart with ⟨rfl, rfl⟩ | hold
    · have hlapses : Lapses (submission.record due) (after.settledRuns starts.size) starts.size
          after (submission.record due) := lapses_refl fun hdone => absurd hdone Bool.false_ne_true
      rw [← hsize, hdrafts.settledRuns_eq hreachable] at hlapses
      exact hsize ▸ ⟨_, hdrafts.record?_new, hlapses⟩
    · refine hinterlude.lapses_of_step hpolicy hstep hdrafts.reading_eq hold
        fun hlive later hlater => ?_
      rcases hdrafts.record_cases hlater with ⟨-, rfl⟩ | hearlier
      · exact TaskState.noConfusion
      · exact ((hinterlude.lapses task start hold).holds hearlier).spared hlive
  · rw [hdrafts.reading_eq]
    rcases hstarts hstart with ⟨-, rfl⟩ | hold
    · exact hstays
    · exact hinterlude.stays task start hold
  · rcases hdrafts.record_cases hlater with ⟨rfl, rfl⟩ | hold
    · exact hfaultless (fun hsame => hne (hsize.trans hsame))
    · exact absurd (hnone.symm.trans hold) (by simp)

/-- Whoever waits for a task that does not repeat gets its value, unless its body fails. -/
theorem get?_cases {start : Record α} (hstart : starts[task]? = some start)
    (honce : start.isPeriodic = false) (hlive : start.isDone = false) (hother : task ≠ culprit) :
    before.Has task fun record =>
      record.isDone = false ∧ before.get? task = none ∨
        ∃ value, before.get? task = some (.ok value) := by
  have hreachable := hinterlude.reachable
  obtain ⟨record, hrecord, hlapses⟩ := hinterlude.lapses task start hstart
  refine ⟨record, hrecord, ?_⟩
  have hsame : record.isPeriodic = false :=
    (congrArg Schedule.isPeriodic hlapses.schedule_eq).trans honce
  obtain ⟨past, hrun⟩ := hreachable.exists_run
  have hall : ∀ found, before.record? task = some found → found.isPeriodic = false :=
    fun found hfound => Option.some.inj (hrecord.symm.trans hfound) ▸ hsame
  obtain ⟨ending?, -, -, hanswered⟩ := hrun.answered hall
  have hanswers := hanswered record hrecord hsame
  have hget : before.get? task = record.answer? := by rw [get?, hrecord, Option.bind_some]
  rw [hget]
  cases hstate : record.state with
  | pending | running =>
      have hopen : record.isDone = false := by rw [Record.isDone, hstate]; rfl
      exact Or.inl ⟨hopen, by simp [Record.answer?, hsame, hopen]⟩
  | completed =>
      obtain ⟨value, rfl⟩ := hanswers.completed hstate
      have hdone : record.isDone = true := by rw [Record.isDone, hstate]; rfl
      have hkept : record.isCancelled = false := by rw [Record.isCancelled, hstate]; rfl
      exact Or.inr ⟨value, by simp [Record.answer?, hsame, hdone, hkept, hanswers.result_eq,
        Record.resultOf]⟩
  | failed => exact absurd hstate (hinterlude.blamed.unfailed task record hother hrecord)
  | cancelled => exact absurd hstate (hlapses.spared hlive)

end Interlude

/-- Nobody has called a new scheduler. -/
theorem interlude_new (hcreated : new config cores = .ok scheduler)
    (hunbounded : config.capacity = 0) (culprit : TaskId) :
    Interlude config cores culprit #[] scheduler := by
  have hreachable := Reachable.start hcreated
  obtain rfl := new_eq_ok hcreated
  have hnone : ∀ {task : TaskId} {record : Record α},
      (#[] : Array (Record α))[task]? ≠ some record := by
    simp
  exact
    { reachable := hreachable
      unattended :=
        { plain := fun task record hrecord => absurd hrecord hnone
          bringing := fun call hcall => absurd hcall List.not_mem_nil
          accepting := fun hsome => absurd rfl hsome
          capacity_eq := by simp [Queue.new, hunbounded] }
      readable := (by decide : ManualClock.new.isReadable = true)
      size_eq := rfl
      complete := fun task record hrecord => absurd hrecord hnone
      lapses := fun task start hstart => absurd hstart hnone
      stays := fun task start hstart => absurd hstart hnone
      steady := Or.inl rfl
      unstranded := by
        rintro ⟨⟨hdraining, -, -⟩, -⟩
        exact absurd hdraining (by simp [Queue.new])
      blamed :=
        { observed := fun task record hrecord => absurd hrecord hnone
          only := fun task record _ hrecord => absurd hrecord hnone
          faithful := fun job hjob => absurd hjob List.not_mem_nil
          unfailed := fun task record _ hrecord => absurd hrecord hnone
          failed_eq := rfl
          heard_eq := rfl } }

end Scheduler

end TimedTasks
