import TimedTasks.Proofs.Scheduler.Handover
import TimedTasks.Proofs.Scheduler.Holdings

/-!
# A scheduler at a standstill

A scheduler goes from running to shutting down when somebody asks it to, and from there to
stopped when its dispatcher goes (`Reachable.lifecycle_step`).  It cannot stop before it has
been asked: the dispatcher leaves off only when the queue does not accept any more, and the
queue is closed only by the calls that shut the scheduler down (`Foretold`).

Once it has stopped, nothing is queued and nothing is in flight, nothing is ever started, and
whoever calls is turned away (`IsStill`).

The tasks are settled then, but for one kind.  A call that shuts the scheduler down first
empties the queue and then cancels what it has removed, task by task.  The dispatcher does not
wait for it, and so the scheduler may have stopped while some of these tasks are still pending.
-/

namespace TimedTasks

/-- A call that is about to close the queue. -/
def Call.Closes : Call → Prop
  | .claiming | .closing _ => True
  | _ => False

namespace Scheduler

variable {α : Type} {origin before after scheduler : Scheduler α} {action : Action α}
variable {config : Config} {cores : Nat} {past : List (Scheduler α × Action α)} {task : TaskId}

/-! ## How far a scheduler has come -/

/-- A scheduler begins to shut down when it is asked to, and stops when its dispatcher goes. -/
theorem Move.lifecycle_cases (hmove : Move origin action before after) :
    after.lifecycle = before.lifecycle ∨
      (∃ drain, action = .request (.shutdown drain)) ∧
        before.lifecycle = .running ∧ after.lifecycle = .shuttingDown ∨
      action = .dispatch ∧ before.dispatcher = .idle ∧ after.lifecycle = .stopped := by
  cases hmove with
  | @shutdownBegun drain _ hlifecycle hasked =>
      rcases hlifecycle with hrunning | ⟨hshutting, -⟩
      · refine Or.inr (Or.inl ⟨⟨drain, hasked⟩, hrunning, ?_⟩)
        exact congrArg Lifecycle.beginShutdown hrunning
      · refine Or.inl ?_
        show before.lifecycle.beginShutdown = before.lifecycle
        rw [hshutting]
        rfl
  | stopped hdispatcher hcause => exact Or.inr (Or.inr ⟨hcause, hdispatcher, rfl⟩)
  | _ => exact Or.inl rfl

theorem Move.not_running (hmove : Move origin action before after)
    (hbegun : before.lifecycle ≠ .running) : after.lifecycle ≠ .running := by
  rcases hmove.lifecycle_cases with hsame | ⟨-, -, hafter⟩ | ⟨-, -, hafter⟩
  · exact hsame ▸ hbegun
  · exact hafter ▸ Lifecycle.noConfusion
  · exact hafter ▸ Lifecycle.noConfusion

/-- Nobody closes the queue of a scheduler that still runs. -/
structure Foretold (scheduler : Scheduler α) : Prop where
  of_closes : ∀ call stage, (call, stage) ∈ scheduler.calls → stage.Closes →
    scheduler.lifecycle ≠ .running
  of_not_accepting : scheduler.agenda.queue.admission ≠ .accepting →
    scheduler.lifecycle ≠ .running

theorem Move.foretold (hmove : Move origin action before after) (hsound : before.Sound)
    (hforetold : before.Foretold) : after.Foretold where
  of_closes := by
    intro call stage hcall hcloses
    rcases hmove.arises hcall with hbefore | harises
    · exact hmove.not_running (hforetold.of_closes call stage hbefore hcloses)
    · cases harises with
      | claiming _ hbegun => exact hbegun
      | closing hbegun => exact hbegun
      | claimed hclaiming => exact hmove.not_running (hforetold.of_closes _ _ hclaiming trivial)
      | _ => exact hcloses.elim
  of_not_accepting := by
    intro hnot
    by_cases haccepting : before.agenda.queue.admission = .accepting
    · rcases hmove.change hsound with heq | ⟨operation, hchange, hanswers⟩
      · exact absurd (heq ▸ haccepting) hnot
      · obtain ⟨drain, rfl⟩ := hchange.eq_close_of_not_accepting haccepting hnot
        obtain ⟨-, call, hcall⟩ := hanswers
        exact hmove.not_running (hforetold.of_closes call _ hcall trivial)
    · exact hmove.not_running (hforetold.of_not_accepting haccepting)

theorem Reachable.foretold (hreachable : Reachable config cores scheduler) :
    scheduler.Foretold := by
  refine hreachable.induction_on_moves (fun first hcreated => ?_)
    fun _ _ _ _ hsound hforetold hmove => hmove.foretold hsound hforetold
  obtain rfl := new_eq_ok hcreated
  exact ⟨fun _ _ hcall => absurd hcall List.not_mem_nil, fun hnot => absurd rfl hnot⟩

/-- A dispatcher that has seen that no run is in flight belongs to a scheduler that is
shutting down. -/
theorem Reachable.shuttingDown_of_idle (hreachable : Reachable config cores scheduler)
    (hidle : scheduler.dispatcher = .idle) : scheduler.lifecycle = .shuttingDown := by
  have hconcluded := hreachable.concluded
  have hnot : scheduler.agenda.queue.admission ≠ .accepting := by
    rcases hconcluded.isOver (by rw [hidle]; trivial) with hclosed | ⟨hdraining, -⟩
    · rw [hclosed]; decide
    · rw [hdraining]; decide
  cases hlifecycle : scheduler.lifecycle with
  | running => exact absurd hlifecycle (hreachable.foretold.of_not_accepting hnot)
  | shuttingDown => rfl
  | stopped =>
      have hgone := hconcluded.stopped_iff.mp hlifecycle
      exact absurd (hidle.symm.trans hgone) Dispatcher.noConfusion

/-- What a step does to the lifecycle of a scheduler. -/
theorem Reachable.lifecycle_step (hreachable : Reachable config cores before)
    (hstep : before.step action = some after) :
    after.lifecycle = before.lifecycle ∨
      (∃ drain, action = .request (.shutdown drain)) ∧
        before.lifecycle = .running ∧ after.lifecycle = .shuttingDown ∨
      action = .dispatch ∧ before.lifecycle = .shuttingDown ∧ after.lifecycle = .stopped := by
  cases action with
  | request asked =>
      obtain rfl := Option.some.inj hstep
      rcases (move_request before asked).lifecycle_cases with hsame | hbegun | ⟨hcause, -⟩
      · exact Or.inl hsame
      · exact Or.inr (Or.inl hbegun)
      · cases hcause
  | dispatch =>
      rcases (move_dispatch hstep).lifecycle_cases with
        hsame | ⟨⟨drain, hcause⟩, -⟩ | ⟨-, hidle, hstopped⟩
      · exact Or.inl hsame
      · cases hcause
      · exact Or.inr (Or.inr ⟨rfl, hreachable.shuttingDown_of_idle hidle, hstopped⟩)
  | _ =>
      refine Or.inl (Scheduler.of_step (p := fun state => state.lifecycle = before.lifecycle)
        hreachable.sound hstep rfl fun first second _ heq hmove => ?_)
      rcases hmove.lifecycle_cases with hsame | ⟨⟨drain, hcause⟩, -⟩ | ⟨hcause, -⟩
      · exact hsame.trans heq
      · cases hcause
      · cases hcause

/-- A scheduler that does not run any more has been asked to shut down. -/
theorem Run.exists_shutdown (hrun : Run config cores past scheduler)
    (hbegun : scheduler.lifecycle ≠ .running) :
    ∃ step ∈ past, step.1.lifecycle = .running ∧ ∃ drain, step.2 = .request (.shutdown drain) := by
  induction hrun with
  | start hcreated =>
      obtain rfl := new_eq_ok hcreated
      exact absurd rfl hbegun
  | @step past before after hrun action hstep ih =>
      by_cases hrunning : before.lifecycle = .running
      · rcases hrun.reachable.lifecycle_step hstep with
          hsame | ⟨hasked, -⟩ | ⟨-, hshutting, -⟩
        · exact absurd (hsame.trans hrunning) hbegun
        · exact ⟨_, List.mem_cons_self .., hrunning, hasked⟩
        · exact absurd (hrunning.symm.trans hshutting) Lifecycle.noConfusion
      · obtain ⟨step, hmem, hasked⟩ := ih hrunning
        exact ⟨step, List.mem_cons_of_mem _ hmem, hasked⟩

/-! ## Nothing in hand -/

/-- A scheduler that has stopped has nothing in hand. -/
structure Emptied (scheduler : Scheduler α) : Prop where
  gone : scheduler.dispatcher = .gone
  entries_eq : scheduler.agenda.queue.entries = []
  backlog_eq : scheduler.backlog = []
  jobs_eq : scheduler.jobs = []

theorem Reachable.emptied_of_stopped (hreachable : Reachable config cores scheduler)
    (hstopped : scheduler.lifecycle = .stopped) : scheduler.Emptied := by
  have hconcluded := hreachable.concluded
  have hgone := hconcluded.stopped_iff.mp hstopped
  obtain ⟨hbacklog, hjobs⟩ := hconcluded.inFlight_eq (by rw [hgone]; trivial)
  refine ⟨hgone, ?_, hbacklog, hjobs⟩
  rcases hconcluded.isOver (by rw [hgone]; trivial) with hclosed | ⟨-, hentries, -⟩
  · exact hreachable.sound.queue.closed_empty hclosed
  · exact hentries

theorem Reachable.stopped_step (hreachable : Reachable config cores before)
    (hstopped : before.lifecycle = .stopped) (hstep : before.step action = some after) :
    after.lifecycle = .stopped ∧
      ∀ task, after.agenda.entries task = before.agenda.entries task := by
  have hafter : after.lifecycle = .stopped := by
    rcases hreachable.lifecycle_step hstep with hsame | ⟨-, hrunning, -⟩ | ⟨-, hshutting, -⟩
    · exact hsame.trans hstopped
    · exact absurd (hstopped.symm.trans hrunning) Lifecycle.noConfusion
    · exact absurd (hstopped.symm.trans hshutting) Lifecycle.noConfusion
  refine ⟨hafter, fun task => ?_⟩
  have hempty := hreachable.emptied_of_stopped hstopped
  have hlater := (Reachable.step hreachable action hstep).emptied_of_stopped hafter
  have hlaunches : ¬ before.Launches action task := by
    cases action with
    | dispatch =>
        rintro ⟨hholding, -⟩
        exact absurd (hempty.gone.symm.trans hholding) Dispatcher.noConfusion
    | _ => exact id
  -- No run is handed over, and none of those that have been is still to be entered.
  have hsame := handedOver_step hreachable.sound hstep task
  rw [if_neg hlaunches, handedOver, handedOver, hempty.backlog_eq, hlater.backlog_eq] at hsame
  obtain ⟨hentries, hlost⟩ := counts_le_of_step hreachable.sound hstep task
  omega

theorem Leads.stopped (hleads : before.Leads after) (hreachable : Reachable config cores before)
    (hstopped : before.lifecycle = .stopped) :
    after.lifecycle = .stopped ∧
      ∀ task, after.agenda.entries task = before.agenda.entries task := by
  induction hleads with
  | refl => exact ⟨hstopped, fun _ => rfl⟩
  | tail hleads hlast ih =>
      obtain ⟨action, hstep⟩ := hlast
      obtain ⟨hmid, hsame⟩ := ih
      have hmiddle := Leads.reachable hleads hreachable
      obtain ⟨hafter, hlater⟩ := hmiddle.stopped_step hmid hstep
      exact ⟨hafter, fun task => (hlater task).trans (hsame task)⟩

/-! ## Turned away -/

theorem answer_of_schedule (hstopped : scheduler.lifecycle = .stopped) (submission : Submission α)
    (patient : Bool) (hperiod : submission.schedule.period?.any Span.isZero = false) :
    (scheduler.request (.schedule submission patient)).answer? scheduler.nextCall =
      some (.scheduled (.error .closed)) := by
  have hdue : Scheduler.firstDue { scheduler with nextCall := scheduler.nextCall + 1 } submission =
      .ok (.error .closed) := by
    simp [firstDue, hperiod, hstopped, Lifecycle.ensureRunning]
  simp [request, hdue, reply, answer?]

theorem answer_of_shutdown (hstopped : scheduler.lifecycle = .stopped) (drain : Bool) :
    (scheduler.request (.shutdown drain)).answer? scheduler.nextCall =
      some (.shutDown (.error .closed)) := by
  simp [request, hstopped, reply, answer?]

/-- Nothing is queued and nothing is in flight, and whoever calls is turned away. -/
structure IsStill (scheduler : Scheduler α) : Prop where
  stopped : scheduler.lifecycle = .stopped
  active_eq : scheduler.active = 0
  entries_eq : scheduler.agenda.queue.entries = []
  schedule_refused : ∀ submission patient,
    submission.schedule.period?.any Span.isZero = false →
      (scheduler.request (.schedule submission patient)).answer? scheduler.nextCall =
        some (.scheduled (.error .closed))
  shutdown_refused : ∀ drain,
    (scheduler.request (.shutdown drain)).answer? scheduler.nextCall =
      some (.shutDown (.error .closed))

theorem Reachable.isStill (hreachable : Reachable config cores scheduler)
    (hstopped : scheduler.lifecycle = .stopped) : scheduler.IsStill where
  stopped := hstopped
  active_eq := by
    obtain ⟨-, -, hbacklog, hjobs⟩ := hreachable.emptied_of_stopped hstopped
    rw [active, hbacklog, hjobs]
    rfl
  entries_eq := (hreachable.emptied_of_stopped hstopped).entries_eq
  schedule_refused := answer_of_schedule hstopped
  shutdown_refused := answer_of_shutdown hstopped

/-- The lifecycle of a scheduler moves forward, one stage at a time.  A scheduler that has
stopped has been asked to shut down while it ran; it stays still ever after, and no body is
entered any more. -/
theorem Run.still_of_stopped (hrun : Run config cores past scheduler) :
    (∀ action after, scheduler.step action = some after →
      after.lifecycle = scheduler.lifecycle ∨
        after.lifecycle.rank = scheduler.lifecycle.rank + 1) ∧
    (scheduler.lifecycle = .stopped →
      (∃ step ∈ past, step.1.lifecycle = .running ∧
        ∃ drain, step.2 = .request (.shutdown drain)) ∧
      ∀ final, scheduler.Leads final →
        final.IsStill ∧ ∀ task, final.agenda.entries task = scheduler.agenda.entries task) := by
  have hreachable := hrun.reachable
  refine ⟨fun action after hstep => ?_, fun hstopped => ⟨?_, fun final hleads => ?_⟩⟩
  · rcases hreachable.lifecycle_step hstep with
      hsame | ⟨-, hrunning, hshutting⟩ | ⟨-, hshutting, hstopped⟩
    · exact Or.inl hsame
    · exact Or.inr (by rw [hrunning, hshutting]; rfl)
    · exact Or.inr (by rw [hshutting, hstopped]; rfl)
  · exact hrun.exists_shutdown (by rw [hstopped]; decide)
  · obtain ⟨hfinal, hsame⟩ := hleads.stopped hreachable hstopped
    exact ⟨(hleads.reachable hreachable).isStill hfinal, hsame⟩

/-- A one-shot task has run and the queue has drained: nothing more happens, and a call that
comes later is turned away. -/
theorem still_of_stopped_after_run :
    ∃ (past : List (Scheduler Unit × Action Unit)) (scheduler : Scheduler Unit),
      Run {} 1 past scheduler ∧ scheduler.lifecycle = .stopped ∧
        scheduler.agenda.entries 0 = 1 ∧
        (∃ step ∈ past, step.1.lifecycle = .running ∧
          ∃ drain, step.2 = .request (.shutdown drain)) ∧
        ∃ later, scheduler.step (.advance (.ofSeconds 1)) = some later ∧
          later.IsStill ∧ later.agenda.entries 0 = 1 := by
  have hview : (played {} 1
      [.request (.schedule (plainTask .oneShot .zero) true), .proceed 0,
        .request (.shutdown true), .proceed 1, .proceed 1, .dispatch, .dispatch, .takeUp 0,
        .work 0, .work 0, .dispatch, .dispatch, .dispatch]).bind (fun result =>
          (result.2.step (.advance (.ofSeconds 1))).map fun _ =>
            (result.2.lifecycle, result.2.agenda.entries 0)) =
      some (.stopped, 1) := by
    decide +kernel
  obtain ⟨⟨past, scheduler⟩, hplayed, hrest⟩ := Option.bind_eq_some_iff.mp hview
  obtain ⟨later, hlater, hparts⟩ := Option.map_eq_some_iff.mp hrest
  simp only [Prod.mk.injEq] at hparts
  obtain ⟨hstopped, hentries⟩ := hparts
  have hrun := Run.of_played hplayed
  obtain ⟨-, hever⟩ := hrun.still_of_stopped
  obtain ⟨hasked, hstill⟩ := hever hstopped
  obtain ⟨hquiet, hsame⟩ := hstill later (Leads.step .refl hlater)
  exact ⟨past, scheduler, hrun, hstopped, hentries, hasked, later, hlater, hquiet,
    (hsame 0).trans hentries⟩

/-! ## What is still to be cancelled -/

/-- A task that is not settled has been removed from the queue by a shutdown call, which has
not come to it yet, or its run has been lost. -/
theorem Reachable.swept_or_lost_of_live (hreachable : Reachable config cores scheduler)
    (hstopped : scheduler.lifecycle = .stopped) (haccepted : task ∈ scheduler.accepted)
    (hlive : scheduler.IsLive task) : task ∈ scheduler.sweptOut ∨ task ∈ scheduler.lostTasks := by
  obtain ⟨hgone, hentries, hbacklog, hjobs⟩ := hreachable.emptied_of_stopped hstopped
  by_contra hnot
  rw [not_or] at hnot
  obtain ⟨record, hrecord, hdone, -⟩ :=
    hreachable.sound.isSettled hentries hgone hbacklog hjobs haccepted hnot.1 hnot.2
  exact not_isLive_of_done ⟨record, hrecord, hdone⟩ hlive

theorem IsLive.state_ne (hlive : scheduler.IsLive task) {record : Record α}
    (hrecord : scheduler.record? task = some record) : record.state ≠ .cancelled := by
  intro hcancelled
  have hdone : record.isDone = true := (Record.isSettled_of_cancelled hcancelled).1
  exact not_isLive_of_done ⟨record, hrecord, hdone⟩ hlive

/-- The call cancels the next task that it has removed, unless somebody else has. -/
theorem Sound.step_cancelling (hsound : scheduler.Sound) {call : CallId} {drain : Bool}
    {left done : List TaskId}
    (hcall : (call, .cancelling drain (task :: left) done) ∈ scheduler.calls) :
    ∃ after, scheduler.step (.proceed call) = some after ∧ ¬ after.IsLive task := by
  have hlookup := hsound.numbered.lookup_eq hcall
  simp only [step, hlookup, proceed]
  cases hcancel : scheduler.agenda.cancel task with
  | mk agenda won =>
      cases won with
      | true =>
          obtain ⟨record, hrecord, -, rfl⟩ := Agenda.cancel_eq_true hcancel
          exact ⟨_, rfl, not_isLive_of_done (has_withRecord hrecord rfl)⟩
      | false =>
          obtain ⟨-, hdead⟩ := Agenda.cancel_eq_false hcancel
          refine ⟨_, rfl, ?_⟩
          rintro ⟨record, hrecord, hlive⟩
          exact absurd (hlive.symm.trans (hdead record hrecord)) Bool.false_ne_true

theorem get?_eq_none_iff (hrecord : ∃ record, scheduler.record? task = some record) :
    scheduler.get? task = none ↔
      scheduler.agenda.periodicOf task = false ∧ scheduler.IsLive task := by
  obtain ⟨record, hrecord⟩ := hrecord
  rw [get?, hrecord, Option.bind_some, Record.answer?_eq_none, periodicOf_eq_isPeriodic hrecord]
  have hstate : scheduler.IsLive task ↔ record.isDone = false :=
    ⟨fun hlive => Has.holds hlive hrecord, fun hlive => ⟨record, hrecord, hlive⟩⟩
  rw [hstate]

/-- When a scheduler has stopped, an accepted task is settled, unless it is pending and on the
list of a shutdown call that has not come to it yet, or its run has been lost; and no run has
been lost if the clock can be read.  Only the holders of one-shot tasks that are not settled
have to wait, and the call goes on to cancel what is on its list. -/
theorem Reachable.live_iff_of_stopped (hreachable : Reachable config cores scheduler)
    (hstopped : scheduler.lifecycle = .stopped) :
    (∀ task ∈ scheduler.accepted,
      (scheduler.IsLive task ↔
        (task ∈ scheduler.sweptOut ∧
            scheduler.Has task fun record => record.state = .pending) ∨
          task ∈ scheduler.lostTasks ∧
            scheduler.Has task fun record => record.state = .running) ∧
      (scheduler.get? task = none ↔
        scheduler.agenda.periodicOf task = false ∧ scheduler.IsLive task)) ∧
    (scheduler.agenda.clock.isReadable = true → scheduler.lostTasks = []) ∧
    ∀ call drain task left done,
      (call, .cancelling drain (task :: left) done) ∈ scheduler.calls →
        ∃ after, scheduler.step (.proceed call) = some after ∧ ¬ after.IsLive task := by
  have hsound := hreachable.sound
  refine ⟨fun task haccepted => ⟨⟨fun hlive => ?_, ?_⟩, ?_⟩, fun hreadable => ?_, ?_⟩
  · rcases hreachable.swept_or_lost_of_live hstopped haccepted hlive with hswept | hlost
    · have hmem : task ∈ scheduler.tasksAt .swept := hswept
      obtain ⟨-, record, hrecord, hidle, -⟩ := hsound.custody.fitsAt_of_mem hmem
      exact Or.inl ⟨hswept, record, hrecord, hidle.resolve_right (hlive.state_ne hrecord)⟩
    · have hmem : task ∈ scheduler.tasksAt .lost := hlost
      obtain ⟨-, record, hrecord, hbusy, -⟩ := hsound.custody.fitsAt_of_mem hmem
      exact Or.inr ⟨hlost, record, hrecord, hbusy.resolve_right (hlive.state_ne hrecord)⟩
  · rintro (⟨-, record, hrecord, hstate⟩ | ⟨-, record, hrecord, hstate⟩)
    · exact ⟨record, hrecord, by rw [Record.isDone, hstate]; rfl⟩
    · exact ⟨record, hrecord, by rw [Record.isDone, hstate]; rfl⟩
  · exact get?_eq_none_iff (hsound.custody.exists_record_of_accepted haccepted)
  · rw [lostTasks, (hsound.intact hreadable).1]
    rfl
  · exact fun call drain task left done hcall => hsound.step_cancelling hcall

/-- Of two tasks that a shutdown call has removed, one is cancelled and the other is not when
the scheduler stops.  The next step of the call makes up for it. -/
theorem live_iff_of_stopped_while_cancelling :
    ∃ (past : List (Scheduler Unit × Action Unit)) (scheduler : Scheduler Unit),
      Run {} 1 past scheduler ∧ scheduler.lifecycle = .stopped ∧
        ¬ scheduler.IsLive 0 ∧ scheduler.IsLive 1 ∧
        ∃ after, scheduler.step (.proceed 2) = some after ∧ ¬ after.IsLive 1 := by
  have hview : (played {} 1
      [.request (.schedule (plainTask .oneShot (.ofSeconds 1)) true), .proceed 0,
        .request (.schedule (plainTask .oneShot (.ofSeconds 2)) true), .proceed 1,
        .request (.shutdown false), .proceed 2, .proceed 2, .proceed 2, .dispatch, .dispatch,
        .dispatch]).map (fun result =>
          ((result.2.lifecycle, result.2.accepted, result.2.sweptOut, result.2.lostTasks),
            result.2.calls.lookup 2, (result.2.record? 1).map Record.state)) =
      some ((.stopped, [1, 0], [1], []), some (.cancelling false [1] [0]), some .pending) := by
    decide +kernel
  obtain ⟨⟨past, scheduler⟩, hplayed, hparts⟩ := Option.map_eq_some_iff.mp hview
  simp only [Prod.mk.injEq] at hparts
  obtain ⟨⟨hstopped, haccepted, hswept, hlost⟩, hcall, hstate⟩ := hparts
  have hrun := Run.of_played hplayed
  obtain ⟨htasks, -, hstep⟩ := hrun.reachable.live_iff_of_stopped hstopped
  refine ⟨past, scheduler, hrun, hstopped, fun hlive => ?_, ?_,
    hstep 2 false 1 [] [0] (mem_calls_of_lookup hcall)⟩
  · rcases (htasks 0 (by rw [haccepted]; decide)).1.mp hlive with ⟨hmem, -⟩ | ⟨hmem, -⟩
    · rw [hswept] at hmem
      exact absurd hmem (by decide)
    · rw [hlost] at hmem
      exact absurd hmem List.not_mem_nil
  · obtain ⟨record, hrecord, hpending⟩ := Option.map_eq_some_iff.mp hstate
    refine (htasks 1 (by rw [haccepted]; decide)).1.mpr (Or.inl ⟨?_, record, hrecord, hpending⟩)
    rw [hswept]
    decide

/-- A scheduler has stopped, and the holder of an accepted task still waits. -/
theorem waits_after_stop :
    ∃ (past : List (Scheduler Unit × Action Unit)) (scheduler : Scheduler Unit),
      Run {} 1 past scheduler ∧ scheduler.isTerminated = true ∧ 0 ∈ scheduler.accepted ∧
        (scheduler.Has 0 fun record => record.state = .pending) ∧ scheduler.get? 0 = none := by
  have hview : (played {} 1
      [.request (.schedule (plainTask .oneShot (.ofSeconds 60)) true), .proceed 0,
        .request (.shutdown false), .proceed 1, .proceed 1, .dispatch, .dispatch,
        .dispatch]).map (fun result =>
          ((result.2.isTerminated, result.2.accepted),
            (result.2.record? 0).map Record.state, (result.2.get? 0).isNone)) =
      some ((true, [0]), some .pending, true) := by
    decide +kernel
  obtain ⟨⟨past, scheduler⟩, hplayed, hparts⟩ := Option.map_eq_some_iff.mp hview
  simp only [Prod.mk.injEq, Option.isNone_iff_eq_none] at hparts
  obtain ⟨⟨hterminated, haccepted⟩, hstate, hwaits⟩ := hparts
  obtain ⟨record, hrecord, hpending⟩ := Option.map_eq_some_iff.mp hstate
  exact ⟨past, scheduler, Run.of_played hplayed, hterminated, by rw [haccepted]; decide,
    ⟨record, hrecord, hpending⟩, hwaits⟩

end Scheduler

end TimedTasks
