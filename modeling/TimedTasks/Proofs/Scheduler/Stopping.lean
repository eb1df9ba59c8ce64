import TimedTasks.Proofs.Queue.Draining
import TimedTasks.Proofs.Scheduler.Run

/-!
# A scheduler that drains and stops

A scheduler that nobody has hastened leaves nothing behind when it stops: no task is
queued, no producer waits, and every one-shot task that nobody has cancelled has run once,
unless its run has been lost because the clock could not be read.

Three invariants carry this.  The dispatcher leaves off only when the queue is over, and goes
only when no run is in flight any more (`Concluded`).  A scheduler that nobody hastens
sweeps out periodic tasks only (`Gentle`), so that a one-shot task is cancelled only by
those who ask for it (`Accounted`).  And a body is entered as often as the record says
(`Tallied`).
-/

namespace TimedTasks

/-- The dispatcher has been told that nothing will come any more. -/
def Dispatcher.HasCeased : Dispatcher → Prop
  | .winding | .idle | .gone => True
  | _ => False

/-- The dispatcher has seen that no run is in flight. -/
def Dispatcher.IsThrough : Dispatcher → Prop
  | .idle | .gone => True
  | _ => False

/-- A call that is about to close the queue for good. -/
def Call.Hastens : Call → Prop
  | .claiming | .closing false => True
  | _ => False

namespace Scheduler

variable {α : Type} {origin before after scheduler : Scheduler α} {action : Action α}
variable {config : Config} {cores : Nat} {past : List (Scheduler α × Action α)} {task : TaskId}

/-! ## When the dispatcher leaves off -/

/-- The dispatcher leaves off when there is nothing left to do. -/
structure Concluded (scheduler : Scheduler α) : Prop where
  isOver : scheduler.dispatcher.HasCeased → scheduler.agenda.queue.IsOver
  inFlight_eq : scheduler.dispatcher.IsThrough → scheduler.backlog = [] ∧ scheduler.jobs = []
  stopped_iff : scheduler.lifecycle = .stopped ↔ scheduler.dispatcher = .gone

theorem Move.isOver_of_hasCeased (hmove : Move origin action before after)
    (hceased : after.dispatcher.HasCeased) :
    before.dispatcher.HasCeased ∨ after.agenda.queue.IsOver := by
  cases hmove with
  | took | started | discarded | broke => exact hceased.elim
  | ceased _ _ hadmission => exact Or.inr hadmission
  | idled hdispatcher | stopped hdispatcher => exact Or.inl (by rw [hdispatcher]; trivial)
  | _ => exact Or.inl hceased

theorem Move.isOver (hmove : Move origin action before after) (hsound : before.Sound)
    (hover : before.agenda.queue.IsOver) : after.agenda.queue.IsOver := by
  rcases hmove.change hsound with heq | ⟨operation, hchange, -⟩
  · rw [heq]
    exact hover
  · exact hchange.isOver hsound.queue.counted hover

/-- When no run is in flight and the dispatcher starts none, none will ever be. -/
theorem Move.inFlight_eq (hmove : Move origin action before after)
    (hthrough : before.dispatcher.IsThrough) (hbacklog : before.backlog = [])
    (hjobs : before.jobs = []) : after.backlog = [] ∧ after.jobs = [] := by
  have hnobody : ∀ {job : Job α}, job ∉ before.jobs := by
    intro job hjob
    rw [hjobs] at hjob
    exact List.not_mem_nil hjob
  cases hmove with
  | started _ hdispatcher =>
      rw [hdispatcher] at hthrough
      exact hthrough.elim
  | tookUp htask | lostUnentered htask =>
      rw [hbacklog] at htask
      simp at htask
  | skipped hjob | ended _ hjob | settled hjob | rearmed hjob | lostUncounted hjob
  | requeued hjob | requeueRefused hjob | dropped hjob | letGo hjob =>
      exact absurd hjob hnobody
  | _ => exact ⟨hbacklog, hjobs⟩

theorem Move.isThrough (hmove : Move origin action before after)
    (hthrough : after.dispatcher.IsThrough) :
    before.dispatcher.IsThrough ∨ after.backlog = [] ∧ after.jobs = [] := by
  cases hmove with
  | took | ceased | started | discarded | broke => exact hthrough.elim
  | idled _ hbacklog hjobs => exact Or.inr ⟨hbacklog, hjobs⟩
  | stopped hdispatcher => exact Or.inl (by rw [hdispatcher]; trivial)
  | _ => exact Or.inl hthrough

/-- A scheduler stops when its dispatcher goes, and the dispatcher does not come back. -/
theorem Move.stopped_iff (hmove : Move origin action before after)
    (hbefore : before.lifecycle = .stopped ↔ before.dispatcher = .gone) :
    after.lifecycle = .stopped ↔ after.dispatcher = .gone := by
  -- The dispatcher moves only while the scheduler has not stopped.
  have hnot : ∀ {dispatcher other : Dispatcher}, before.dispatcher = dispatcher →
      dispatcher ≠ .gone → other ≠ .gone → (before.lifecycle = .stopped ↔ other = .gone) := by
    intro dispatcher other hdispatcher hne hother
    rw [hbefore, hdispatcher]
    exact iff_of_false hne hother
  cases hmove with
  | shutdownBegun _ hlifecycle =>
      have hopen : before.lifecycle ≠ .stopped := by
        rcases hlifecycle with hrunning | ⟨hshutting, -⟩
        · rw [hrunning]; decide
        · rw [hshutting]; decide
      refine iff_of_false ?_ fun hgone => hopen (hbefore.mpr hgone)
      change before.lifecycle.beginShutdown ≠ .stopped
      cases hseen : before.lifecycle with
      | running => decide
      | shuttingDown => decide
      | stopped => exact absurd hseen hopen
  | took hdispatcher | broke hdispatcher | ceased hdispatcher | started _ hdispatcher
  | discarded _ hdispatcher | idled hdispatcher =>
      exact hnot hdispatcher Dispatcher.noConfusion Dispatcher.noConfusion
  | stopped => exact iff_of_true rfl rfl
  | _ => exact hbefore

theorem Move.concluded (hmove : Move origin action before after) (hsound : before.Sound)
    (hconcluded : before.Concluded) : after.Concluded where
  isOver := by
    intro hceased
    rcases hmove.isOver_of_hasCeased hceased with hbefore | hover
    · exact hmove.isOver hsound (hconcluded.isOver hbefore)
    · exact hover
  inFlight_eq := by
    intro hthrough
    rcases hmove.isThrough hthrough with hbefore | hnone
    · obtain ⟨hbacklog, hjobs⟩ := hconcluded.inFlight_eq hbefore
      exact hmove.inFlight_eq hbefore hbacklog hjobs
    · exact hnone
  stopped_iff := hmove.stopped_iff hconcluded.stopped_iff

theorem Move.hasCeased (hmove : Move origin action before after)
    (hceased : before.dispatcher.HasCeased) : after.dispatcher.HasCeased := by
  cases hmove with
  | took hdispatcher | broke hdispatcher | started _ hdispatcher | discarded _ hdispatcher =>
      exact absurd hceased (by rw [hdispatcher]; exact id)
  | ceased | idled | stopped => trivial
  | _ => exact hceased

theorem concluded_new (hcreated : new config cores = .ok scheduler) : scheduler.Concluded := by
  obtain rfl := new_eq_ok hcreated
  exact ⟨False.elim, False.elim, Lifecycle.noConfusion, Dispatcher.noConfusion⟩

theorem Reachable.concluded (hreachable : Reachable config cores scheduler) :
    scheduler.Concluded :=
  hreachable.induction_on_moves (fun _ => concluded_new)
    fun _ _ _ _ hsound hconcluded hmove => hmove.concluded hsound hconcluded

/-! ## Nobody is in a hurry -/

/-- The queue has not been closed for good and is not about to be, and only periodic tasks
are swept out of it. -/
structure Gentle (scheduler : Scheduler α) : Prop where
  not_closed : scheduler.agenda.queue.admission ≠ .closed
  not_hastens : ∀ call stage, (call, stage) ∈ scheduler.calls → ¬ stage.Hastens
  swept_periodic : ∀ task ∈ scheduler.tasksAt .swept, scheduler.agenda.periodicOf task = true

/-- What is swept out is periodic if the queue drains. -/
theorem Move.swept_periodic (hmove : Move origin action before after) (hsound : before.Sound)
    (hgentle : before.Gentle) :
    ∀ task ∈ after.tasksAt .swept, after.agenda.periodicOf task = true := by
  have hevolve := hmove.recordsEvolve hsound.custody
  have hkept : ∀ {task}, task ∈ before.tasksAt .swept → after.agenda.periodicOf task = true := by
    intro task hmem
    rw [hevolve.periodicOf_eq (hsound.custody.fitsAt_of_mem hmem).exists_record]
    exact hgentle.swept_periodic task hmem
  intro task hmem
  obtain ⟨⟨call, stage⟩, hcall, htask⟩ := List.mem_flatMap.mp hmem
  rcases hmove.arises hcall with hbefore | harises
  · exact hkept (List.mem_flatMap.mpr ⟨_, hbefore, htask⟩)
  · cases harises with
    | @cancelling other drain hclosing =>
        -- The sweep has just been made, by a call that lets the queue drain.
        have hdrain : drain = true := by
          cases drain with
          | true => rfl
          | false => exact absurd trivial (hgentle.not_hastens other _ hclosing)
        subst hdrain
        obtain ⟨entry, hentry, rfl⟩ := List.mem_map.mp htask
        rw [Queue.close_removed, List.mem_filter] at hentry
        obtain ⟨hentry, hleaves⟩ := hentry
        have hperiodic : entry.periodic = true := by simpa [Queue.staysOn] using hleaves
        rw [hevolve.periodicOf_eq (hsound.exists_record_of_queued hentry),
          ← hsound.flagged.entry_eq entry hentry]
        exact hperiodic
    | @sweeping other _ swept _ _ hsweeping =>
        exact hkept (List.mem_flatMap.mpr ⟨_, hsweeping, List.mem_cons_of_mem _ htask⟩)
    | _ => exact absurd htask List.not_mem_nil

theorem Move.gentle (hmove : Move origin action before after) (hsound : before.Sound)
    (hgentle : before.Gentle) (hquiet : ¬ origin.Hastens action) : after.Gentle where
  not_closed := by
    intro hclosed
    rcases hmove.change hsound with heq | ⟨operation, hchange, hanswers⟩
    · exact hgentle.not_closed (heq ▸ hclosed)
    · obtain rfl := hchange.eq_close_of_closed hgentle.not_closed hclosed
      obtain ⟨-, call, hcall⟩ := hanswers
      exact hgentle.not_hastens call _ hcall trivial
  not_hastens := by
    intro call stage hcall hhastens
    rcases hmove.arises hcall with hbefore | harises
    · exact hgentle.not_hastens call stage hbefore hhastens
    · cases harises with
      | claiming hcause => exact hquiet hcause
      | claimed hclaiming => exact hgentle.not_hastens _ _ hclaiming trivial
      | _ => exact hhastens
  swept_periodic := hmove.swept_periodic hsound hgentle

theorem gentle_new (hcreated : new config cores = .ok scheduler) : scheduler.Gentle := by
  obtain rfl := new_eq_ok hcreated
  exact ⟨Admission.noConfusion, fun _ _ hcall => absurd hcall List.not_mem_nil,
    fun _ hmem => absurd hmem List.not_mem_nil⟩

theorem Run.gentle (hrun : Run config cores past scheduler)
    (hquiet : ∀ step ∈ past, ¬ step.1.Hastens step.2) : scheduler.Gentle := by
  induction hrun with
  | start hcreated => exact gentle_new hcreated
  | @step past before after hrun action hstep ih =>
      rw [List.forall_mem_cons] at hquiet
      obtain ⟨hlast, hearlier⟩ := hquiet
      exact Scheduler.of_step hrun.reachable.sound hstep (ih hearlier)
        fun first second hsound hgentle hmove => hmove.gentle hsound hgentle hlast

/-! ## Who has cancelled a task -/

/-- A one-shot task is cancelled by somebody, unless it is swept out. -/
theorem Fate.cancels {first second : Option (Record α) × Nat}
    (hfate : Fate origin action before task first second) {later : Record α}
    (hlater : second.1 = some later) (hcancelled : later.state = .cancelled)
    (honce : later.isPeriodic = false) :
    origin.Cancels action task ∨ task ∈ before.tasksAt .swept ∨
      ∃ record, first.1 = some record ∧ record.state = .cancelled := by
  cases hfate with
  | kept => exact Or.inr (Or.inr ⟨later, hlater, hcancelled⟩)
  | drafted =>
      obtain rfl := Option.some.inj hlater
      exact absurd hcancelled (by simp [Submission.record])
  | cancelled _ hcause =>
      obtain rfl := Option.some.inj hlater
      rcases hcause with hcause | ⟨hperiodic, -⟩ | hswept
      · exact Or.inl hcause
      · exact absurd (honce.symm.trans hperiodic) Bool.false_ne_true
      · exact Or.inr (Or.inl hswept)
  | started =>
      obtain rfl := Option.some.inj hlater
      exact absurd hcancelled (by simp)
  | @entered record =>
      obtain rfl := Option.some.inj hlater
      obtain ⟨bodySpent, henter⟩ := record.enter_fst
      rw [henter] at hcancelled
      exact Or.inr (Or.inr ⟨record, rfl, hcancelled⟩)
  | @left record _ ending =>
      obtain rfl := Option.some.inj hlater
      obtain ⟨result?, failures, lastError?, hleave⟩ := record.leave_eq ending
      rw [hleave] at hcancelled
      exact Or.inr (Or.inr ⟨record, rfl, hcancelled⟩)
  | settled _ _ hstate =>
      obtain rfl := Option.some.inj hlater
      exact Or.inr (Or.inr ⟨_, rfl, hstate hcancelled⟩)

/-- Every cancelled one-shot task was cancelled by its holder or by a body, in one of the
steps of `past`. -/
def Accounted (past : List (Scheduler α × Action α)) (scheduler : Scheduler α) : Prop :=
  ∀ task record, scheduler.record? task = some record → record.state = .cancelled →
    record.isPeriodic = false → ∃ step ∈ past, step.1.Cancels step.2 task

theorem Move.accounted (hmove : Move origin action before after) (hsound : before.Sound)
    (hgentle : before.Gentle) (hstep : (origin, action) ∈ past)
    (haccounted : before.Accounted past) : after.Accounted past := by
  intro task later hlater hcancelled honce
  have hevolve := hmove.recordsEvolve hsound.custody
  rcases (hmove.fate hsound.custody task).cancels hlater hcancelled honce with
    hcause | hswept | ⟨record, hrecord, hbefore⟩
  · exact ⟨_, hstep, hcause⟩
  · have hperiodic := hgentle.swept_periodic task hswept
    rw [← hevolve.periodicOf_eq (hsound.custody.fitsAt_of_mem hswept).exists_record,
      periodicOf_eq_isPeriodic hlater, honce] at hperiodic
    exact absurd hperiodic Bool.false_ne_true
  · obtain ⟨found, hfound, hevolves⟩ := hevolve task record hrecord
    obtain rfl := Option.some.inj (hlater.symm.trans hfound)
    exact haccounted task record hrecord hbefore (hevolves.isPeriodic_eq.symm.trans honce)

theorem Run.accounted (hrun : Run config cores past scheduler)
    (hquiet : ∀ step ∈ past, ¬ step.1.Hastens step.2) : scheduler.Accounted past := by
  induction hrun with
  | start hcreated =>
      intro task record hrecord
      have hnone := congrArg Prod.fst (standing_new hcreated task)
      exact absurd (hnone.symm.trans hrecord) (by simp)
  | @step past before after hrun action hstep ih =>
      have hlast := hquiet (before, action) (List.mem_cons_self ..)
      have hearlier : ∀ step ∈ past, ¬ step.1.Hastens step.2 :=
        fun step hstep => hquiet step (List.mem_cons_of_mem _ hstep)
      -- The last step goes among those that may answer before its moves are looked at.
      have hbefore : before.Gentle ∧ before.Accounted ((before, action) :: past) := by
        refine ⟨hrun.gentle hearlier, fun task record hrecord hcancelled honce => ?_⟩
        obtain ⟨step, hmem, hcause⟩ := ih hearlier task record hrecord hcancelled honce
        exact ⟨step, List.mem_cons_of_mem _ hmem, hcause⟩
      have hafter : after.Gentle ∧ after.Accounted ((before, action) :: past) := by
        refine Scheduler.of_step hrun.reachable.sound hstep
          (p := fun state => state.Gentle ∧ state.Accounted ((before, action) :: past)) hbefore ?_
        rintro first second hsound ⟨hgentle, haccounted⟩ hmove
        exact ⟨hmove.gentle hsound hgentle hlast,
          hmove.accounted hsound hgentle (List.mem_cons_self ..) haccounted⟩
      exact hafter.2

/-! ## How often a body is entered -/

/-- Bodies have been entered as often as the records say. -/
def Tallied (scheduler : Scheduler α) : Prop :=
  ∀ task, scheduler.agenda.entries task = ((scheduler.record? task).map Record.runs).getD 0

theorem Fate.tallied {first second : Option (Record α) × Nat}
    (hfate : Fate origin action before task first second)
    (htallied : first.2 = (first.1.map Record.runs).getD 0) :
    second.2 = (second.1.map Record.runs).getD 0 := by
  cases hfate with
  | kept | drafted | cancelled | started => exact htallied
  | settled _ hruns => exact htallied.trans hruns.symm
  | @entered record =>
      -- The only case in which both sides grow.
      obtain ⟨bodySpent, henter⟩ := record.enter_fst
      rw [henter]
      exact congrArg Nat.succ htallied
  | @left record _ ending =>
      obtain ⟨result?, failures, lastError?, hleave⟩ := record.leave_eq ending
      rw [hleave]
      exact htallied

theorem Reachable.tallied (hreachable : Reachable config cores scheduler) :
    scheduler.Tallied := by
  refine hreachable.induction_on_moves (fun first hcreated task => ?_) ?_
  · obtain ⟨hrecord, hentries⟩ := Prod.mk.inj (standing_new hcreated task)
    rw [hrecord, hentries]
    rfl
  · intro origin action first second hsound htallied hmove task
    exact (hmove.fate hsound.custody task).tallied (htallied task)

/-! ## What is left behind -/

/-- Whoever waits for room is asleep or woken in the queue. -/
theorem Sound.not_parked (hsound : scheduler.Sound)
    (hproducers : scheduler.agenda.queue.producers.everyone = []) (call : CallId)
    (task : TaskId) : (call, .parked task) ∉ scheduler.calls := by
  intro hcall
  have hmatched := hsound.matched
  rw [Matched, hproducers, List.map_nil] at hmatched
  have hmem : (call, task) ∈ scheduler.calls.flatMap fun call => call.2.waits call.1 :=
    List.mem_flatMap.mpr ⟨_, hcall, List.mem_singleton_self _⟩
  exact List.not_mem_nil (hmatched.mem_iff.mpr hmem)

/-- An accepted task that nobody has in hand any more is settled, unless its run is lost. -/
theorem Sound.isSettled (hsound : scheduler.Sound) (hentries : scheduler.agenda.queue.entries = [])
    (hgone : scheduler.dispatcher = .gone) (hbacklog : scheduler.backlog = [])
    (hjobs : scheduler.jobs = []) (haccepted : task ∈ scheduler.accepted)
    (hswept : task ∉ scheduler.tasksAt .swept) (hlost : task ∉ scheduler.lostTasks) :
    scheduler.Has task Record.IsSettled := by
  obtain ⟨place?, hlocated, hfits⟩ := hsound.custody task
  rcases place? with _ | place
  · exact hfits haccepted
  · have hmem := hlocated.mem
    exfalso
    cases place with
    | drafted => exact hfits.1 haccepted
    | queued => simp [tasksAt, Queue.tasks, hentries] at hmem
    | held => simp [tasksAt, hgone, Dispatcher.hand] at hmem
    | backlog => simp [tasksAt, hbacklog] at hmem
    | running | returning => simp [tasksAt, hjobs] at hmem
    | swept => exact hswept hmem
    | lost => exact hlost hmem

/-- A scheduler that nobody has hastened leaves no task and no producer behind when it
stops, and all one-shot tasks that nobody has cancelled have run, apart from lost runs, of which
there are none as long as the clock can be read. -/
theorem Run.drained_of_stopped (hrun : Run config cores past scheduler)
    (hquiet : ∀ step ∈ past, ¬ step.1.Hastens step.2)
    (hstopped : scheduler.lifecycle = .stopped) :
    (∀ task ∈ scheduler.accepted, (∀ step ∈ past, ¬ step.1.Cancels step.2 task) →
      task ∉ scheduler.lostTasks →
      ∃ record, scheduler.record? task = some record ∧
        (record.isPeriodic = false → scheduler.agenda.entries task = 1 ∧
          (record.state = .completed ∨ record.state = .failed))) ∧
      (scheduler.agenda.clock.isReadable = true → scheduler.lostTasks = []) ∧
      scheduler.agenda.queue.entries = [] ∧
      scheduler.agenda.queue.producers.everyone = [] ∧
      ∀ call task, (call, .parked task) ∉ scheduler.calls := by
  have hsound := hrun.reachable.sound
  have hgentle := hrun.gentle hquiet
  have hconcluded := hrun.reachable.concluded
  have hgone := hconcluded.stopped_iff.mp hstopped
  obtain ⟨hbacklog, hjobs⟩ := hconcluded.inFlight_eq (by rw [hgone]; trivial)
  have hover := hconcluded.isOver (by rw [hgone]; trivial)
  -- The dispatcher has left off because the queue drained, not because it was closed.
  obtain ⟨-, hentries, hblocked⟩ := hover.resolve_left hgentle.not_closed
  have hproducers : scheduler.agenda.queue.producers.everyone = [] :=
    List.eq_nil_of_length_eq_zero (hsound.queue.counted.blocked_eq.symm.trans hblocked)
  refine ⟨fun task haccepted huntouched hlost => ?_,
    fun hreadable => congrArg (List.map _) (hsound.intact hreadable).1, hentries, hproducers,
    hsound.not_parked hproducers⟩
  obtain ⟨record, hrecord⟩ := hsound.custody.exists_record_of_accepted haccepted
  refine ⟨record, hrecord, fun honce => ?_⟩
  have hswept : task ∉ scheduler.tasksAt .swept := by
    intro hmem
    have hperiodic := hgentle.swept_periodic task hmem
    rw [periodicOf_eq_isPeriodic hrecord, honce] at hperiodic
    exact Bool.false_ne_true hperiodic
  -- It was not swept out, so it is settled; and nobody has cancelled it, so it has run.
  obtain ⟨same, hsame, hdone, hrun_once⟩ :=
    hsound.isSettled hentries hgone hbacklog hjobs haccepted hswept hlost
  obtain rfl := Option.some.inj (hrecord.symm.trans hsame)
  have hnot : record.state ≠ .cancelled := by
    intro hcancelled
    obtain ⟨step, hstep, hcause⟩ := hrun.accounted hquiet task record hrecord hcancelled honce
    exact huntouched step hstep hcause
  constructor
  · rw [hrun.reachable.tallied task, hrecord]
    exact hrun_once honce hnot
  · cases hstate : record.state with
    | pending => simp [Record.isDone, hstate, TaskState.isTerminal] at hdone
    | running => simp [Record.isDone, hstate, TaskState.isTerminal] at hdone
    | completed => exact Or.inl rfl
    | failed => exact Or.inr rfl
    | cancelled => exact absurd hstate hnot

/-- A producer still waits for room when the shutdown begins, and its task runs all the same. -/
theorem drained_of_stopped_with_producer :
    ∃ (past : List (Scheduler Unit × Action Unit)) (scheduler : Scheduler Unit),
      Run { capacity := 1 } 1 past scheduler ∧ scheduler.lifecycle = .stopped ∧
        scheduler.accepted = [1, 0] ∧ scheduler.lostTasks = [] ∧
        (scheduler.agenda.entries 0 = 1 ∧ scheduler.agenda.entries 1 = 1) ∧
        scheduler.agenda.queue.producers.everyone = [] := by
  have hview : (played { capacity := 1 } 1
      [.request (.schedule (plainTask .oneShot .zero) true), .proceed 0,
        .request (.schedule (plainTask .oneShot .zero) true), .proceed 1,
        .request (.shutdown true), .proceed 2, .dispatch, .dispatch, .takeUp 0, .work 0, .work 0,
        .dispatch, .proceed 1, .dispatch, .dispatch, .takeUp 0, .work 0, .work 0, .dispatch,
        .dispatch, .dispatch]).map (fun result =>
          ((decide (∀ step ∈ result.1, ¬ step.1.Hastens step.2), result.2.lifecycle),
            result.2.accepted, result.2.agenda.clock.isReadable, result.2.agenda.entries 0,
            result.2.agenda.entries 1)) =
      some ((true, .stopped), [1, 0], true, 1, 1) := by
    decide +kernel
  obtain ⟨⟨past, scheduler⟩, hplayed, hparts⟩ := Option.map_eq_some_iff.mp hview
  simp only [Prod.mk.injEq, decide_eq_true_eq] at hparts
  obtain ⟨⟨hquiet, hstopped⟩, haccepted, hreadable, hentries⟩ := hparts
  have hrun := Run.of_played hplayed
  obtain ⟨-, hnone, -, hproducers, -⟩ := hrun.drained_of_stopped hquiet hstopped
  exact ⟨past, scheduler, hrun, hstopped, haccepted, hnone hreadable, hentries, hproducers⟩

end Scheduler

end TimedTasks
