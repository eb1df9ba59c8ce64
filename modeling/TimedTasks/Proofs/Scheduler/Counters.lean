import TimedTasks.Proofs.Metrics
import TimedTasks.Proofs.Scheduler.Starting

/-!
# Counting as it happens

The counters are changed in several places, each time by one.  What they amount to holds of every
reachable state and not only of settled ones, once whatever is under way is counted too:

* with the runs in progress, the runs that have been counted make up the bodies that have been
  entered, and with the backlog these make up the dispatched tasks, lost runs being added to
  either (`Balanced`);
* with the task in the dispatcher's hand, the dispatched and the discarded tasks make up those that
  have been taken from the queue (`Run.timesPopped_eq`);
* for each accepted task, a caller or a body has been told so (`Vouched`).
-/

namespace TimedTasks

/-- Whether an answer tells a caller that his task has been accepted. -/
def Answer.accepts : Answer → Bool
  | .scheduled (.ok _) => true
  | _ => false

namespace Scheduler

variable {α : Type} {origin before after scheduler : Scheduler α} {action : Action α}
variable {config : Config} {cores : Nat} {past : List (Scheduler α × Action α)} {task : TaskId}

/-! ## Runs in progress -/

/-- How many runs are in progress: entered and not settled. -/
def progressing (scheduler : Scheduler α) : Nat := (scheduler.tasksAt .running).length

theorem length_tasksAt (job : Job α) (place : Place) :
    (job.tasksAt place).length = if job.place = place then 1 else 0 := by
  rw [Job.tasksAt]
  split <;> rfl

theorem Staffed.progressing_release (hstaffed : before.Staffed) {job : Job α}
    (hjob : job ∈ before.jobs) :
    before.progressing =
      (if job.place = .running then 1 else 0) + (before.release job.worker).progressing := by
  have hlength := (hstaffed.flatMap_perm hjob (Job.tasksAt .running)).length_eq
  rw [List.length_append, length_tasksAt] at hlength
  exact hlength

theorem Staffed.progressing_goOnWith (hstaffed : before.Staffed) {job : Job α}
    (hjob : job ∈ before.jobs) (stage : Stage α) :
    (before.goOnWith job stage).progressing =
      (if Job.place { job with stage } = .running then 1 else 0) +
        (before.release job.worker).progressing := by
  have hlength := (hstaffed.flatMap_goOnWith hjob stage (Job.tasksAt .running)).length_eq
  rw [List.length_append, length_tasksAt] at hlength
  exact hlength

theorem Staffed.progressing_release_of_ne (hstaffed : before.Staffed) {job : Job α}
    (hjob : job ∈ before.jobs) (hplace : job.place ≠ .running) :
    (before.release job.worker).progressing = before.progressing := by
  rw [hstaffed.progressing_release hjob, if_neg hplace, Nat.zero_add]

theorem Staffed.progressing_same (hstaffed : before.Staffed) {job : Job α}
    (hjob : job ∈ before.jobs) {stage : Stage α}
    (hplace : Job.place { job with stage } = job.place) :
    (before.goOnWith job stage).progressing = before.progressing := by
  rw [hstaffed.progressing_goOnWith hjob, hplace, ← hstaffed.progressing_release hjob]

/-! ## The counters -/

/-- The counters agree with what the scheduler has in hand and what has been seen. -/
structure Balanced (scheduler : Scheduler α) : Prop where
  scheduled_eq : scheduler.agenda.metrics.scheduled = scheduler.accepted.length
  dispatched_eq : scheduler.agenda.metrics.dispatched =
    scheduler.agenda.bodies.length + scheduler.backlog.length + scheduler.unentered.length
  bodies_eq : scheduler.agenda.bodies.length =
    scheduler.agenda.metrics.completed + scheduler.agenda.metrics.failed +
      scheduler.progressing + scheduler.uncounted.length
  consistent : scheduler.agenda.metrics.Consistent

theorem Balanced.of_same (hbalanced : before.Balanced)
    (hmetrics : after.agenda.metrics = before.agenda.metrics)
    (hbodies : after.agenda.bodies = before.agenda.bodies)
    (haccepted : after.accepted = before.accepted) (hbacklog : after.backlog = before.backlog)
    (hlost : after.lost = before.lost)
    (hprogressing : after.progressing = before.progressing) : after.Balanced where
  scheduled_eq := by rw [hmetrics, haccepted, hbalanced.scheduled_eq]
  dispatched_eq := by
    rw [hmetrics, hbodies, hbacklog, unentered, hlost]
    exact hbalanced.dispatched_eq
  bodies_eq := by
    rw [hmetrics, hbodies, hprogressing, uncounted, hlost]
    exact hbalanced.bodies_eq
  consistent := hmetrics ▸ hbalanced.consistent

/-- A run that is settled is counted, and is in progress no more. -/
theorem Balanced.of_settle (hbalanced : before.Balanced) (hsound : before.Sound) {job : Job α}
    {error? : Option TaskError} {agenda : Agenda α} {again : Bool} (hjob : job ∈ before.jobs)
    (hstage : job.stage = .left error?)
    (hsettle : before.agenda.settle job before.agenda.reading error? = (agenda, again))
    (hagenda : after.agenda = agenda) (haccepted : after.accepted = before.accepted)
    (hbacklog : after.backlog = before.backlog) (hlost : after.lost = before.lost)
    (hprogressing : after.progressing = (before.release job.worker).progressing) :
    after.Balanced := by
  subst hagenda
  have hplace : job.place = .running := by rw [Job.place, hstage]
  obtain ⟨record, hrecord⟩ := (hsound.custody.fitsAt_of_mem (mem_tasksAt_place hjob)).exists_record
  have hmetrics := Agenda.metrics_settle hrecord hsettle
  have hkept := Agenda.kept_settle hsettle
  have hreleased := hsound.staffed.progressing_release hjob
  rw [if_pos hplace] at hreleased
  refine ⟨?_, ?_, ?_, hmetrics ▸ hbalanced.consistent.recordRun _ _ _⟩
  · rw [hmetrics, haccepted]
    exact hbalanced.scheduled_eq
  · rw [hmetrics, hkept.bodies_eq, hbacklog, unentered, hlost]
    exact hbalanced.dispatched_eq
  · have hbodies := hbalanced.bodies_eq
    rw [uncounted] at hbodies
    rw [hmetrics, hkept.bodies_eq, hprogressing, uncounted, hlost]
    cases error? <;> simp only [Metrics.recordRun, Option.isNone_none, Option.isNone_some, if_true,
      Bool.false_eq_true, if_false] <;> omega

/-- A body that is entered leaves the backlog and is in progress. -/
theorem balanced_tookUp (hbalanced : before.Balanced) (hsound : before.Sound) {position : Nat}
    (htask : before.backlog[position]? = some task) (worker : Nat) :
    Balanced { before with
      agenda := (before.agenda.enter task worker before.agenda.reading).1
      backlog := before.backlog.eraseIdx position
      jobs := before.jobs ++ [(before.agenda.enter task worker before.agenda.reading).2] } := by
  obtain ⟨record, run, turn, hrecord, hbody⟩ := hsound.custody.exists_body htask
  rw [Agenda.enter_eq hrecord hbody worker]
  have hbacklog := (perm_cons_eraseIdx htask).length_eq
  rw [List.length_cons] at hbacklog
  have hdispatched := hbalanced.dispatched_eq
  have hbodies := hbalanced.bodies_eq
  refine ⟨hbalanced.scheduled_eq, ?_, ?_, hbalanced.consistent⟩
  · show before.agenda.metrics.dispatched = before.agenda.bodies.length + 1 +
      (before.backlog.eraseIdx position).length + before.unentered.length
    omega
  · show before.agenda.bodies.length + 1 =
      before.agenda.metrics.completed + before.agenda.metrics.failed +
        ((before.jobs ++ [_]).flatMap (Job.tasksAt .running)).length + before.uncounted.length
    rw [List.flatMap_append, List.length_append, List.flatMap_singleton, length_tasksAt]
    simp only [Job.place, if_true, progressing, tasksAt] at hbodies ⊢
    omega

theorem Move.balanced (hmove : Move origin action before after) (hsound : before.Sound)
    (hbalanced : before.Balanced) : after.Balanced := by
  have hscheduled := hbalanced.scheduled_eq
  have hdispatched := hbalanced.dispatched_eq
  have hbodies := hbalanced.bodies_eq
  have hconsistent := hbalanced.consistent
  have hstaffed := hsound.staffed
  -- Three balances: of tasks, of runs that are handed over, and of bodies that are entered.
  cases hmove with
  | admitted | resumedAdmitted | submitted =>
      exact ⟨congrArg Nat.succ hscheduled, hdispatched, hbodies,
        hconsistent.of_eq rfl rfl rfl rfl rfl⟩
  | sweepDone _ _ hmetrics =>
      obtain ⟨abandoned, rfl⟩ := hmetrics
      exact ⟨hscheduled, hdispatched, hbodies, hconsistent.of_eq rfl rfl rfl rfl rfl⟩
  | started _ _ _ _ _ hmetrics =>
      subst hmetrics
      refine ⟨hscheduled, ?_, hbodies, hconsistent.of_eq rfl rfl rfl rfl rfl⟩
      show before.agenda.metrics.dispatched + 1 = before.agenda.bodies.length +
        (before.backlog ++ [_]).length + before.unentered.length
      rw [List.length_append, List.length_singleton]
      omega
  | discarded _ _ _ _ hmetrics =>
      subst hmetrics
      exact ⟨hscheduled, hdispatched, hbodies, hconsistent.of_eq rfl rfl rfl rfl rfl⟩
  | tookUp htask => exact balanced_tookUp hbalanced hsound htask _
  | @lostUnentered position moved _ htask =>
      have hbacklog := (perm_cons_eraseIdx htask).length_eq
      rw [List.length_cons] at hbacklog
      refine ⟨hscheduled, ?_, hbodies, hconsistent⟩
      show before.agenda.metrics.dispatched = before.agenda.bodies.length +
        (before.backlog.eraseIdx position).length + (moved :: before.unentered).length
      rw [List.length_cons]
      omega
  | @lostUncounted job _ hjob hstage =>
      have hreleased := hstaffed.progressing_release hjob
      rw [if_pos (by rw [Job.place, hstage])] at hreleased
      refine ⟨hscheduled, hdispatched, ?_, hconsistent⟩
      show before.agenda.bodies.length =
        before.agenda.metrics.completed + before.agenda.metrics.failed +
          (before.release job.worker).progressing + (job.task :: before.uncounted).length
      rw [List.length_cons]
      omega
  | skipped hjob hstage | requeueRefused hjob hstage =>
      exact hbalanced.of_same rfl rfl rfl rfl rfl
        (hstaffed.progressing_same hjob (by rw [Job.place, Job.place, hstage]))
  | ended _ hjob hstage =>
      exact hbalanced.of_same rfl rfl rfl rfl rfl
        (hstaffed.progressing_same hjob (by rw [Job.place, Job.place, hstage]))
  | settled hjob hstage hsettle =>
      exact hbalanced.of_settle hsound hjob hstage hsettle rfl rfl rfl rfl rfl
  | @rearmed job _ _ hjob hstage hsettle =>
      refine hbalanced.of_settle hsound hjob hstage hsettle rfl rfl rfl rfl ?_
      refine (hstaffed.progressing_goOnWith hjob .rearmed).trans ?_
      rw [if_neg (by simp [Job.place]), Nat.zero_add]
  | requeued hjob hstage | letGo hjob hstage =>
      exact hbalanced.of_same rfl rfl rfl rfl rfl
        (hstaffed.progressing_release_of_ne hjob (by simp [Job.place, hstage]))
  | dropped hjob hstage =>
      exact hbalanced.of_same rfl rfl rfl rfl rfl
        (hstaffed.progressing_release_of_ne hjob (by simp [Job.place, hstage]))
  | _ => exact ⟨hscheduled, hdispatched, hbodies, hconsistent⟩

theorem Reachable.balanced (hreachable : Reachable config cores scheduler) :
    scheduler.Balanced := by
  refine hreachable.induction_on_moves (fun first hcreated => ?_)
    fun _ _ _ _ hsound hbalanced hmove => hmove.balanced hsound hbalanced
  obtain rfl := new_eq_ok hcreated
  exact ⟨rfl, rfl, rfl, Metrics.consistent_new⟩

/-! ## Tasks that have been taken -/

/-- The task that the dispatcher takes from the queue with an action. -/
def pops? (scheduler : Scheduler α) : Action α → Option TaskId
  | .dispatch =>
    if scheduler.dispatcher = .seeking ∧
        scheduler.agenda.queue.isAsleep dispatcherCaller = false then
      match scheduler.agenda.take dispatcherCaller with
      | .ok (_, .task task) => some task
      | _ => none
    else none
  | _ => none

/-- How many tasks the dispatcher has taken from the queue. -/
def timesPopped (past : List (Scheduler α × Action α)) : Nat :=
  past.countP fun step => (step.1.pops? step.2).isSome

/-- What has become of the tasks that the dispatcher has taken. -/
def handled (scheduler : Scheduler α) : Nat :=
  scheduler.agenda.metrics.dispatched + scheduler.agenda.metrics.discarded +
    scheduler.dispatcher.hand.length

/-- Nobody but the dispatcher has to do with it. -/
theorem Move.handled_eq (hmove : Move origin action before after) (hsound : before.Sound)
    (hother : action ≠ .dispatch) : after.handled = before.handled := by
  cases hmove with
  | took _ _ _ _ _ hcause => exact absurd hcause hother
  | started _ _ _ _ hcause => exact absurd hcause hother
  | discarded _ _ _ hcause => exact absurd hcause hother
  | stopped _ hcause => exact absurd hcause hother
  | sweepDone _ _ hmetrics =>
      obtain ⟨abandoned, rfl⟩ := hmetrics
      rfl
  | ceased hdispatcher | idled hdispatcher | broke hdispatcher =>
      simp [handled, withQueue, hdispatcher, Dispatcher.hand]
  | @tookUp _ task worker =>
      obtain ⟨records, history, henter⟩ :=
        before.agenda.enter_fst task worker before.agenda.reading
      simp only [handled, henter]
  | settled hjob _ hsettle | rearmed hjob _ hsettle =>
      obtain ⟨record, hrecord⟩ :=
        (hsound.custody.fitsAt_of_mem (mem_tasksAt_place hjob)).exists_record
      have hmetrics := Agenda.metrics_settle hrecord hsettle
      simp [handled, release, goOnWith, hmetrics, Metrics.recordRun]
  | _ => rfl

/-- What is taken is started or thrown away. -/
theorem handled_dispatch (hdispatch : before.dispatch = some after) :
    after.handled = before.handled + if (before.pops? .dispatch).isSome then 1 else 0 := by
  -- Only a dispatcher that looks for a task takes one.
  have hnone : before.dispatcher ≠ .seeking → before.pops? .dispatch = none :=
    fun hnot => if_neg fun hboth => hnot hboth.1
  unfold dispatch at hdispatch
  split at hdispatch
  · rename_i hdispatcher
    split at hdispatch
    · simp at hdispatch
    · rename_i hawake
      have hpops : before.pops? .dispatch = match before.agenda.take dispatcherCaller with
          | .ok (_, .task task) => some task
          | _ => none := if_pos ⟨hdispatcher, by simpa using hawake⟩
      rw [hpops]
      obtain rfl := Option.some.inj hdispatch
      unfold look
      split
      · rename_i htake
        simp [handled, hdispatcher, Dispatcher.hand, htake]
      all_goals
        rename_i htake
        obtain ⟨queue, -, rfl⟩ := Agenda.take_eq_ok htake
        simp [handled, hdispatcher, Dispatcher.hand, htake]
  · rename_i task hdispatcher
    have hmetrics := Agenda.metrics_attempt before.agenda task Record.start?
    rw [hnone (by simp [hdispatcher])]
    dsimp only at hdispatch
    split at hdispatch
    all_goals
      obtain rfl := Option.some.inj hdispatch
      simp only [handled, hdispatcher, Dispatcher.hand, Agenda.start, hmetrics, List.length_nil,
        List.length_singleton, Option.isSome_none, Bool.false_eq_true, if_false]
      omega
  · rename_i hdispatcher
    rw [hnone (by simp [hdispatcher])]
    split at hdispatch
    · obtain rfl := Option.some.inj hdispatch
      simp [handled, hdispatcher, Dispatcher.hand]
    · simp at hdispatch
  · rename_i hdispatcher
    rw [hnone (by simp [hdispatcher])]
    obtain rfl := Option.some.inj hdispatch
    simp [handled, hdispatcher, Dispatcher.hand]
  · simp at hdispatch
  · simp at hdispatch

theorem handled_step (hsound : before.Sound) (hstep : before.step action = some after) :
    after.handled = before.handled + if (before.pops? action).isSome then 1 else 0 := by
  by_cases hdispatch : action = .dispatch
  · subst hdispatch
    exact handled_dispatch hstep
  · have hnone : before.pops? action = none := by
      cases action with
      | dispatch => exact absurd rfl hdispatch
      | _ => rfl
    rw [hnone, Option.isSome_none, if_neg Bool.false_ne_true, Nat.add_zero]
    exact of_step (p := fun state => state.handled = before.handled) hsound hstep rfl
      fun _ _ hfirst heq hmove => (hmove.handled_eq hfirst hdispatch).trans heq

/-- Every task that has been taken has been dispatched or discarded, or is in hand. -/
theorem Run.timesPopped_eq (hrun : Run config cores past scheduler) :
    timesPopped past = scheduler.handled := by
  induction hrun with
  | start hcreated =>
      obtain rfl := new_eq_ok hcreated
      rfl
  | @step past before after hrun action hstep ih =>
      rw [handled_step hrun.reachable.sound hstep, ← ih, timesPopped, List.countP_cons]
      rfl

/-! ## Accepted submissions -/

theorem acceptances_enter (agenda : Agenda α) (task : TaskId) (worker : Nat)
    (startedAt : Moment) :
    (agenda.enter task worker startedAt).1.acceptances = agenda.acceptances := by
  unfold Agenda.enter
  split
  · rfl
  · dsimp only
    split
    · rfl
    · exact Agenda.acceptances_note ..

/-- How many callers and bodies have been told that their tasks have been accepted. -/
def acceptances (scheduler : Scheduler α) : Nat :=
  (scheduler.answers.countP fun answer => answer.2.accepts) + scheduler.agenda.acceptances

/-- As many tasks have been accepted as somebody has been told of. -/
def Vouched (scheduler : Scheduler α) : Prop := scheduler.acceptances = scheduler.accepted.length

theorem acceptances_reply (before : Scheduler α) (call : CallId) (answer : Answer) :
    (before.reply call answer).acceptances =
      before.acceptances + if answer.accepts then 1 else 0 := by
  simp only [acceptances, reply, List.countP_cons]
  omega

/-- Outside of bodies, a task is accepted when its caller is told so. -/
theorem Move.vouched (hmove : Move origin action before after)
    (hbody : ∀ worker, action ≠ .work worker) (hvouched : before.Vouched) : after.Vouched := by
  cases hmove with
  | submitted _ _ _ _ hwork | noted _ _ hwork =>
      obtain ⟨worker, hwork⟩ := hwork
      exact absurd hwork (hbody worker)
  | refused answer hanswer =>
      have hnot : answer.accepts = false := by
        cases answer with
        | scheduled result =>
            cases result with
            | error => rfl
            | ok => exact hanswer.elim
        | _ => rfl
      rw [Vouched, acceptances_reply, hnot]
      exact hvouched
  | turnedAway | resumedRefused | removed | claimRefused | sweepDone =>
      rw [Vouched, acceptances_reply]
      exact hvouched
  | admitted | resumedAdmitted =>
      rw [Vouched, acceptances_reply]
      exact congrArg Nat.succ hvouched
  | tookUp => exact (congrArg (_ + ·) (acceptances_enter ..)).trans hvouched
  | settled _ _ hsettle | rearmed _ _ hsettle =>
      exact (congrArg (_ + ·) (Agenda.kept_settle hsettle).acceptances_eq).trans hvouched
  | _ => exact hvouched

/-- A body that submits a task is told at once what has become of it. -/
theorem vouched_submitNow {submission : Submission α} {result : Except SchedulerError Unit}
    (hvouched : before.Vouched) (hsubmit : before.submitNow submission = .ok (after, result))
    (name : String) :
    Vouched { after with agenda := after.agenda.note (.submitted name result) } := by
  unfold submitNow at hsubmit
  split at hsubmit
  · simp at hsubmit
  · obtain ⟨rfl, rfl⟩ := Prod.mk.inj (Except.ok.inj hsubmit)
    exact hvouched
  · dsimp only at hsubmit
    split at hsubmit
    · obtain ⟨rfl, rfl⟩ := Prod.mk.inj (Except.ok.inj hsubmit)
      exact hvouched
    · rename_i agenda hok
      obtain ⟨-, -, rfl⟩ := Agenda.tryInsert_eq_ok hok
      obtain ⟨rfl, rfl⟩ := Prod.mk.inj (Except.ok.inj hsubmit)
      refine (congrArg (_ + ·) (Agenda.acceptances_note ..)).trans ?_
      exact congrArg Nat.succ hvouched

theorem vouched_cancelNow (hvouched : before.Vouched) (task : TaskId) :
    (before.cancelNow task).Vouched := by
  rcases cancelNow_cases before task with hsame | ⟨record, -, -, hnow⟩
  · rw [hsame]
    exact hvouched
  · rw [hnow]
    exact hvouched

theorem vouched_passTime {agenda : Agenda α} {move? : Option Span} (hvouched : before.Vouched)
    (hpass : before.agenda.passTime move? = .ok agenda) : Vouched { before with agenda } := by
  cases move? with
  | none =>
      obtain rfl := Except.ok.inj hpass
      exact hvouched
  | some move =>
      obtain ⟨clock, -, rfl⟩ := Agenda.advance_eq_ok hpass
      exact hvouched

theorem vouched_perform (hvouched : before.Vouched) (turn : Turn α) :
    (before.perform turn).1.Vouched :=
  perform_induction turn hvouched (fun _ hpass => vouched_passTime hvouched hpass)
    (fun _ task hstate => vouched_cancelNow hstate task)
    fun _ _ _ name _ hstate hsubmit => vouched_submitNow hstate hsubmit name

theorem vouched_work {job : Job α} (hvouched : before.Vouched)
    (hwork : before.work job = some after) : after.Vouched := by
  unfold work at hwork
  split at hwork
  · obtain rfl := Option.some.inj hwork
    exact hvouched
  · split at hwork
    · obtain rfl := Option.some.inj hwork
      exact vouched_perform hvouched _
    · simp at hwork
  · split at hwork
    · obtain rfl := Option.some.inj hwork
      exact hvouched
    · split at hwork
      all_goals
        rename_i agenda hsettle
        obtain rfl := Option.some.inj hwork
        exact (congrArg (_ + ·) (Agenda.kept_settle hsettle).acceptances_eq).trans hvouched
  · split at hwork
    · rename_i agenda hrequeue
      obtain ⟨-, -, rfl⟩ := Agenda.requeue_eq_true hrequeue
      obtain rfl := Option.some.inj hwork
      exact hvouched
    · rename_i agenda hrequeue
      obtain rfl := Agenda.requeue_eq_false hrequeue
      obtain rfl := Option.some.inj hwork
      exact hvouched
  · obtain rfl := Option.some.inj hwork
    exact (congrArg (_ + ·) (Agenda.kept_attempt ..).acceptances_eq).trans hvouched

/-- As many tasks have been accepted as somebody has been told of. -/
theorem Reachable.vouched (hreachable : Reachable config cores scheduler) :
    scheduler.Vouched := by
  induction hreachable with
  | start hcreated =>
      obtain rfl := new_eq_ok hcreated
      rfl
  | step hreached action hstep ih =>
      -- A body that submits a task has it accepted in one move and is told so in the next, so
      -- that a step of a worker has to be taken as a whole.
      cases action with
      | work worker =>
          simp only [Scheduler.step] at hstep
          split at hstep
          · exact vouched_work ih hstep
          · simp at hstep
      | _ =>
          exact of_step hreached.sound hstep ih fun _ _ _ hvouched hmove =>
            hmove.vouched (by simp) hvouched

end Scheduler

end TimedTasks
