import TimedTasks.Proofs.Scheduler.Charging

/-!
# Runs that differ in who observes failures

Whether somebody observes shows in the history; who it is shows only in how many of his panics have
been caught.  Replacing an observer by one that keeps calm, and forgetting what has been caught,
commutes with every step of the scheduler (`Scheduler.step_calmed`), and once there is an observer
it makes no difference that another one takes its place (`Scheduler.observe_calmed`).

So the steps of a run with an observer from the beginning can be made with any other observers, and
lead to the same state (`Scheduler.Run.comesTo`).  As observers may take the place of each other at
any time, the runs may differ in which reports an observer gives up on.
-/

namespace TimedTasks

/-! ## Agendas -/

namespace Agenda

variable {α : Type} (agenda : Agenda α) (task : TaskId)

/-- The same agenda with an observer that does not panic and never has, if there is one. -/
def calmed : Agenda α :=
  { agenda with observer? := agenda.observer?.map fun _ => .calm, caught := 0 }

@[simp] theorem calmed_clock : agenda.calmed.clock = agenda.clock := rfl

@[simp] theorem calmed_now : agenda.calmed.now = agenda.now := rfl

@[simp] theorem calmed_records : agenda.calmed.records = agenda.records := rfl

@[simp] theorem calmed_queue : agenda.calmed.queue = agenda.queue := rfl

theorem attempt_calmed (move : Record α → Option (Record α)) :
    agenda.calmed.attempt task move =
      ((agenda.attempt task move).1.calmed, (agenda.attempt task move).2) := by
  unfold attempt
  rw [calmed_records]
  cases agenda.records[task]?.bind move <;> rfl

theorem start_calmed :
    agenda.calmed.start task = ((agenda.start task).1.calmed, (agenda.start task).2) :=
  agenda.attempt_calmed task _

theorem cancel_calmed :
    agenda.calmed.cancel task = ((agenda.cancel task).1.calmed, (agenda.cancel task).2) :=
  agenda.attempt_calmed task _

theorem rearm_calmed (next : Moment) :
    agenda.calmed.rearm task next =
      ((agenda.rearm task next).1.calmed, (agenda.rearm task next).2) := by
  unfold rearm
  rw [calmed_records]
  cases agenda.records[task]? <;> rfl

theorem tryInsert_calmed :
    agenda.calmed.tryInsert task = (agenda.tryInsert task).map calmed := by
  have hinsert : agenda.calmed.queue.tryInsert task (agenda.calmed.periodicOf task)
      (agenda.calmed.dueOf task) =
        agenda.queue.tryInsert task (agenda.periodicOf task) (agenda.dueOf task) := rfl
  unfold tryInsert
  rw [hinsert]
  cases agenda.queue.tryInsert task (agenda.periodicOf task) (agenda.dueOf task) <;> rfl

theorem requeue_calmed :
    agenda.calmed.requeue task =
      ((agenda.requeue task).1.calmed, (agenda.requeue task).2) := by
  have hrequeue : agenda.calmed.queue.requeue task (agenda.calmed.periodicOf task)
      (agenda.calmed.cancelledOf task) (agenda.calmed.dueOf task) =
        agenda.queue.requeue task (agenda.periodicOf task) (agenda.cancelledOf task)
          (agenda.dueOf task) := rfl
  unfold requeue
  rw [hrequeue]
  cases agenda.queue.requeue task (agenda.periodicOf task) (agenda.cancelledOf task)
    (agenda.dueOf task) <;> rfl

theorem take_calmed (caller : Nat) :
    agenda.calmed.take caller =
      (agenda.take caller).map fun taken => (taken.1.calmed, taken.2) := by
  unfold take
  rw [calmed_now, calmed_queue]
  cases agenda.queue.asksTime <;> cases agenda.now <;> rfl

theorem remove_calmed :
    agenda.calmed.remove task = ((agenda.remove task).1.calmed, (agenda.remove task).2) := by
  unfold remove
  rw [calmed_queue]
  cases agenda.queue.remove task <;> rfl

theorem passTime_calmed (move? : Option Span) :
    agenda.calmed.passTime move? = (agenda.passTime move?).map calmed := by
  cases move? with
  | none => rfl
  | some move =>
      simp only [passTime, advance, calmed_clock]
      cases agenda.clock.advance move <;> rfl

/-- Whoever observes is told the same, and whether he panics is seen nowhere else. -/
theorem report_calmed (error : TaskError) :
    agenda.calmed.report task error = (agenda.report task error).calmed := by
  obtain ⟨clock, records, queue, metrics, policy, observer?, caught, history⟩ := agenda
  cases observer? with
  | none => rfl
  | some observer =>
      simp only [report, calmed, Option.map_some]
      cases records[task]? <;> rfl

theorem enter_calmed (worker : Nat) (startedAt : Moment) :
    agenda.calmed.enter task worker startedAt =
      ((agenda.enter task worker startedAt).1.calmed, (agenda.enter task worker startedAt).2) := by
  unfold enter
  rw [calmed_records]
  cases agenda.records[task]? with
  | none => rfl
  | some record =>
      dsimp only
      generalize record.enter = entered
      obtain ⟨moved, _ | body⟩ := entered <;> rfl

theorem account_calmed (job : Job α) (completedAt : Moment) (error? : Option TaskError) :
    agenda.calmed.account job completedAt error? =
      (agenda.account job completedAt error?).calmed := by
  unfold account
  rw [calmed_records]
  cases agenda.records[job.task]? with
  | none => rfl
  | some record =>
      cases error? with
      | none => rfl
      | some error =>
          generalize hmetrics : agenda.metrics.recordRun record.mode
            (completedAt.since job.startedAt) (some error).isNone = metrics
          have hreport := ({ agenda with metrics } : Agenda α).report_calmed job.task error
          rw [← hmetrics] at hreport
          exact hreport

theorem carryOut_calmed (verdict : Verdict) :
    agenda.calmed.carryOut task verdict =
      ((agenda.carryOut task verdict).1.calmed, (agenda.carryOut task verdict).2) := by
  cases verdict with
  | giveUp error =>
      have hreport := (agenda.noteFailure task error).report_calmed task error
      have hfinish := ((agenda.noteFailure task error).report task error).attempt_calmed task
        fun record => record.finish? .failed
      rw [← hreport] at hfinish
      exact congrArg (fun finished : Agenda α × Bool => (finished.1, false)) hfinish
  | finish outcome =>
      exact congrArg (fun finished : Agenda α × Bool => (finished.1, false))
        (agenda.attempt_calmed task _)
  | rearm next => exact agenda.rearm_calmed task next

theorem settle_calmed (job : Job α) (completedAt : Moment) (error? : Option TaskError) :
    agenda.calmed.settle job completedAt error? =
      ((agenda.settle job completedAt error?).1.calmed,
        (agenda.settle job completedAt error?).2) := by
  unfold settle
  rw [calmed_records]
  cases agenda.records[job.task]? with
  | none => rfl
  | some record =>
      dsimp only
      rw [account_calmed]
      exact carryOut_calmed ..

end Agenda

/-! ## Schedulers -/

/-- The same action; an observer that takes over is one that does not panic. -/
def Action.calmed {α : Type} : Action α → Action α
  | .observe _ => .observe .calm
  | action => action

/-- Whether an observer takes over. -/
def Action.isObserve {α : Type} : Action α → Bool
  | .observe _ => true
  | _ => false

theorem Action.exists_observer {α : Type} {action : Action α} (his : action.isObserve = true) :
    ∃ observer, action = .observe observer := by
  cases action with
  | observe observer => exact ⟨observer, rfl⟩
  | _ => simp [isObserve] at his

namespace Scheduler

variable {α : Type} (scheduler : Scheduler α)

/-- The same scheduler with an observer that does not panic and never has, if there is one. -/
def calmed : Scheduler α := { scheduler with agenda := scheduler.agenda.calmed }

@[simp] theorem calmed_agenda : scheduler.calmed.agenda = scheduler.agenda.calmed := rfl

@[simp] theorem calmed_lifecycle : scheduler.calmed.lifecycle = scheduler.lifecycle := rfl

@[simp] theorem calmed_claimed : scheduler.calmed.claimed = scheduler.claimed := rfl

@[simp] theorem calmed_dispatcher : scheduler.calmed.dispatcher = scheduler.dispatcher := rfl

@[simp] theorem calmed_backlog : scheduler.calmed.backlog = scheduler.backlog := rfl

@[simp] theorem calmed_jobs : scheduler.calmed.jobs = scheduler.jobs := rfl

@[simp] theorem calmed_calls : scheduler.calmed.calls = scheduler.calls := rfl

@[simp] theorem calmed_accepted : scheduler.calmed.accepted = scheduler.accepted := rfl

@[simp] theorem calmed_unannounced : scheduler.calmed.unannounced = scheduler.unannounced := rfl

@[simp] theorem calmed_freeWorkers : scheduler.calmed.freeWorkers = scheduler.freeWorkers := rfl

@[simp] theorem calmed_passesGate (turn : Turn α) :
    scheduler.calmed.passesGate turn = scheduler.passesGate turn := rfl

@[simp] theorem calmed_named? : scheduler.calmed.named? = scheduler.named? := rfl

@[simp] theorem calmed_firstDue (submission : Submission α) :
    scheduler.calmed.firstDue submission = scheduler.firstDue submission := rfl

@[simp] theorem calmed_draft (submission : Submission α) (due : Moment) :
    scheduler.calmed.draft submission due =
      ((scheduler.draft submission due).1.calmed, (scheduler.draft submission due).2) := rfl

/-! ### Calls -/

theorem submitNow_calmed (submission : Submission α) :
    scheduler.calmed.submitNow submission =
      (scheduler.submitNow submission).map fun submitted => (submitted.1.calmed, submitted.2) := by
  unfold submitNow
  rw [calmed_firstDue]
  match scheduler.firstDue submission with
  | .error fault => rfl
  | .ok (.error error) => rfl
  | .ok (.ok due) =>
      dsimp only
      rw [calmed_draft]
      dsimp only
      rw [calmed_agenda, Agenda.tryInsert_calmed]
      cases (scheduler.draft submission due).1.agenda.tryInsert
        (scheduler.draft submission due).2 <;> rfl

theorem cancelNow_calmed (task : TaskId) :
    scheduler.calmed.cancelNow task = (scheduler.cancelNow task).calmed := by
  unfold cancelNow
  rw [calmed_agenda, Agenda.cancel_calmed]
  generalize scheduler.agenda.cancel task = cancelled
  obtain ⟨agenda, _ | _⟩ := cancelled
  · rfl
  · dsimp only
    rw [Agenda.remove_calmed]
    rfl

theorem request_calmed (request : Request α) :
    scheduler.calmed.request request = (scheduler.request request).calmed := by
  cases request with
  | schedule submission patient =>
      simp only [Scheduler.request]
      rw [show ({ scheduler.calmed with nextCall := scheduler.calmed.nextCall + 1 } :
          Scheduler α) = calmed { scheduler with nextCall := scheduler.nextCall + 1 } from rfl,
        calmed_firstDue]
      split <;> rfl
  | cancel task =>
      simp only [Scheduler.request]
      rw [calmed_accepted, calmed_agenda, Agenda.cancel_calmed]
      split
      · generalize scheduler.agenda.cancel task = cancelled
        obtain ⟨agenda, _ | _⟩ := cancelled <;> rfl
      · rfl
  | shutdown drain =>
      simp only [Scheduler.request]
      rw [calmed_lifecycle]
      split <;> rfl

theorem admitted_calmed (call : CallId) (task : TaskId) (outcome : Admitted) :
    scheduler.calmed.admitted call task outcome =
      (scheduler.admitted call task outcome).calmed := by
  cases outcome <;> rfl

theorem proceed_calmed (call : CallId) (stage : Call) :
    scheduler.calmed.proceed call stage = (scheduler.proceed call stage).map calmed := by
  cases stage with
  | inserting task patient =>
      cases patient with
      | true =>
          exact congrArg some (admitted_calmed
            { scheduler with agenda := (scheduler.agenda.insert call task).1 } call task _)
      | false =>
          simp only [proceed, calmed_agenda, Agenda.tryInsert_calmed]
          cases scheduler.agenda.tryInsert task <;> rfl
  | parked task =>
      simp only [proceed]
      rw [calmed_agenda, Agenda.calmed_queue]
      split
      · rfl
      · rename_i producer hproducer
        exact congrArg some (admitted_calmed
          { scheduler with agenda := (scheduler.agenda.resume producer).1 } call task _)
  | removing task =>
      simp only [proceed, calmed_agenda, Agenda.remove_calmed]
      rfl
  | claiming =>
      simp only [proceed]
      rw [calmed_claimed]
      split <;> rfl
  | closing drain => rfl
  | cancelling drain left done =>
      cases left with
      | nil => rfl
      | cons task left =>
          simp only [proceed, calmed_agenda, Agenda.cancel_calmed]
          generalize scheduler.agenda.cancel task = cancelled
          obtain ⟨agenda, _ | _⟩ := cancelled <;> rfl

/-! ### Dispatcher and workers -/

theorem look_calmed : scheduler.calmed.look = scheduler.look.calmed := by
  unfold look
  rw [calmed_agenda, Agenda.take_calmed]
  match scheduler.agenda.take dispatcherCaller with
  | .error fault => rfl
  | .ok (agenda, outcome) => cases outcome <;> rfl

theorem dispatch_calmed : scheduler.calmed.dispatch = scheduler.dispatch.map calmed := by
  unfold dispatch
  rw [calmed_dispatcher]
  cases scheduler.dispatcher with
  | seeking =>
      dsimp only
      rw [calmed_agenda, Agenda.calmed_queue, look_calmed]
      split <;> rfl
  | holding task =>
      dsimp only
      rw [calmed_agenda, Agenda.start_calmed]
      generalize scheduler.agenda.start task = started
      obtain ⟨agenda, _ | _⟩ := started <;> rfl
  | winding =>
      dsimp only
      rw [calmed_backlog, calmed_jobs]
      split <;> rfl
  | idle => rfl
  | gone | broken => rfl

theorem takeUp_calmed (position : Nat) :
    scheduler.calmed.takeUp position = (scheduler.takeUp position).map calmed := by
  unfold takeUp
  rw [calmed_freeWorkers, calmed_backlog]
  split
  · rw [calmed_agenda, Agenda.calmed_now]
    cases scheduler.agenda.now with
    | error fault => rfl
    | ok startedAt =>
        dsimp only
        rw [Agenda.enter_calmed]
        rfl
  · rfl

theorem perform_calmed (turn : Turn α) :
    scheduler.calmed.perform turn =
      ((scheduler.perform turn).1.calmed, (scheduler.perform turn).2) := by
  unfold perform
  rw [calmed_agenda, Agenda.passTime_calmed]
  cases scheduler.agenda.passTime turn.advance? with
  | error fault => rfl
  | ok agenda =>
      dsimp only [Except.map]
      rw [show ({ scheduler.calmed with agenda := agenda.calmed } : Scheduler α) =
          calmed { scheduler with agenda } from rfl, calmed_named?]
      generalize turn.cancel?.bind (Scheduler.named? { scheduler with agenda }) = cancelled?
      cases turn.submit? with
      | none =>
          cases cancelled? with
          | none => rfl
          | some task => exact congrArg (·, turn.ending) (cancelNow_calmed ..)
      | some submission =>
          cases cancelled? with
          | none =>
              dsimp only
              rw [submitNow_calmed]
              cases Scheduler.submitNow { scheduler with agenda } _ <;> rfl
          | some task =>
              dsimp only
              rw [cancelNow_calmed, submitNow_calmed]
              cases (Scheduler.cancelNow { scheduler with agenda } task).submitNow _ <;> rfl

theorem work_calmed (job : Job α) :
    scheduler.calmed.work job = (scheduler.work job).map calmed := by
  unfold work
  cases job.stage with
  | inside turn? =>
      cases turn? with
      | none => rfl
      | some turn =>
          dsimp only
          rw [calmed_passesGate, perform_calmed]
          split <;> rfl
  | left error? =>
      dsimp only
      rw [calmed_agenda, Agenda.calmed_now]
      cases scheduler.agenda.now with
      | error fault => rfl
      | ok completedAt =>
          dsimp only
          rw [Agenda.settle_calmed]
          generalize scheduler.agenda.settle job completedAt error? = settled
          obtain ⟨agenda, _ | _⟩ := settled <;> rfl
  | rearmed =>
      dsimp only
      rw [calmed_agenda, Agenda.requeue_calmed]
      generalize scheduler.agenda.requeue job.task = requeued
      obtain ⟨agenda, _ | _⟩ := requeued <;> rfl
  | refused =>
      dsimp only
      rw [calmed_agenda, Agenda.cancel_calmed]
      rfl

/-! ### All steps -/

/-- A scheduler makes the same step whoever observes it. -/
theorem step_calmed (action : Action α) :
    scheduler.calmed.step action.calmed = (scheduler.step action).map calmed := by
  cases action with
  | request asked => exact congrArg some (scheduler.request_calmed asked)
  | proceed call =>
      simp only [step, Action.calmed]
      rw [calmed_calls]
      split
      · exact scheduler.proceed_calmed ..
      · rfl
  | advance move =>
      simp only [step, Action.calmed]
      rw [calmed_agenda, Agenda.calmed_clock]
      split <;> rfl
  | announce =>
      simp only [step, Action.calmed]
      rw [calmed_unannounced]
      split <;> rfl
  | expire => rfl
  | dispatch => exact scheduler.dispatch_calmed
  | takeUp position => exact scheduler.takeUp_calmed position
  | work worker =>
      simp only [step, Action.calmed]
      rw [calmed_jobs]
      split
      · exact scheduler.work_calmed _
      · rfl
  | release gate => rfl
  | observe observer => rfl

end Scheduler

/-! ## Runs -/

namespace Scheduler

variable {α : Type} {config : Config} {cores : Nat} {past : List (Scheduler α × Action α)}
variable {first before after scheduler : Scheduler α} {action : Action α}

/-- Somebody observes. -/
def Observed (scheduler : Scheduler α) : Prop := scheduler.agenda.observer?.isSome = true

/-- Schedulers that are the same when calmed differ in their observers at most, and in how many of
their panics have been caught. -/
theorem eq_of_calmed {other : Scheduler α} (hsame : other.calmed = scheduler.calmed) :
    other = { scheduler with
      agenda := { scheduler.agenda with
        observer? := other.agenda.observer?, caught := other.agenda.caught } } :=
  congrArg (fun calmed : Scheduler α => { calmed with
    agenda := { calmed.agenda with
      observer? := other.agenda.observer?, caught := other.agenda.caught } }) hsame

/-- An observer stays until another one takes over. -/
theorem Move.stays_observed {origin : Scheduler α} (hmove : Move origin action before after)
    (hobserved : before.Observed) : after.Observed := by
  unfold Observed at hobserved ⊢
  cases hmove with
  | @tookUp _ task worker =>
      obtain ⟨records, history, henter⟩ := before.agenda.enter_fst task worker before.agenda.reading
      rw [henter]
      exact hobserved
  | @settled job error? agenda _ _ hsettle | @rearmed job error? agenda _ _ hsettle =>
      have hsame := before.agenda.observer?_settle job before.agenda.reading error?
      rw [hsettle] at hsame
      exact hsame.symm ▸ hobserved
  | observed => rfl
  | _ => exact hobserved

theorem Observed.of_step (hobserved : before.Observed) (hsound : before.Sound)
    (hstep : before.step action = some after) : after.Observed :=
  Scheduler.of_step hsound hstep hobserved fun _ _ _ hfirst hmove => hmove.stays_observed hfirst

/-- Nobody notices that an observer takes the place of another one. -/
theorem observe_calmed {observer : Observer} (hobserved : before.Observed)
    (hstep : before.step (.observe observer) = some after) : after.calmed = before.calmed := by
  obtain rfl := Option.some.inj hstep
  obtain ⟨other, hother⟩ := Option.isSome_iff_exists.mp hobserved
  simp only [calmed, Agenda.calmed, hother, Option.map_some]

/-- Schedulers that differ in their observers make the same steps. -/
theorem exists_step_of_calmed {other : Scheduler α} (hsame : other.calmed = before.calmed)
    (hstep : before.step action = some after) :
    ∃ next, other.step action = some next ∧ next.calmed = after.calmed := by
  have hcalmed := other.step_calmed action
  rw [hsame, before.step_calmed action, hstep, Option.map_some] at hcalmed
  exact Option.map_eq_some_iff.mp hcalmed.symm

/-- The actions, the newest first, lead to a state that differs from this one in its observer at
most. -/
def ComesTo (config : Config) (cores : Nat) (actions : List (Action α))
    (scheduler : Scheduler α) : Prop :=
  ∃ past other, Run config cores past other ∧ past.map Prod.snd = actions ∧
    other.calmed = scheduler.calmed

theorem ComesTo.step {actions : List (Action α)} (hcomes : ComesTo config cores actions before)
    (hstep : before.step action = some after) : ComesTo config cores (action :: actions) after := by
  obtain ⟨past, other, hother, hpast, hsame⟩ := hcomes
  obtain ⟨next, hnext, hcalmed⟩ := exists_step_of_calmed hsame hstep
  exact ⟨_, next, .step hother action hnext, congrArg (action :: ·) hpast, hcalmed⟩

/-- As many observers as one likes can take the place of each other. -/
theorem ComesTo.observe {actions observes : List (Action α)}
    (hcomes : ComesTo config cores actions scheduler) (hobserved : scheduler.Observed)
    (hobserves : ∀ action ∈ observes, action.isObserve = true) :
    ComesTo config cores (observes ++ actions) scheduler := by
  induction observes with
  | nil => exact hcomes
  | cons action observes ih =>
      obtain ⟨observer, rfl⟩ := Action.exists_observer (hobserves _ (List.mem_cons_self ..))
      have hrest := ih fun action hmem => hobserves action (List.mem_cons_of_mem _ hmem)
      have hobserve : scheduler.step (.observe observer) =
          some { scheduler with agenda := { scheduler.agenda with observer? := some observer } } :=
        rfl
      obtain ⟨past, other, hother, hpast, hsame⟩ := hrest.step hobserve
      exact ⟨past, other, hother, hpast, hsame.trans (observe_calmed hobserved hobserve)⟩

/-- The actions by which no observer takes over. -/
def unobserved (actions : List (Action α)) : List (Action α) :=
  actions.filter fun action => !action.isObserve

/-- Whoever observes from the beginning and whoever takes over later, the same steps can be made and
lead to the same state. -/
theorem Run.comesTo {later : List (Scheduler α × Action α)} {observer : Observer}
    (hrun : Run config cores (later ++ [(first, .observe observer)]) scheduler)
    (replacement : Observer) {actions : List (Action α)}
    (hactions : unobserved actions = unobserved (later.map Prod.snd)) :
    ComesTo config cores (actions ++ [.observe replacement]) scheduler := by
  have hactions : unobserved actions =
      unobserved ((later ++ [(first, Action.observe observer)]).map Prod.snd) := by
    rw [hactions, List.map_append, unobserved, unobserved, List.filter_append]
    exact (List.append_nil _).symm
  -- Induction on the steps after the observer has come. The list of actions is not fixed:
  -- observers may stand anywhere in it.
  refine (hrun.induction_from (p := fun past state => state.Observed ∧
    ∀ actions : List (Action α), unobserved actions = unobserved (past.map Prod.snd) →
      ComesTo config cores (actions ++ [.observe replacement]) state)
    (fun after hstep => ?_) fun past before action after hbefore ih hstep => ?_).2 actions hactions
  · obtain rfl := Option.some.inj hstep
    refine ⟨rfl, fun actions hactions => ?_⟩
    have hobserves : ∀ action ∈ actions, action.isObserve = true := by
      intro action hmem
      simpa using List.filter_eq_nil_iff.mp hactions action hmem
    refine ComesTo.observe ?_ rfl hobserves
    exact ⟨_, _, .step hrun.at_step.1 (.observe replacement) rfl, rfl, rfl⟩
  · obtain ⟨hobserved, ih⟩ := ih
    have hafter := hobserved.of_step hbefore.reachable.sound hstep
    refine ⟨hafter, fun actions hactions => ?_⟩
    cases his : action.isObserve with
    | true =>
        obtain ⟨observer, rfl⟩ := Action.exists_observer his
        obtain ⟨past, other, hother, hpast, hsame⟩ := ih actions hactions
        exact ⟨past, other, hother, hpast, hsame.trans (observe_calmed hobserved hstep).symm⟩
    | false =>
        rw [List.map_cons, unobserved, unobserved,
          List.filter_cons_of_pos (by simp [his])] at hactions
        obtain ⟨observes, earlier, rfl, hobserves, -, hearlier⟩ :=
          List.filter_eq_cons_iff.mp hactions
        rw [List.append_assoc]
        exact ((ih earlier hearlier).step hstep).observe hafter
          fun action hmem => by simpa using hobserves action hmem

end Scheduler

end TimedTasks
