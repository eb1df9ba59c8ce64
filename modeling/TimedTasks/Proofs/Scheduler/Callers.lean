import TimedTasks.Proofs.Metrics
import TimedTasks.Proofs.Scheduler.Run

/-!
# What a step means to the callers

A call is made in one step, goes on in others, and is answered in the last of them.  Nobody
else touches it: `front_of_step` is about the steps of the dispatcher, the workers and the
clock, and what remains are the steps in which a call is made (`Receives`) and those in which
it goes on (`Proceeds`).  A call that has been answered is over, and no other will have its
number (`Attended`).
-/

namespace TimedTasks

deriving instance DecidableEq for Answer

/-- Whether a call is to shut the scheduler down. -/
def Call.ShutsDown : Call → Prop
  | .claiming | .closing _ | .cancelling _ _ _ => True
  | .inserting _ _ | .parked _ | .removing _ => False

/-- The stage at which a request that is not refused becomes a call. -/
inductive Request.Opens {α : Type} : Request α → Call → Prop
  | schedule (submission : Submission α) (task : TaskId) (patient : Bool) :
      Opens (.schedule submission patient) (.inserting task patient)
  | cancel (task : TaskId) : Opens (.cancel task) (.removing task)
  | drain : Opens (.shutdown true) (.closing true)
  | hasten : Opens (.shutdown false) .claiming

/-- What callers have to do with. -/
structure Front where
  calls : List (CallId × Call)
  answers : List (CallId × Answer)
  nextCall : CallId
  claimed : Bool
  /-- How many tasks immediate shutdowns have cancelled, as far as they have been answered. -/
  abandoned : Nat

namespace Agenda

variable {α : Type}

theorem abandoned_settle {agenda after : Agenda α} {job : Job α} {completedAt : Moment}
    {error? : Option TaskError} {again : Bool}
    (hsettle : agenda.settle job completedAt error? = (after, again)) :
    after.metrics.abandoned = agenda.metrics.abandoned := by
  cases hrecord : agenda.records[job.task]? with
  | none =>
      simp only [settle, hrecord, Prod.mk.injEq] at hsettle
      rw [← hsettle.1]
  | some record =>
      rw [metrics_settle hrecord hsettle]
      rfl

end Agenda

namespace Scheduler

variable {α : Type} {before after scheduler : Scheduler α} {action : Action α}
variable {config : Config} {cores : Nat} {call other : CallId}

def front (scheduler : Scheduler α) : Front where
  calls := scheduler.calls
  answers := scheduler.answers
  nextCall := scheduler.nextCall
  claimed := scheduler.claimed
  abandoned := scheduler.agenda.metrics.abandoned

/-! ## Steps that are not the callers' -/

theorem front_cancelNow (before : Scheduler α) (task : TaskId) :
    (before.cancelNow task).front = before.front := by
  rcases before.cancelNow_cases task with hsame | ⟨record, -, -, hcancelled⟩
  · rw [hsame]
  · rw [hcancelled]
    rfl

theorem front_submitNow {submission : Submission α} {result : Except SchedulerError Unit}
    (hsubmit : before.submitNow submission = .ok (after, result)) :
    after.front = before.front := by
  unfold submitNow at hsubmit
  split at hsubmit
  · simp at hsubmit
  · obtain ⟨rfl, -⟩ := Prod.mk.inj (Except.ok.inj hsubmit)
    rfl
  · dsimp only at hsubmit
    split at hsubmit
    · obtain ⟨rfl, -⟩ := Prod.mk.inj (Except.ok.inj hsubmit)
      rfl
    · rename_i agenda hok
      obtain ⟨-, -, rfl⟩ := Agenda.tryInsert_eq_ok hok
      obtain ⟨rfl, -⟩ := Prod.mk.inj (Except.ok.inj hsubmit)
      rfl

theorem front_passTime {agenda : Agenda α} {move? : Option Span}
    (hpass : before.agenda.passTime move? = .ok agenda) :
    Scheduler.front { before with agenda } = before.front := by
  cases move? with
  | none =>
      obtain rfl := Except.ok.inj hpass
      rfl
  | some move =>
      obtain ⟨clock, -, rfl⟩ := Agenda.advance_eq_ok hpass
      rfl

theorem front_perform (before : Scheduler α) (turn : Turn α) :
    (before.perform turn).1.front = before.front :=
  perform_induction (p := fun state => state.front = before.front) turn rfl
    (fun _ hpass => front_passTime hpass)
    (fun state task hsame => (front_cancelNow state task).trans hsame)
    fun _ _ _ _ _ hsame hsubmit => (front_submitNow hsubmit).trans hsame

theorem front_work {job : Job α} (hwork : before.work job = some after) :
    after.front = before.front := by
  unfold work at hwork
  split at hwork
  · obtain rfl := Option.some.inj hwork
    rfl
  · split at hwork
    · obtain rfl := Option.some.inj hwork
      exact front_perform before _
    · simp at hwork
  · split at hwork
    · obtain rfl := Option.some.inj hwork
      rfl
    · split at hwork
      all_goals
        rename_i agenda hsettle
        obtain rfl := Option.some.inj hwork
        exact congrArg (Front.mk _ _ _ _) (Agenda.abandoned_settle hsettle)
  · split at hwork
    · rename_i agenda hrequeue
      obtain ⟨-, -, rfl⟩ := Agenda.requeue_eq_true hrequeue
      obtain rfl := Option.some.inj hwork
      rfl
    · rename_i agenda hrequeue
      obtain rfl := Agenda.requeue_eq_false hrequeue
      obtain rfl := Option.some.inj hwork
      rfl
  · obtain rfl := Option.some.inj hwork
    exact congrArg (Front.mk _ _ _ _) (congrArg Metrics.abandoned (Agenda.metrics_attempt ..))

theorem front_dispatch (hdispatch : before.dispatch = some after) :
    after.front = before.front := by
  unfold dispatch at hdispatch
  split at hdispatch
  · split at hdispatch
    · simp at hdispatch
    · obtain rfl := Option.some.inj hdispatch
      obtain ⟨queue, dispatcher, hlook⟩ := before.look_eq
      rw [hlook]
      rfl
  · rename_i task _
    have hmetrics := Agenda.metrics_attempt before.agenda task Record.start?
    have habandoned : (before.agenda.start task).1.metrics.abandoned =
        before.agenda.metrics.abandoned := congrArg Metrics.abandoned hmetrics
    dsimp only at hdispatch
    split at hdispatch
    all_goals
      obtain rfl := Option.some.inj hdispatch
      exact congrArg (Front.mk _ _ _ _) habandoned
  · split at hdispatch
    · obtain rfl := Option.some.inj hdispatch
      rfl
    · simp at hdispatch
  · obtain rfl := Option.some.inj hdispatch
    rfl
  · simp at hdispatch
  · simp at hdispatch

/-- The dispatcher, the workers and the clock leave calls and answers alone. -/
theorem front_of_step (hstep : before.step action = some after)
    (hrequest : ∀ request, action ≠ .request request)
    (hproceed : ∀ call, action ≠ .proceed call) : after.front = before.front := by
  cases action with
  | request request => exact absurd rfl (hrequest request)
  | proceed call => exact absurd rfl (hproceed call)
  | advance move =>
      simp only [step] at hstep
      split at hstep
      · obtain rfl := Option.some.inj hstep
        rfl
      · simp at hstep
  | announce =>
      simp only [step] at hstep
      split at hstep
      · simp at hstep
      · obtain rfl := Option.some.inj hstep
        rfl
  | dispatch => exact front_dispatch hstep
  | takeUp position =>
      simp only [step, takeUp] at hstep
      split at hstep
      · rename_i task worker _ _
        split at hstep
        · obtain rfl := Option.some.inj hstep
          rfl
        · rename_i startedAt _
          obtain rfl := Option.some.inj hstep
          obtain ⟨records, history, henter⟩ := before.agenda.enter_fst task worker startedAt
          rw [henter]
          rfl
      · simp at hstep
  | work worker =>
      simp only [step] at hstep
      split at hstep
      · exact front_work hstep
      · simp at hstep
  | expire | release | observe =>
      obtain rfl := Option.some.inj hstep
      rfl

/-! ## Looking a call up -/

theorem lookup_reply (before : Scheduler α) (call : CallId) (answer : Answer) (other : CallId) :
    (before.reply call answer).calls.lookup other =
      if other = call then none else before.calls.lookup other := by
  simp only [reply]
  induction before.calls with
  | nil => simp
  | cons first rest ih =>
      obtain ⟨key, stage⟩ := first
      by_cases hkey : key = call
      · subst hkey
        by_cases hother : other = key
        · simpa [hother] using ih
        · simpa [hother, List.lookup_cons, beq_false_of_ne hother] using ih
      · by_cases hother : other = key
        · subst hother
          simp [hkey]
        · simpa [hkey, List.lookup_cons, beq_false_of_ne hother] using ih

theorem answer?_reply (before : Scheduler α) (call : CallId) (answer : Answer) (other : CallId) :
    (before.reply call answer).answer? other =
      if other = call then some answer else before.answer? other := by
  by_cases hother : other = call
  · simp [answer?, reply, hother]
  · simp [answer?, reply, hother, List.lookup_cons, beq_false_of_ne hother]

theorem lookup_goOn (before : Scheduler α) (call : CallId) (next : Call) (other : CallId) :
    (before.goOn call next).calls.lookup other =
      if other = call then (before.calls.lookup other).map fun _ => next
      else before.calls.lookup other := by
  simp only [goOn]
  induction before.calls with
  | nil => simp
  | cons first rest ih =>
      obtain ⟨key, stage⟩ := first
      by_cases hkey : key = call
      · subst hkey
        by_cases hother : other = key
        · simp [hother]
        · simpa [hother, List.lookup_cons, beq_false_of_ne hother] using ih
      · by_cases hother : other = key
        · subst hother
          simp [hkey]
        · simpa [hkey, List.lookup_cons, beq_false_of_ne hother] using ih

theorem lookup_reply_self (before : Scheduler α) (call : CallId) (answer : Answer) :
    (before.reply call answer).calls.lookup call = none := by
  rw [lookup_reply, if_pos rfl]

theorem answer?_reply_self (before : Scheduler α) (call : CallId) (answer : Answer) :
    (before.reply call answer).answer? call = some answer := by
  rw [answer?_reply, if_pos rfl]

theorem lookup_goOn_self {stage : Call} (hlookup : before.calls.lookup call = some stage)
    (next : Call) : (before.goOn call next).calls.lookup call = some next := by
  rw [lookup_goOn, if_pos rfl, hlookup, Option.map_some]

theorem lookup_opened (before : Scheduler α) (call : CallId) (stage : Call) (other : CallId) :
    (before.opened call stage).calls.lookup other =
      (before.calls.lookup other).or (if other = call then some stage else none) := by
  simp only [opened, List.lookup_append]
  by_cases hother : other = call
  · simp [hother]
  · simp [hother, List.lookup_cons, beq_false_of_ne hother]

/-! ## The steps of a call -/

/-- A call is made: it is refused at once, or it is in progress. -/
inductive Receives (before : Scheduler α) (asked : Request α) : Scheduler α → Prop
  | refused {state : Scheduler α} {answer : Answer} (hfront : state.front = before.numbered.front)
      (hanswer : answer.IsRefusal) : Receives before asked (state.reply before.nextCall answer)
  | opened {state : Scheduler α} {stage : Call} (hfront : state.front = before.numbered.front)
      (hstage : asked.Opens stage) : Receives before asked (state.opened before.nextCall stage)

theorem receives_of_step {asked : Request α} (hstep : before.step (.request asked) = some after) :
    before.Receives asked after := by
  obtain rfl := Option.some.inj hstep
  cases asked with
  | schedule submission patient =>
      simp only [request]
      split
      · exact .refused rfl trivial
      · exact .refused rfl trivial
      · exact .opened rfl (.schedule submission _ patient)
  | cancel task =>
      simp only [request]
      split
      · split
        · rename_i agenda hcancel
          obtain ⟨record, -, -, rfl⟩ := Agenda.cancel_eq_true hcancel
          exact .opened rfl (.cancel task)
        · exact .refused rfl trivial
      · exact .refused rfl trivial
  | shutdown drain =>
      simp only [request]
      split
      · cases drain with
        | true => exact .opened rfl .drain
        | false => exact .opened rfl .hasten
      · exact .refused rfl trivial

/-- A call goes on.  What is told here in full is what a call does that shuts the scheduler
down. -/
inductive Proceeds (before : Scheduler α) (call : CallId) : Call → Scheduler α → Prop
  | turnedAway (hclaimed : before.claimed = true) :
      Proceeds before call .claiming (before.reply call (.shutDown (.error .closed)))
  | claims (hclaimed : before.claimed = false) :
      Proceeds before call .claiming
        (Scheduler.goOn { before with claimed := true } call (.closing false))
  | closes (drain : Bool) :
      Proceeds before call (.closing drain)
        ((before.withQueue (before.agenda.queue.close drain).1).goOn call
          (.cancelling drain ((before.agenda.queue.close drain).2.map (·.task)) []))
  | cancels {drain : Bool} {task : TaskId} {left done : List TaskId} {record : Record α}
      (hrecord : before.record? task = some record) (hlive : record.isDone = false) :
      Proceeds before call (.cancelling drain (task :: left) done)
        ((before.withRecord task { record with state := .cancelled }).goOn call
          (.cancelling drain left (done ++ [task])))
  | passesOver {drain : Bool} {task : TaskId} {left done : List TaskId}
      (hdead : ∀ record, before.record? task = some record → record.isDone = true) :
      Proceeds before call (.cancelling drain (task :: left) done)
        (before.goOn call (.cancelling drain left done))
  | reports {drain : Bool} {done : List TaskId} {state : Scheduler α}
      (hrecords : state.agenda.records = before.agenda.records)
      (hfront : state.front = { before.front with
        abandoned :=
          if drain then before.front.abandoned else before.front.abandoned + done.length }) :
      Proceeds before call (.cancelling drain [] done)
        (state.reply call (.shutDown (.ok done)))
  | answers {stage : Call} {state : Scheduler α} {answer : Answer} (hstage : ¬ stage.ShutsDown)
      (hrecords : state.agenda.records = before.agenda.records)
      (hfront : state.front = before.front) (hanswer : ∀ result, answer ≠ .shutDown result) :
      Proceeds before call stage (state.reply call answer)
  | waits {stage : Call} {state : Scheduler α} {task : TaskId} (hstage : ¬ stage.ShutsDown)
      (hrecords : state.agenda.records = before.agenda.records)
      (hfront : state.front = before.front) :
      Proceeds before call stage (state.goOn call (.parked task))

theorem proceeds_admitted {stage : Call} {task : TaskId} (hstage : ¬ stage.ShutsDown)
    {state : Scheduler α} (hrecords : state.agenda.records = before.agenda.records)
    (hfront : state.front = before.front) (outcome : Admitted) :
    before.Proceeds call stage (state.admitted call task outcome) := by
  cases outcome with
  | accepted => exact .answers hstage hrecords hfront (by simp)
  | refused error => exact .answers hstage hrecords hfront (by simp)
  | parked => exact .waits hstage hrecords hfront

theorem proceeds_of_step (hstep : before.step (.proceed call) = some after) :
    ∃ stage, before.calls.lookup call = some stage ∧ before.Proceeds call stage after := by
  simp only [step] at hstep
  split at hstep
  swap
  · simp at hstep
  rename_i stage hlookup
  refine ⟨stage, hlookup, ?_⟩
  -- One case for each stage of a call. What the queue does matters only to those that bring a
  -- task.
  unfold proceed at hstep
  split at hstep
  · rename_i task
    have hstage : ¬ (Call.inserting task true).ShutsDown := id
    obtain rfl := Option.some.inj hstep
    refine proceeds_admitted hstage ?_ ?_ _ <;> rfl
  · rename_i task
    have hstage : ¬ (Call.inserting task false).ShutsDown := id
    split at hstep
    · rename_i agenda hok
      obtain ⟨-, -, rfl⟩ := Agenda.tryInsert_eq_ok hok
      obtain rfl := Option.some.inj hstep
      refine proceeds_admitted hstage ?_ ?_ .accepted <;> rfl
    · obtain rfl := Option.some.inj hstep
      exact proceeds_admitted hstage rfl rfl (.refused _)
  · rename_i task
    have hstage : ¬ (Call.parked task).ShutsDown := id
    split at hstep
    · simp at hstep
    · obtain rfl := Option.some.inj hstep
      refine proceeds_admitted hstage ?_ ?_ _ <;> rfl
  · rename_i task
    obtain ⟨found, hremove⟩ := before.agenda.remove_eq task
    rw [hremove] at hstep
    obtain rfl := Option.some.inj hstep
    exact .answers id rfl rfl (by simp)
  · split at hstep
    · rename_i hclaimed
      obtain rfl := Option.some.inj hstep
      exact .turnedAway hclaimed
    · rename_i hclaimed
      obtain rfl := Option.some.inj hstep
      exact .claims (by simpa using hclaimed)
  · rename_i drain
    obtain rfl := Option.some.inj hstep
    exact .closes drain
  · split at hstep
    · rename_i agenda hcancel
      obtain ⟨record, hrecord, hlive, rfl⟩ := Agenda.cancel_eq_true hcancel
      obtain rfl := Option.some.inj hstep
      exact .cancels hrecord hlive
    · rename_i agenda hcancel
      obtain ⟨-, hdead⟩ := Agenda.cancel_eq_false hcancel
      obtain rfl := Option.some.inj hstep
      exact .passesOver hdead
  · obtain rfl := Option.some.inj hstep
    exact .reports rfl rfl

/-! ## Numbers -/

theorem Receives.nextCall_eq {asked : Request α} (hreceives : before.Receives asked after) :
    after.nextCall = before.nextCall + 1 := by
  cases hreceives with
  | refused hfront | opened hfront => exact congrArg Front.nextCall hfront

theorem Proceeds.nextCall_eq {stage : Call} (hproceeds : before.Proceeds call stage after) :
    after.nextCall = before.nextCall := by
  cases hproceeds with
  | reports _ hfront | answers _ _ hfront | waits _ _ hfront =>
      exact congrArg Front.nextCall hfront
  | _ => rfl

theorem nextCall_le_of_step (hstep : before.step action = some after) :
    before.nextCall ≤ after.nextCall := by
  have hfront : after.front = before.front → before.nextCall ≤ after.nextCall :=
    fun hfront => Nat.le_of_eq (congrArg Front.nextCall hfront).symm
  cases action with
  | request asked => exact (receives_of_step hstep).nextCall_eq ▸ Nat.le_succ _
  | proceed call =>
      obtain ⟨stage, -, hproceeds⟩ := proceeds_of_step hstep
      exact Nat.le_of_eq hproceeds.nextCall_eq.symm
  | _ => exact hfront (front_of_step hstep (by simp) (by simp))

theorem claimed_of_step (hstep : before.step action = some after)
    (hclaimed : before.claimed = true) : after.claimed = true := by
  have hothers : after.front = before.front → after.claimed = true :=
    fun hfront => (congrArg Front.claimed hfront).trans hclaimed
  cases action with
  | request asked =>
      cases receives_of_step hstep with
      | refused hfront | opened hfront => exact (congrArg Front.claimed hfront).trans hclaimed
  | proceed call =>
      obtain ⟨stage, -, hproceeds⟩ := proceeds_of_step hstep
      cases hproceeds with
      | claims => rfl
      | reports _ hfront | answers _ _ hfront | waits _ _ hfront =>
          exact (congrArg Front.claimed hfront).trans hclaimed
      | _ => exact hclaimed
  | _ => exact hothers (front_of_step hstep (by simp) (by simp))

/-! ## The other calls -/

theorem Receives.aside {asked : Request α} (hreceives : before.Receives asked after)
    (hother : other ≠ before.nextCall) :
    after.calls.lookup other = before.calls.lookup other ∧
      after.answer? other = before.answer? other := by
  cases hreceives with
  | @refused state answer hfront =>
      have hcalls : state.calls = before.calls := congrArg Front.calls hfront
      have hanswers : state.answers = before.answers := congrArg Front.answers hfront
      rw [lookup_reply, answer?_reply, if_neg hother, if_neg hother, answer?, hcalls, hanswers]
      exact ⟨rfl, rfl⟩
  | @opened state stage hfront =>
      have hcalls : state.calls = before.calls := congrArg Front.calls hfront
      have hanswers : state.answers = before.answers := congrArg Front.answers hfront
      refine ⟨?_, congrArg (List.lookup other) hanswers⟩
      rw [lookup_opened, if_neg hother, hcalls, Option.or_none]

theorem Proceeds.aside {stage : Call} (hproceeds : before.Proceeds call stage after)
    (hother : other ≠ call) :
    after.calls.lookup other = before.calls.lookup other ∧
      after.answer? other = before.answer? other := by
  have hreply : ∀ {state : Scheduler α} {answer : Answer}, state.calls = before.calls →
      state.answers = before.answers →
      (state.reply call answer).calls.lookup other = before.calls.lookup other ∧
        (state.reply call answer).answer? other = before.answer? other := by
    intro state answer hcalls hanswers
    rw [lookup_reply, answer?_reply, if_neg hother, if_neg hother, answer?, hcalls, hanswers]
    exact ⟨rfl, rfl⟩
  have hgoOn : ∀ {state : Scheduler α} {next : Call}, state.calls = before.calls →
      state.answers = before.answers →
      (state.goOn call next).calls.lookup other = before.calls.lookup other ∧
        (state.goOn call next).answer? other = before.answer? other := by
    intro state next hcalls hanswers
    refine ⟨?_, congrArg (List.lookup other) hanswers⟩
    rw [lookup_goOn, if_neg hother, hcalls]
  cases hproceeds with
  | turnedAway => exact hreply rfl rfl
  | reports _ hfront | answers _ _ hfront =>
      exact hreply (congrArg Front.calls hfront) (congrArg Front.answers hfront)
  | claims | closes | cancels | passesOver => exact hgoOn rfl rfl
  | waits _ _ hfront =>
      exact hgoOn (congrArg Front.calls hfront) (congrArg Front.answers hfront)

/-- A call is touched when it is made and when it goes on. -/
theorem aside_of_step (hstep : before.step action = some after)
    (hrequest : ∀ asked, action = .request asked → call ≠ before.nextCall)
    (hproceed : action ≠ .proceed call) :
    after.calls.lookup call = before.calls.lookup call ∧
      after.answer? call = before.answer? call := by
  have hfront : after.front = before.front → after.calls.lookup call = before.calls.lookup call ∧
      after.answer? call = before.answer? call := fun hfront =>
    ⟨congrArg (List.lookup call) (congrArg Front.calls hfront),
      congrArg (List.lookup call) (congrArg Front.answers hfront)⟩
  cases action with
  | request asked => exact (receives_of_step hstep).aside (hrequest asked rfl)
  | proceed other =>
      obtain ⟨stage, -, hproceeds⟩ := proceeds_of_step hstep
      exact hproceeds.aside fun heq => hproceed (by rw [heq])
  | _ => exact hfront (front_of_step hstep (by simp) (by simp))

/-- Whether a step is one of the call: it is made in it, or it goes on. -/
def IsStepOf (scheduler : Scheduler α) (call : CallId) : Action α → Prop
  | .request _ => scheduler.nextCall = call
  | .proceed other => other = call
  | _ => False

theorem aside_of_not_isStepOf (hstep : before.step action = some after)
    (hothers : ¬ before.IsStepOf call action) :
    after.calls.lookup call = before.calls.lookup call ∧
      after.answer? call = before.answer? call := by
  refine aside_of_step hstep ?_ ?_
  · rintro asked rfl hcall
    exact hothers hcall.symm
  · rintro rfl
    exact hothers rfl

/-! ## Answered once -/

/-- A call is in progress or has been answered, and a call that has not been made is neither. -/
structure Attended (scheduler : Scheduler α) : Prop where
  made : ∀ call, scheduler.nextCall ≤ call →
    scheduler.calls.lookup call = none ∧ scheduler.answer? call = none
  closed : ∀ call answer, scheduler.answer? call = some answer → scheduler.calls.lookup call = none

namespace Attended

theorem of_eq (hattended : before.Attended) (hcalls : after.calls = before.calls)
    (hanswers : after.answers = before.answers) (hnext : after.nextCall = before.nextCall) :
    after.Attended := by
  constructor
  · simpa only [answer?, hcalls, hanswers, hnext] using hattended.made
  · simpa only [answer?, hcalls, hanswers] using hattended.closed

theorem of_front (hattended : before.Attended) (hfront : after.front = before.front) :
    after.Attended :=
  hattended.of_eq (congrArg Front.calls hfront) (congrArg Front.answers hfront)
    (congrArg Front.nextCall hfront)

theorem numbered (hattended : before.Attended) : before.numbered.Attended where
  made := fun call hcall => hattended.made call (Nat.le_of_succ_le hcall)
  closed := hattended.closed

theorem reply (hattended : before.Attended) (hmade : call < before.nextCall) (answer : Answer) :
    (before.reply call answer).Attended where
  made := by
    intro other hother
    have hne : other ≠ call := fun heq => absurd hmade (Nat.not_lt.mpr (heq ▸ hother))
    rw [lookup_reply, answer?_reply, if_neg hne, if_neg hne]
    exact hattended.made other hother
  closed := by
    intro other found hfound
    rw [lookup_reply]
    by_cases hother : other = call
    · rw [if_pos hother]
    · rw [answer?_reply, if_neg hother] at hfound
      rw [if_neg hother]
      exact hattended.closed other found hfound

theorem goOn (hattended : before.Attended) (next : Call) :
    (before.goOn call next).Attended where
  made := by
    intro other hother
    obtain ⟨hlookup, hanswer⟩ := hattended.made other hother
    refine ⟨?_, hanswer⟩
    rw [lookup_goOn, hlookup]
    split <;> rfl
  closed := by
    intro other found hfound
    rw [lookup_goOn, hattended.closed other found hfound]
    split <;> rfl

theorem opened (hattended : before.Attended) (hmade : call < before.nextCall)
    (hanswer : before.answer? call = none) (stage : Call) :
    (before.opened call stage).Attended where
  made := by
    intro other hother
    have hne : other ≠ call := fun heq => absurd hmade (Nat.not_lt.mpr (heq ▸ hother))
    obtain ⟨hlookup, hnone⟩ := hattended.made other hother
    exact ⟨by rw [lookup_opened, hlookup, if_neg hne]; rfl, hnone⟩
  closed := by
    intro other found hfound
    have hne : other ≠ call := by
      rintro rfl
      exact absurd (hanswer.symm.trans hfound) (by simp)
    rw [lookup_opened, if_neg hne, Option.or_none]
    exact hattended.closed other found hfound

end Attended

theorem Attended.lt_next (hattended : before.Attended) {stage : Call}
    (hlookup : before.calls.lookup call = some stage) : call < before.nextCall := by
  by_contra hnot
  have hnone := (hattended.made call (Nat.le_of_not_lt hnot)).1
  exact absurd (hnone.symm.trans hlookup) (by simp)

theorem Receives.attended {asked : Request α} (hreceives : before.Receives asked after)
    (hattended : before.Attended) : after.Attended := by
  cases hreceives with
  | @refused state answer hfront =>
      have hnext : state.nextCall = before.nextCall + 1 := congrArg Front.nextCall hfront
      exact (hattended.numbered.of_front hfront).reply (hnext ▸ Nat.lt_succ_self _) _
  | @opened state stage hfront =>
      have hnext : state.nextCall = before.nextCall + 1 := congrArg Front.nextCall hfront
      have hnone : state.answer? before.nextCall = none :=
        (congrArg (List.lookup before.nextCall) (congrArg Front.answers hfront)).trans
          (hattended.made _ (Nat.le_refl _)).2
      exact (hattended.numbered.of_front hfront).opened (hnext ▸ Nat.lt_succ_self _) hnone _

theorem Proceeds.attended {stage : Call} (hproceeds : before.Proceeds call stage after)
    (hattended : before.Attended) (hmade : call < before.nextCall) : after.Attended := by
  cases hproceeds with
  | turnedAway => exact hattended.reply hmade _
  | claims =>
      refine Attended.goOn ?_ _
      exact hattended.of_eq rfl rfl rfl
  | closes | cancels =>
      refine Attended.goOn ?_ _
      exact hattended.of_front rfl
  | passesOver => exact hattended.goOn _
  | @reports _ _ state _ hfront =>
      have hnext : state.nextCall = before.nextCall := congrArg Front.nextCall hfront
      refine Attended.reply ?_ (hnext ▸ hmade) _
      exact hattended.of_eq (congrArg Front.calls hfront) (congrArg Front.answers hfront) hnext
  | @answers _ state _ _ _ hfront =>
      have hnext : state.nextCall = before.nextCall := congrArg Front.nextCall hfront
      exact (hattended.of_front hfront).reply (hnext ▸ hmade) _
  | waits _ _ hfront => exact (hattended.of_front hfront).goOn _

theorem Reachable.attended (hreachable : Reachable config cores scheduler) :
    scheduler.Attended := by
  induction hreachable with
  | start hcreated =>
      obtain rfl := new_eq_ok hcreated
      exact ⟨fun _ _ => ⟨rfl, rfl⟩, fun _ _ hanswer => absurd hanswer (by simp [answer?])⟩
  | step _ action hstep ih =>
      cases action with
      | request asked => exact (receives_of_step hstep).attended ih
      | proceed call =>
          obtain ⟨stage, hlookup, hproceeds⟩ := proceeds_of_step hstep
          exact hproceeds.attended ih (ih.lt_next hlookup)
      | _ => exact ih.of_front (front_of_step hstep (by simp) (by simp))

theorem Attended.unanswered (hattended : before.Attended) {stage : Call}
    (hlookup : before.calls.lookup call = some stage) : before.answer? call = none := by
  cases hanswer : before.answer? call with
  | none => rfl
  | some answer =>
      exact absurd ((hattended.closed call answer hanswer).symm.trans hlookup) (by simp)

theorem Run.lt_next_of_mem {past : List (Scheduler α × Action α)}
    (hrun : Run config cores past scheduler) (hmem : (before, action) ∈ past)
    (hof : before.IsStepOf call action) : call < scheduler.nextCall := by
  induction hrun with
  | start => exact absurd hmem List.not_mem_nil
  | @step past middle after hrun last hstep ih =>
      rcases List.mem_cons.mp hmem with heq | hearlier
      · obtain ⟨rfl, rfl⟩ := Prod.mk.inj heq
        cases action with
        | request asked =>
            obtain rfl : before.nextCall = call := hof
            exact (receives_of_step hstep).nextCall_eq ▸ Nat.lt_succ_self _
        | proceed other =>
            obtain rfl : other = call := hof
            obtain ⟨stage, hlookup, -⟩ := proceeds_of_step hstep
            exact Nat.lt_of_lt_of_le (hrun.reachable.attended.lt_next hlookup)
              (nextCall_le_of_step hstep)
        | _ => exact hof.elim
      · exact Nat.lt_of_lt_of_le (ih hearlier) (nextCall_le_of_step hstep)

theorem Run.request_unique {past : List (Scheduler α × Action α)} {first second : Scheduler α}
    {asked others : Request α} (hrun : Run config cores past scheduler)
    (hfirst : (first, .request asked) ∈ past) (hsecond : (second, .request others) ∈ past)
    (hcall : first.nextCall = second.nextCall) : first = second ∧ asked = others := by
  induction hrun with
  | start => exact absurd hfirst List.not_mem_nil
  | @step past before after hrun action hstep ih =>
      -- What has been made before is numbered below what is made now.
      have hlt : ∀ {state request}, (state, Action.request request) ∈ past →
          state.nextCall < before.nextCall := fun hmem => hrun.lt_next_of_mem hmem rfl
      rcases List.mem_cons.mp hfirst with hone | hone <;>
        rcases List.mem_cons.mp hsecond with htwo | htwo
      · obtain ⟨rfl, hasked⟩ := Prod.mk.inj hone
        obtain ⟨rfl, hothers⟩ := Prod.mk.inj htwo
        exact ⟨rfl, Action.request.inj (hasked.trans hothers.symm)⟩
      · obtain ⟨rfl, -⟩ := Prod.mk.inj hone
        exact absurd hcall.symm (Nat.ne_of_lt (hlt htwo))
      · obtain ⟨rfl, -⟩ := Prod.mk.inj htwo
        exact absurd hcall (Nat.ne_of_lt (hlt hone))
      · exact ih hone htwo

/-! ## Being told of a shutdown -/

/-- A call is told which tasks it has cancelled when none is left. -/
theorem Proceeds.told_iff {stage : Call} (hproceeds : before.Proceeds call stage after)
    (hunanswered : before.answer? call = none) {done : List TaskId} :
    after.answer? call = some (.shutDown (.ok done)) ↔
      ∃ drain, stage = .cancelling drain [] done := by
  cases hproceeds with
  | turnedAway | reports => simp [answer?_reply_self]
  | answers hstage _ _ hanswer =>
      rw [answer?_reply_self]
      refine iff_of_false (fun hdone => hanswer _ (Option.some.inj hdone)) ?_
      rintro ⟨drain, rfl⟩
      exact hstage trivial
  | waits hstage _ hfront =>
      have hanswers := congrArg Front.answers hfront
      have hnone := (congrArg (List.lookup call) hanswers).trans hunanswered
      refine iff_of_false (fun hdone => absurd (hnone.symm.trans hdone) (by simp)) ?_
      rintro ⟨drain, rfl⟩
      exact hstage trivial
  | _ =>
      exact iff_of_false (fun hdone => absurd (hunanswered.symm.trans hdone) (by simp)) (by simp)

theorem Receives.not_told {asked : Request α} (hreceives : before.Receives asked after)
    (hunanswered : before.answer? before.nextCall = none) (done : List TaskId) :
    after.answer? before.nextCall ≠ some (.shutDown (.ok done)) := by
  cases hreceives with
  | refused _ hanswer =>
      rw [answer?_reply_self]
      intro hdone
      obtain rfl := Option.some.inj hdone
      exact hanswer
  | opened hfront =>
      have hanswers := congrArg Front.answers hfront
      have hnone := (congrArg (List.lookup before.nextCall) hanswers).trans hunanswered
      exact fun hdone => absurd (hnone.symm.trans hdone) (by simp)

/-- Whoever has been told of a shutdown had been told before, or is told in this step. -/
theorem Attended.told_iff (hattended : before.Attended)
    (hstep : before.step action = some after) {done : List TaskId} :
    after.answer? call = some (.shutDown (.ok done)) ↔
      before.answer? call = some (.shutDown (.ok done)) ∨
        action = .proceed call ∧
          ∃ drain, before.calls.lookup call = some (.cancelling drain [] done) := by
  by_cases hproceed : action = .proceed call
  · subst hproceed
    obtain ⟨stage, hlookup, hproceeds⟩ := proceeds_of_step hstep
    have hunanswered := hattended.unanswered hlookup
    rw [hproceeds.told_iff hunanswered, hunanswered, hlookup]
    simp
  · rw [or_iff_left fun hboth => hproceed hboth.1]
    by_cases hnew : (∃ asked, action = .request asked) ∧ call = before.nextCall
    · obtain ⟨⟨asked, rfl⟩, rfl⟩ := hnew
      obtain ⟨-, hunanswered⟩ := hattended.made before.nextCall (Nat.le_refl _)
      refine iff_of_false ((receives_of_step hstep).not_told hunanswered done) ?_
      simp [hunanswered]
    · obtain ⟨-, hanswer⟩ := aside_of_step hstep
        (fun asked hasked hcall => hnew ⟨⟨asked, hasked⟩, hcall⟩) hproceed
      rw [hanswer]

/-- Tasks count as abandoned when a call that shuts the scheduler down at once is told of them. -/
theorem abandoned_of_step (hstep : before.step action = some after) :
    (∃ call done, action = .proceed call ∧
      before.calls.lookup call = some (.cancelling false [] done) ∧
      after.agenda.metrics.abandoned = before.agenda.metrics.abandoned + done.length) ∨
    (∀ call done, action = .proceed call →
      before.calls.lookup call ≠ some (.cancelling false [] done)) ∧
      after.agenda.metrics.abandoned = before.agenda.metrics.abandoned := by
  have hothers : (∀ call, action ≠ .proceed call) → after.front = before.front →
      (∀ call done, action = .proceed call →
        before.calls.lookup call ≠ some (.cancelling false [] done)) ∧
        after.agenda.metrics.abandoned = before.agenda.metrics.abandoned :=
    fun hproceed hfront => ⟨fun call _ heq => absurd heq (hproceed call),
      congrArg Front.abandoned hfront⟩
  cases action with
  | request asked =>
      refine Or.inr ⟨by simp, ?_⟩
      cases receives_of_step hstep with
      | refused hfront | opened hfront => exact congrArg Front.abandoned hfront
  | proceed call =>
      obtain ⟨stage, hlookup, hproceeds⟩ := proceeds_of_step hstep
      -- Anything but the last stage leaves the count alone.
      have hearlier : (∀ done, stage ≠ .cancelling false [] done) →
          ∀ other done, (Action.proceed call : Action α) = .proceed other →
            before.calls.lookup other ≠ some (.cancelling false [] done) := by
        intro hstage other done heq hfound
        obtain rfl := Action.proceed.inj heq
        exact hstage done (Option.some.inj (hlookup.symm.trans hfound))
      cases hproceeds with
      | @reports drain done _ _ hfront =>
          cases drain with
          | false => exact Or.inl ⟨call, done, rfl, hlookup, congrArg Front.abandoned hfront⟩
          | true => exact Or.inr ⟨hearlier (by simp), congrArg Front.abandoned hfront⟩
      | answers hstage _ hfront | waits hstage _ hfront =>
          refine Or.inr ⟨hearlier ?_, congrArg Front.abandoned hfront⟩
          rintro done rfl
          exact hstage trivial
      | _ => exact Or.inr ⟨hearlier (by simp), rfl⟩
  | _ => exact Or.inr (hothers (by simp) (front_of_step hstep (by simp) (by simp)))

end Scheduler

end TimedTasks
