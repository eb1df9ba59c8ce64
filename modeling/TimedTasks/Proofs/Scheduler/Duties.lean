import Mathlib.Algebra.BigOperators.Group.Multiset.Basic
import Mathlib.Tactic.Abel
import TimedTasks.Proofs.Queue.Backpressure
import TimedTasks.Proofs.Scheduler.Counters

/-!
# What there is to do

A scheduler has a number of duties at any time: the calls in progress, the tasks in the queue and
in the backlog, what the dispatcher and the workers are about, and the moves of the clock that
have not been announced (`Scheduler.duties`).  A move trades a few of them for others and has
nothing to do with the rest (`Trades`), so that whatever is added up over all duties changes by
what the few add up to (`Trades.weigh`).

Two things are added up.

* The `toil` of a duty is how many moves it takes at most before a task is taken from the queue
  again.
* The `prospects` of a duty are the tasks that it may bring to run, each with whether the run that
  its record is due for has still to be taken from the queue.

As long as the clock stands still and nothing new is scheduled, there are four kinds of trade
(`Exchange`).  Most moves lower the toil and add no prospects.  The dispatcher takes a task that is
due, which is the one way in which toil comes up; and a task is re-armed, which is the one way in
which a prospect comes back.  All other moves trade nothing.
-/

namespace TimedTasks

variable {α : Type}

/-- Whether an action is one that the scheduler and its callers take by themselves. -/
def Action.IsOwn : Action α → Prop
  | .announce | .proceed _ | .dispatch | .takeUp _ | .work _ => True
  | .request _ | .advance _ | .expire | .release _ | .observe _ => False

/-- Whether an action moves the clock, or schedules something. -/
def Action.Disturbs : Action α → Prop
  | .advance _ | .request (.schedule _ _) => True
  | .request (.cancel _) | .request (.shutdown _) | .proceed _ | .announce | .expire | .dispatch
  | .takeUp _ | .work _ | .release _ | .observe _ => False

theorem Action.IsOwn.not_disturbs {action : Action α} (hown : action.IsOwn) :
    ¬ action.Disturbs := by
  cases action with
  | request | advance => exact hown.elim
  | _ => exact id

/-! ## Duties -/

/-- What somebody has to do. -/
inductive Duty where
  | call (stage : Call)
  | queued (task : TaskId)
  | dispatcher (stage : Dispatcher)
  | backlog (task : TaskId)
  | inside (task : TaskId)
  | left (task : TaskId)
  | rearmed (task : TaskId)
  | refused (task : TaskId)
  | announcement

/-- A task that may come to run. -/
inductive Prospect where
  /-- The run that its record is due for has still to be taken from the queue. -/
  | ahead (task : TaskId)
  /-- That run has been taken, and only later ones are still to come. -/
  | taken (task : TaskId)

def Job.duty (job : Job α) : Duty :=
  match job.stage with
  | .inside _ => .inside job.task
  | .left _ => .left job.task
  | .rearmed => .rearmed job.task
  | .refused => .refused job.task

def Call.toil : Call → Nat
  | .inserting _ _ | .claiming => 3
  | .parked _ | .closing _ => 2
  | .removing _ => 1
  | .cancelling _ left _ => left.length + 1

def Dispatcher.toil : Dispatcher → Nat
  | .holding _ => 9
  | .seeking => 3
  | .winding => 2
  | .idle => 1
  | .gone | .broken => 0

/-- How many moves a duty takes at most, until the dispatcher takes another task. -/
def Duty.toil : Duty → Nat
  | .call stage => stage.toil
  | .queued _ | .refused _ | .announcement => 1
  | .dispatcher stage => stage.toil
  | .backlog _ => 5
  | .inside _ => 4
  | .left _ => 3
  | .rearmed _ => 2

/-- The tasks that a duty may bring to run. -/
def Duty.prospects : Duty → Multiset Prospect
  | .call stage => (stage.drafts.map Prospect.ahead : List Prospect)
  | .queued task | .rearmed task => {.ahead task}
  | .dispatcher stage => (stage.hand.map Prospect.taken : List Prospect)
  | .backlog task | .inside task | .left task => {.taken task}
  | .refused _ | .announcement => 0

namespace Scheduler

variable {origin before middle after : Scheduler α} {action : Action α} {task : TaskId}
variable {old new : Multiset Duty}

def duties (scheduler : Scheduler α) : Multiset Duty :=
  (scheduler.calls.map fun call => Duty.call call.2 : List Duty) +
    (scheduler.agenda.queue.tasks.map Duty.queued : List Duty) +
    {Duty.dispatcher scheduler.dispatcher} +
    (scheduler.backlog.map Duty.backlog : List Duty) +
    (scheduler.jobs.map Job.duty : List Duty) +
    Multiset.replicate scheduler.unannounced Duty.announcement

/-- What something comes to over all duties. -/
def weigh {M : Type} [AddCommMonoid M] (scheduler : Scheduler α) (weight : Duty → M) : M :=
  (scheduler.duties.map weight).sum

/-- Some duties are traded for others, and the rest stay. -/
def Trades (before after : Scheduler α) (old new : Multiset Duty) : Prop :=
  after.duties + old = before.duties + new

namespace Trades

theorem of_eq (hsame : after.duties = before.duties) : Trades before after 0 0 :=
  congrArg (· + 0) hsame

theorem congr (htrades : Trades before middle old new) (hsame : after.duties = middle.duties) :
    Trades before after old new :=
  (congrArg (· + old) hsame).trans htrades

theorem trans {more further : Multiset Duty}
    (hfirst : Trades before middle old new) (hsecond : Trades middle after more further) :
    Trades before after (old + more) (new + further) := by
  unfold Trades at *
  calc after.duties + (old + more)
      = after.duties + more + old := by abel
    _ = middle.duties + old + further := by rw [hsecond]; abel
    _ = before.duties + (new + further) := by rw [hfirst]; abel

/-- What is traded is all that makes a difference. -/
theorem weigh {M : Type} [AddCommMonoid M] (htrades : Trades before after old new)
    (weight : Duty → M) :
    after.weigh weight + (old.map weight).sum = before.weigh weight + (new.map weight).sum := by
  have hsum := congrArg (fun duties => (duties.map weight).sum) htrades
  simpa only [Scheduler.weigh, Multiset.map_add, Multiset.sum_add] using hsum

end Trades

/-! ## Trades of the parts -/

theorem trades_reply (hnumbered : before.Numbered) {call : CallId} {stage : Call}
    (hcall : (call, stage) ∈ before.calls) (answer : Answer) :
    Trades before (before.reply call answer) {.call stage} 0 := by
  have hperm := (perm_cons_filter_key_ne Prod.fst hnumbered.nodup hcall).map
    fun call => Duty.call call.2
  have hcalls := Multiset.coe_eq_coe.mpr hperm
  rw [List.map_cons, ← Multiset.cons_coe, ← Multiset.singleton_add] at hcalls
  simp only [Trades, duties, hcalls, reply]
  abel

theorem trades_goOn (hnumbered : before.Numbered) {call : CallId} {stage : Call}
    (hcall : (call, stage) ∈ before.calls) (next : Call) :
    Trades before (before.goOn call next) {.call stage} {.call next} := by
  have hperm := (perm_cons_filter_key_ne Prod.fst hnumbered.nodup hcall).map
    fun call => Duty.call call.2
  have hreplaced := (perm_map_replace hnumbered.nodup hcall (call, next)).map
    fun call => Duty.call call.2
  have hbefore := Multiset.coe_eq_coe.mpr hperm
  have hafter := Multiset.coe_eq_coe.mpr hreplaced
  rw [List.map_cons, ← Multiset.cons_coe, ← Multiset.singleton_add] at hbefore hafter
  simp only [Trades, duties, goOn, hbefore, hafter]
  abel

theorem trades_opened (before : Scheduler α) (call : CallId) (stage : Call) :
    Trades before (before.opened call stage) 0 {.call stage} := by
  simp only [Trades, duties, opened, List.map_append, List.map_cons, List.map_nil,
    ← Multiset.coe_add, Multiset.coe_singleton]
  abel

/-- Some tasks are pulled out of the queue, and others are let in. -/
theorem trades_withQueue {queue : Queue} (pulled pushed : List TaskId)
    (hperm : (pulled ++ queue.tasks).Perm (pushed ++ before.agenda.queue.tasks)) :
    Trades before (before.withQueue queue) (pulled.map Duty.queued : List Duty)
      (pushed.map Duty.queued : List Duty) := by
  have hqueued := Multiset.coe_eq_coe.mpr (hperm.map Duty.queued)
  simp only [List.map_append, ← Multiset.coe_add] at hqueued
  simp only [Trades, duties, withQueue]
  have hrest : ∀ calls queued pulled dispatcher backlog jobs moves : Multiset Duty,
      calls + queued + dispatcher + backlog + jobs + moves + pulled =
        calls + (pulled + queued) + dispatcher + backlog + jobs + moves := by
    intro calls queued pulled dispatcher backlog jobs moves
    abel
  rw [hrest, hrest, hqueued]

theorem trades_release (hstaffed : before.Staffed) {job : Job α} (hjob : job ∈ before.jobs) :
    Trades before (before.release job.worker) {job.duty} 0 := by
  have hjobs := Multiset.coe_eq_coe.mpr
    ((perm_cons_filter_key_ne Job.worker hstaffed hjob).map Job.duty)
  rw [List.map_cons, ← Multiset.cons_coe, ← Multiset.singleton_add] at hjobs
  simp only [Trades, duties, hjobs, release]
  abel

theorem trades_goOnWith (hstaffed : before.Staffed) {job : Job α} (hjob : job ∈ before.jobs)
    (stage : Stage α) :
    Trades before (before.goOnWith job stage) {job.duty} {Job.duty { job with stage }} := by
  have hbefore := Multiset.coe_eq_coe.mpr
    ((perm_cons_filter_key_ne Job.worker hstaffed hjob).map Job.duty)
  have hafter := Multiset.coe_eq_coe.mpr
    ((perm_map_replace hstaffed hjob { job with stage }).map Job.duty)
  rw [List.map_cons, ← Multiset.cons_coe, ← Multiset.singleton_add] at hbefore hafter
  simp only [Trades, duties, goOnWith, hbefore, hafter]
  abel

theorem trades_dispatcher (before : Scheduler α) (dispatcher : Dispatcher) :
    Trades before { before with dispatcher } {.dispatcher before.dispatcher}
      {.dispatcher dispatcher} := by
  simp only [Trades, duties]
  abel

theorem trades_announced (hmoved : before.unannounced ≠ 0)
    (hunannounced : after.unannounced = before.unannounced - 1)
    (hcalls : after.calls = before.calls)
    (htasks : after.agenda.queue.tasks = before.agenda.queue.tasks)
    (hdispatcher : after.dispatcher = before.dispatcher)
    (hbacklog : after.backlog = before.backlog) (hjobs : after.jobs = before.jobs) :
    Trades before after {.announcement} 0 := by
  obtain ⟨moves, hmoves⟩ := Nat.exists_eq_succ_of_ne_zero hmoved
  rw [hmoves] at hunannounced
  simp only [Trades, duties, hcalls, htasks, hdispatcher, hbacklog, hjobs, hunannounced, hmoves,
    Nat.succ_sub_one, Multiset.replicate_succ, ← Multiset.singleton_add]
  abel

theorem trades_backlog (before : Scheduler α) (task : TaskId) :
    Trades before { before with backlog := before.backlog ++ [task] } 0 {.backlog task} := by
  simp only [Trades, duties, List.map_append, List.map_cons, List.map_nil, ← Multiset.coe_add,
    Multiset.coe_singleton]
  abel

theorem trades_takeUp {position : Nat} (htask : before.backlog[position]? = some task)
    {job : Job α} (hagenda : after.agenda.queue = before.agenda.queue)
    (hbacklog : after.backlog = before.backlog.eraseIdx position)
    (hjobs : after.jobs = before.jobs ++ [job]) (hcalls : after.calls = before.calls)
    (hdispatcher : after.dispatcher = before.dispatcher)
    (hunannounced : after.unannounced = before.unannounced) :
    Trades before after {.backlog task} {job.duty} := by
  have htasks := Multiset.coe_eq_coe.mpr ((perm_cons_eraseIdx htask).map Duty.backlog)
  rw [List.map_cons, ← Multiset.cons_coe, ← Multiset.singleton_add] at htasks
  simp only [Trades, duties, hagenda, hbacklog, hjobs, hcalls, hdispatcher, hunannounced, htasks,
    List.map_append, List.map_cons, List.map_nil, ← Multiset.coe_add, Multiset.coe_singleton]
  abel

theorem trades_lostUnentered {position : Nat} (htask : before.backlog[position]? = some task)
    (lost : List LostRun) :
    Trades before { before with backlog := before.backlog.eraseIdx position, lost }
      {.backlog task} 0 := by
  have htasks := Multiset.coe_eq_coe.mpr ((perm_cons_eraseIdx htask).map Duty.backlog)
  rw [List.map_cons, ← Multiset.cons_coe, ← Multiset.singleton_add] at htasks
  simp only [Trades, duties, htasks]
  abel

/-! ## What a move trades -/

/-- How many producers are awake, and whether the dispatcher is. -/
def waking (scheduler : Scheduler α) : Nat :=
  scheduler.agenda.queue.producers.woken.length +
    if scheduler.dispatcher = .seeking ∧
      scheduler.agenda.queue.isAsleep dispatcherCaller = false then 1 else 0

/-- The clock stands still while an action is taken, and nothing new is scheduled. -/
structure Calm (scheduler : Scheduler α) (action : Action α) : Prop where
  unmoved : ∀ move, action ≠ .advance move
  nothingNew : ∀ now submission, ¬ scheduler.Submits action now submission
  timeless : ∀ worker turn, action = .work worker → scheduler.Plays worker turn →
    turn.advance? = none

theorem Calm.not_rouses {worker : Nat} (hcalm : origin.Calm (.work worker)) :
    ¬ origin.Rouses (.work worker) := by
  rintro ⟨turn, move, clock, hplays, hadvance, -⟩
  exact absurd ((hcalm.timeless worker turn rfl hplays).symm.trans hadvance) (by simp)

/-- What is traded while the clock stands still and nothing new is scheduled, and how many tasks
the dispatcher takes from the queue. -/
inductive Exchange (action : Action α) (before after : Scheduler α) :
    Multiset Duty → Multiset Duty → Nat → Prop
  | lowered {old new : Multiset Duty}
      (hprospects : (new.map Duty.prospects).sum ≤ (old.map Duty.prospects).sum)
      (htoil : (new.map Duty.toil).sum < (old.map Duty.toil).sum) :
      Exchange action before after old new 0
  /-- The dispatcher takes a task that is due. -/
  | taken {first : Entry} (hentry : first ∈ before.agenda.queue.entries)
      (hdue : first.key.due ≤ before.agenda.reading) :
      Exchange action before after ({.queued first.task} + {.dispatcher .seeking})
        {.dispatcher (.holding first.task)} 1
  | rearmed {task : TaskId} (hsettling : Settling before after task)
      (hpending : after.Has task fun record => record.state = .pending) :
      Exchange action before after {.left task} {.rearmed task} 0
  /-- Somebody who is awake falls asleep. -/
  | rested (hwaking : after.waking < before.waking) : Exchange action before after 0 0 0
  /-- A body does something on the side, or it is not for the scheduler to do. -/
  | aside (hown : action.IsOwn → (∃ worker, action = .work worker) ∧ after.jobs = before.jobs ∧
      after.waking ≤ before.waking) :
      Exchange action before after 0 0 0
  | asked {stage : Call} (hdrafts : stage.drafts = []) (hasked : ∃ asked, action = .request asked) :
      Exchange action before after 0 {.call stage} 0

/-- A move makes an exchange. -/
def Exchanges (action : Action α) (before after : Scheduler α) : Prop :=
  ∃ old new taken, Exchange action before after old new taken ∧ Trades before after old new ∧
    after.handled = before.handled + taken

theorem exchanges_of_trades (htrades : Trades before after old new)
    (hprospects : (new.map Duty.prospects).sum ≤ (old.map Duty.prospects).sum)
    (htoil : (new.map Duty.toil).sum < (old.map Duty.toil).sum)
    (hhandled : after.handled = before.handled) : Exchanges action before after :=
  ⟨old, new, 0, .lowered hprospects htoil, htrades, hhandled⟩

theorem exchanges_reply (hnumbered : before.Numbered) {call : CallId} {stage : Call}
    (hcall : (call, stage) ∈ before.calls) (answer : Answer)
    (hduties : after.duties = (before.reply call answer).duties)
    (hhandled : after.handled = before.handled) : Exchanges action before after := by
  have htrades := (trades_reply hnumbered hcall answer).congr hduties
  refine exchanges_of_trades htrades (Multiset.zero_le _) ?_ hhandled
  simp only [Multiset.map_zero, Multiset.sum_zero, Multiset.map_singleton, Multiset.sum_singleton]
  cases stage <;> simp [Duty.toil, Call.toil]

theorem exchanges_goOn (hnumbered : before.Numbered) {call : CallId} {stage next : Call}
    (hcall : (call, stage) ∈ before.calls)
    (hduties : after.duties = (before.goOn call next).duties)
    (hdrafts : next.drafts = stage.drafts) (htoil : next.toil < stage.toil)
    (hhandled : after.handled = before.handled) : Exchanges action before after := by
  have htrades := (trades_goOn hnumbered hcall next).congr hduties
  refine exchanges_of_trades htrades ?_ ?_ hhandled
  · simp [Duty.prospects, hdrafts]
  · simpa [Duty.toil] using htoil

/-- A task that a call has brought is let into the queue. -/
theorem exchanges_admitted (hnumbered : before.Numbered) {call : CallId} {stage : Call}
    (hcall : (call, stage) ∈ before.calls) (hdrafts : stage.drafts = [task]) {queue : Queue}
    (hqueue : queue.tasks.Perm (task :: before.agenda.queue.tasks)) (answer : Answer) :
    Exchanges action before (((before.withQueue queue).accept task).reply call answer) := by
  have hpushed : Trades before ((before.withQueue queue).accept task) 0 {.queued task} :=
    trades_withQueue [] [task] hqueue
  have haccepted : ((before.withQueue queue).accept task).Numbered :=
    ⟨hnumbered.nodup, hnumbered.lt_next⟩
  refine exchanges_of_trades (hpushed.trans (trades_reply haccepted hcall answer)) ?_ ?_ rfl
  · simp [Duty.prospects, hdrafts]
  · cases stage <;> simp_all [Duty.toil, Call.toil, Call.drafts]

theorem exchanges_release (hstaffed : before.Staffed) {job : Job α} (hjob : job ∈ before.jobs)
    (hduties : after.duties = (before.release job.worker).duties)
    (hhandled : after.handled = before.handled) : Exchanges action before after := by
  have htrades := (trades_release hstaffed hjob).congr hduties
  refine exchanges_of_trades htrades (Multiset.zero_le _) ?_ hhandled
  simp only [Multiset.map_zero, Multiset.sum_zero, Multiset.map_singleton, Multiset.sum_singleton]
  unfold Job.duty
  split <;> simp [Duty.toil]

theorem exchanges_goOnWith (hstaffed : before.Staffed) {job : Job α} (hjob : job ∈ before.jobs)
    {stage : Stage α} (hduties : after.duties = (before.goOnWith job stage).duties)
    (hprospects : (Job.duty { job with stage }).prospects ≤ job.duty.prospects)
    (htoil : (Job.duty { job with stage }).toil < job.duty.toil)
    (hhandled : after.handled = before.handled) : Exchanges action before after := by
  have htrades := (trades_goOnWith hstaffed hjob stage).congr hduties
  refine exchanges_of_trades htrades ?_ ?_ hhandled
  · simpa using hprospects
  · simpa using htoil

/-- A task that has been re-armed goes back into the queue. -/
theorem exchanges_requeued (hstaffed : before.Staffed) {job : Job α} (hjob : job ∈ before.jobs)
    (hstage : job.stage = .rearmed) {queue : Queue}
    (hqueue : queue.tasks.Perm (job.task :: before.agenda.queue.tasks)) :
    Exchanges action before ((before.withQueue queue).release job.worker) := by
  have hpushed : Trades before (before.withQueue queue) 0 {.queued job.task} :=
    trades_withQueue [] [job.task] hqueue
  have hsame : (before.withQueue queue).Staffed := hstaffed
  have hduty : job.duty = .rearmed job.task := by rw [Job.duty, hstage]
  refine exchanges_of_trades (hpushed.trans (trades_release hsame hjob)) ?_ ?_ rfl
  · simp [hduty, Duty.prospects]
  · simp [hduty, Duty.toil]

/-- A task is pulled out of the queue, if it is there. -/
theorem exists_pulled (hsound : before.Sound) (task : TaskId) :
    ∃ pulled : List TaskId,
      (pulled ++ (before.agenda.queue.apply (.remove task)).tasks).Perm before.agenda.queue.tasks ∧
      (pulled = [] → before.agenda.queue.apply (.remove task) = before.agenda.queue) := by
  by_cases hqueued : task ∈ before.agenda.queue.tasks
  · refine ⟨[task], ?_, fun hnil => absurd hnil (List.cons_ne_nil _ _)⟩
    rw [hsound.queue.wellFormed.tasks_remove task]
    have hnodup := hsound.queue.wellFormed.tasks_nodup
    exact (perm_cons_filter_key_ne id (by simpa using hnodup) hqueued).symm
  · have hsame : before.agenda.queue.apply (.remove task) = before.agenda.queue := by
      have hlookup := hsound.queue.wellFormed.lookup_eq_none hqueued
      simp [Queue.apply, Queue.remove, hlookup]
    exact ⟨[], by rw [hsame]; exact List.Perm.refl _, fun _ => hsame⟩

theorem toil_queued (tasks : List TaskId) :
    (((tasks.map Duty.queued : List Duty) : Multiset Duty).map Duty.toil).sum = tasks.length := by
  induction tasks with
  | nil => rfl
  | cons task rest ih => simp_all [Duty.toil, Nat.add_comm]

/-- What a call has pulled out of the queue goes when it is answered. -/
theorem exchanges_removed (hsound : before.Sound) {call : CallId}
    (hcall : (call, .removing task) ∈ before.calls) (answer : Answer) :
    Exchanges action before
      ((before.withQueue (before.agenda.queue.apply (.remove task))).reply call answer) := by
  obtain ⟨pulled, hperm, -⟩ := exists_pulled hsound task
  have hpulled := trades_withQueue pulled [] hperm
  have hnumbered : (before.withQueue (before.agenda.queue.apply (.remove task))).Numbered :=
    ⟨hsound.numbered.nodup, hsound.numbered.lt_next⟩
  refine exchanges_of_trades (hpulled.trans (trades_reply hnumbered hcall answer))
    (Multiset.zero_le _) ?_ rfl
  rw [Multiset.map_add, Multiset.sum_add, Multiset.map_add, Multiset.sum_add, toil_queued,
    toil_queued]
  simp [Duty.toil, Call.toil]

/-- What a shutdown sweeps out of the queue is then to be cancelled. -/
theorem exchanges_closed (hnumbered : before.Numbered) {call : CallId} {drain : Bool}
    (hcall : (call, .closing drain) ∈ before.calls) :
    Exchanges action before ((before.withQueue (before.agenda.queue.close drain).1).goOn call
      (.cancelling drain ((before.agenda.queue.close drain).2.map (·.task)) [])) := by
  have hperm := List.perm_append_comm.trans (tasks_close_perm before.agenda.queue drain)
  have hswept := trades_withQueue ((before.agenda.queue.close drain).2.map (·.task)) [] hperm
  have hsame : (before.withQueue (before.agenda.queue.close drain).1).Numbered :=
    ⟨hnumbered.nodup, hnumbered.lt_next⟩
  refine exchanges_of_trades (hswept.trans (trades_goOn hsame hcall _)) ?_ ?_ rfl
  · exact le_of_eq_of_le (by simp [Duty.prospects, Call.drafts]) (Multiset.zero_le _)
  · rw [Multiset.map_add, Multiset.sum_add, Multiset.map_add, Multiset.sum_add, toil_queued,
      toil_queued]
    simp only [Multiset.map_singleton, Multiset.sum_singleton, Duty.toil, Call.toil,
      List.length_map, List.length_nil]
    omega

/-- The dispatcher goes on, and has less to do than before. -/
theorem exchanges_dispatcher (before : Scheduler α) (dispatcher : Dispatcher)
    (hhand : dispatcher.hand = []) (htoil : dispatcher.toil < before.dispatcher.toil)
    (hduties : after.duties = duties { before with dispatcher })
    (hhandled : after.handled = before.handled) : Exchanges action before after := by
  have htrades : Trades before after {.dispatcher before.dispatcher} {.dispatcher dispatcher} :=
    (congrArg (· + _) hduties).trans (trades_dispatcher before dispatcher)
  refine exchanges_of_trades htrades ?_ ?_ hhandled
  · exact le_of_eq_of_le (by simp [Duty.prospects, hhand]) (Multiset.zero_le _)
  · simpa [Duty.toil] using htoil

/-- A producer that falls asleep again has the same to do as before. -/
theorem exchanges_parkedAgain (hsound : before.Sound) {call : CallId} {producer : Producer}
    (hcall : (call, .parked task) ∈ before.calls)
    (hwoken : producer ∈ before.agenda.queue.producers.woken) :
    Exchanges action before
      ((before.withQueue
        { before.agenda.queue.risen producer with
          producers := (before.agenda.queue.risen producer).producers.park producer }).goOn
        call (.parked task)) := by
  have hlength := hsound.queue.counted.length_woken_risen hwoken
  have htrades := trades_goOn hsound.numbered hcall (.parked task)
  refine ⟨0, 0, 0, .rested ?_, .of_eq (add_right_cancel htrades), rfl⟩
  show (before.agenda.queue.risen producer).producers.woken.length + _ < _
  rw [waking, ← hlength]
  exact Nat.add_lt_add_right (Nat.lt_succ_self _) _

/-- The dispatcher falls asleep. -/
theorem exchanges_slept (hdispatcher : before.dispatcher = .seeking)
    (hawake : before.agenda.queue.isAsleep dispatcherCaller = false)
    (hasleep : after.agenda.queue.isAsleep dispatcherCaller = true)
    (hproducers : after.agenda.queue.producers = before.agenda.queue.producers)
    (hduties : after.duties = before.duties) (hhandled : after.handled = before.handled) :
    Exchanges action before after := by
  have hafter : after.waking = before.agenda.queue.producers.woken.length := by
    rw [waking, hasleep, hproducers]
    simp
  have hbefore : before.waking = before.agenda.queue.producers.woken.length + 1 := by
    rw [waking, if_pos ⟨hdispatcher, hawake⟩]
  exact ⟨0, 0, 0, .rested (by omega), .of_eq hduties, hhandled⟩

/-- The dispatcher takes the first task from the queue. -/
theorem exchanges_took {queue : Queue} {first : Entry}
    (hdispatcher : before.dispatcher = .seeking)
    (hentry : first ∈ before.agenda.queue.entries) (hdue : first.key.due ≤ before.agenda.reading)
    (htasks : before.agenda.queue.tasks = first.task :: queue.tasks) :
    Exchanges action before { before.withQueue queue with dispatcher := .holding first.task } := by
  have hpulled : Trades before (before.withQueue queue) {.queued first.task} 0 :=
    trades_withQueue [first.task] [] (htasks ▸ List.Perm.refl _)
  have htrades := hpulled.trans (trades_dispatcher _ (.holding first.task))
  rw [zero_add, show (before.withQueue queue).dispatcher = .seeking from hdispatcher] at htrades
  refine ⟨_, _, 1, .taken hentry hdue, htrades, ?_⟩
  simp [handled, hdispatcher, Dispatcher.hand, withQueue]

/-- The dispatcher hands a task over. -/
theorem exchanges_started {agenda : Agenda α} (hdispatcher : before.dispatcher = .holding task)
    (hqueue : agenda.queue = before.agenda.queue)
    (hmetrics : agenda.metrics =
      { before.agenda.metrics with dispatched := before.agenda.metrics.dispatched + 1 }) :
    Exchanges action before
      { before with agenda, backlog := before.backlog ++ [task], dispatcher := .seeking } := by
  have hhanded := (trades_dispatcher before .seeking).trans (trades_backlog _ task)
  have htrades : Trades before
      { before with agenda, backlog := before.backlog ++ [task], dispatcher := .seeking }
      ({.dispatcher before.dispatcher} + 0) ({.dispatcher .seeking} + {.backlog task}) := by
    refine hhanded.congr ?_
    simp only [duties, hqueue]
  rw [hdispatcher] at htrades
  refine exchanges_of_trades htrades ?_ ?_ ?_
  · simp [Duty.prospects, Dispatcher.hand]
  · simp [Duty.toil, Dispatcher.toil]
  · simp only [handled, hdispatcher, hmetrics, Dispatcher.hand, List.length_cons, List.length_nil]
    omega

/-- A run that has been settled is counted, and the job goes on or is done. -/
theorem exchanges_rearmed (hsound : before.Sound) {job : Job α} {error? : Option TaskError}
    {agenda : Agenda α} (hjob : job ∈ before.jobs) (hstage : job.stage = .left error?)
    (hsettle : before.agenda.settle job before.agenda.reading error? = (agenda, true))
    (hhandled : (Scheduler.goOnWith { before with agenda } job .rearmed).handled =
      before.handled) :
    Exchanges action before (Scheduler.goOnWith { before with agenda } job .rearmed) := by
  have hplace : job.place = .running := by rw [Job.place, hstage]
  have hduty : job.duty = .left job.task := by rw [Job.duty, hstage]
  obtain ⟨record, hrecord⟩ :=
    (hsound.custody.fitsAt_of_mem (hplace ▸ mem_tasksAt_place hjob)).exists_record
  obtain ⟨settled, hsettles⟩ := Agenda.settles_settle hrecord hsettle
  obtain ⟨-, hpending, -⟩ := hsettles.rearmed rfl
  have htrades := trades_goOnWith hsound.staffed hjob (.rearmed : Stage α)
  rw [hduty] at htrades
  refine ⟨_, _, 0, .rearmed ?_ ⟨settled, ?_, hpending⟩, htrades.congr ?_, hhandled⟩
  · exact settling_of_settle hsound.custody hsound.staffed hjob hstage hsettle rfl
      (hsound.staffed.inProgress_rearmed hjob job.task)
  · exact (hsettles.records_eq job.task).trans (if_pos rfl)
  · simp only [duties, goOnWith, Agenda.settle_queue hsettle]

theorem exchanges_pulled (hsound : before.Sound) (task : TaskId)
    (hbody : ∃ worker, action = .work worker) :
    Exchanges action before (before.withQueue (before.agenda.queue.apply (.remove task))) := by
  obtain ⟨pulled, hperm, hnothing⟩ := exists_pulled hsound task
  by_cases hnil : pulled = []
  · rw [hnothing hnil]
    exact ⟨0, 0, 0, .aside fun _ => ⟨hbody, rfl, Nat.le_refl _⟩, .of_eq rfl, rfl⟩
  · refine exchanges_of_trades (trades_withQueue pulled [] hperm) (Multiset.zero_le _) ?_ rfl
    rw [toil_queued, toil_queued]
    exact List.length_pos_of_ne_nil hnil

theorem Move.exchanges (hmove : Move origin action before after) (hsound : before.Sound)
    (hcalm : origin.Calm action) : Exchanges action before after := by
  have hnumbered := hsound.numbered
  have hstaffed := hsound.staffed
  have hhandled := hmove.handled_eq hsound
  -- Nothing is traded by bodies on the side, nor by what the scheduler does not do by itself.
  have haside : ∀ {after : Scheduler α}, (action.IsOwn → (∃ worker, action = .work worker) ∧
      after.jobs = before.jobs ∧ after.waking ≤ before.waking) →
      after.duties = before.duties → after.handled = before.handled →
      Exchanges action before after := fun hown hduties hhandled =>
    ⟨0, 0, 0, .aside hown, .of_eq hduties, hhandled⟩
  cases hmove with
  | refused answer hanswer hasked =>
      obtain ⟨asked, rfl⟩ := hasked
      refine haside (fun hown => hown.elim) ?_ rfl
      have hsame : (before.numbered.reply before.nextCall answer).calls = before.calls :=
        hnumbered.otherCalls_next
      simp only [duties, hsame]
      rfl
  | drafted patient hdue hcause | submittedInVain hdue hcause | submitted hdue _ _ hcause =>
      exact absurd hcause (hcalm.nothingNew _ _)
  | cancelBegun _ hrecord _ _ hasked =>
      exact ⟨0, _, 0, .asked rfl hasked, trades_opened _ _ _, rfl⟩
  | @shutdownBegun drain _ _ hasked =>
      refine ⟨0, _, 0, .asked ?_ ⟨_, hasked⟩, trades_opened _ _ _, rfl⟩
      cases drain <;> rfl
  | turnedAway hcall | claimRefused hcall | resumedRefused hcall =>
      exact exchanges_reply hnumbered hcall (.scheduled (.error .closed)) rfl rfl
  | @sweepDone call drain done metrics hcall hmetrics =>
      obtain ⟨abandoned, rfl⟩ := hmetrics
      exact exchanges_reply hnumbered hcall (.shutDown (.ok done)) rfl rfl
  | admitted hcall =>
      exact exchanges_admitted hnumbered hcall rfl (Queue.tasks_push _ _ _ _) _
  | @resumedAdmitted call task producer hcall hcaller hwoken =>
      refine exchanges_admitted hnumbered hcall rfl ?_ _
      rw [← hsound.task_eq hcall hcaller (List.mem_append_right _ hwoken)]
      exact Queue.tasks_push _ _ _ _
  | parked hcall | claimed hcall | swept hcall | passedOver hcall =>
      exact exchanges_goOn hnumbered hcall rfl rfl (Nat.lt_succ_self _) rfl
  | parkedAgain hcall _ hwoken => exact exchanges_parkedAgain hsound hcall hwoken
  | removed hcall => exact exchanges_removed hsound hcall _
  | closed hcall => exact exchanges_closed hnumbered hcall
  | @clockMoved move _ _ hasked => exact absurd hasked (hcalm.unmoved move)
  | announced _ hmoved =>
      exact exchanges_of_trades (trades_announced hmoved.2 rfl rfl rfl rfl rfl rfl)
        (Multiset.zero_le _) (by simp [Duty.toil]) rfl
  | expired _ hexpires =>
      subst hexpires
      exact haside (fun hown => hown.elim) rfl rfl
  | took hdispatcher _ _ hentries hdue =>
      refine exchanges_took hdispatcher (hentries ▸ List.mem_cons_self ..) hdue ?_
      rw [Queue.tasks, hentries, List.map_cons]
      rfl
  | slept hdispatcher hawake =>
      refine exchanges_slept hdispatcher hawake ?_ rfl rfl rfl
      simp [withQueue, Queue.isAsleep, Parking.park]
  | ceased hdispatcher =>
      exact exchanges_dispatcher before .winding rfl (by simp [hdispatcher, Dispatcher.toil]) rfl
        (by simp [handled, hdispatcher, Dispatcher.hand, withQueue])
  | started metrics hdispatcher hrecord _ _ hmetrics =>
      exact exchanges_started hdispatcher rfl hmetrics
  | discarded metrics hdispatcher _ _ hmetrics =>
      refine exchanges_dispatcher before .seeking rfl (by simp [hdispatcher, Dispatcher.toil]) rfl
        ?_
      simp only [handled, hdispatcher, Dispatcher.hand, hmetrics, List.length_cons,
        List.length_nil]
      omega
  | broke hdispatcher =>
      exact exchanges_dispatcher before .broken rfl (by simp [hdispatcher, Dispatcher.toil]) rfl
        (by simp [handled, hdispatcher, Dispatcher.hand])
  | lostUnentered htask =>
      exact exchanges_of_trades (trades_lostUnentered htask _) (Multiset.zero_le _)
        (by simp [Duty.toil]) rfl
  | idled hdispatcher =>
      exact exchanges_dispatcher before .idle rfl (by simp [hdispatcher, Dispatcher.toil]) rfl
        (by simp [handled, hdispatcher, Dispatcher.hand])
  | stopped hdispatcher =>
      exact exchanges_dispatcher before .gone rfl (by simp [hdispatcher, Dispatcher.toil]) rfl
        (by simp [handled, hdispatcher, Dispatcher.hand])
  | @tookUp position task worker htask hworker hcause =>
      subst hcause
      obtain ⟨turn?, henter⟩ := before.agenda.enter_snd task worker before.agenda.reading
      have hduty : (before.agenda.enter task worker before.agenda.reading).2.duty =
          .inside task := by
        rw [henter]
        rfl
      refine exchanges_of_trades
        (trades_takeUp htask (Agenda.enter_queue ..) rfl rfl rfl rfl rfl) ?_ ?_ (hhandled (by simp))
      · simp [hduty, Duty.prospects]
      · simp [hduty, Duty.toil]
  | skipped hjob hstage | ended _ hjob hstage =>
      exact exchanges_goOnWith hstaffed hjob rfl (by simp [Job.duty, hstage, Duty.prospects])
        (by simp [Job.duty, hstage, Duty.toil]) rfl
  | settled hjob hstage hsettle hcause =>
      obtain ⟨worker, -, -, rfl, -⟩ := exists_job_of_completes hcause.2
      refine exchanges_release hstaffed hjob ?_ (hhandled (by simp))
      simp only [duties, release, Agenda.settle_queue hsettle]
  | rearmed hjob hstage hsettle hcause =>
      obtain ⟨worker, -, -, rfl, -⟩ := exists_job_of_completes hcause.2
      exact exchanges_rearmed hsound hjob hstage hsettle (hhandled (by simp))
  | requeued hjob hstage =>
      exact exchanges_requeued hstaffed hjob hstage (Queue.tasks_push _ _ _ _)
  | requeueRefused hjob hstage =>
      exact exchanges_goOnWith hstaffed hjob rfl (by simp [Job.duty, hstage, Duty.prospects])
        (by simp [Job.duty, hstage, Duty.toil]) rfl
  | dropped hjob | letGo hjob | lostUncounted hjob => exact exchanges_release hstaffed hjob rfl rfl
  | timePassed hclock hcause hbody =>
      obtain ⟨worker, rfl⟩ := hbody
      exact absurd hcause hcalm.not_rouses
  | @cancelledInBody task record hcause =>
      refine haside (fun hown => ?_) rfl rfl
      cases action with
      | work worker => exact ⟨⟨worker, rfl⟩, rfl, Nat.le_refl _⟩
      | request => exact hown.elim
      | _ => exact hcause.elim
  | pulledInBody _ _ _ hbody => exact exchanges_pulled hsound _ hbody
  | noted name result hbody =>
      exact haside (fun _ => ⟨hbody, rfl, Nat.le_refl _⟩) rfl rfl
  | gateOpened gate hasked | observed observer hasked =>
      subst hasked
      exact haside (fun hown => hown.elim) rfl rfl

end Scheduler

end TimedTasks
