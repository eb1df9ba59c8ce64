import TimedTasks.Proofs.Queue.Draining
import TimedTasks.Proofs.Scheduler.Standing

/-!
# The invariant of a scheduler

`Scheduler.Sound` is what every move keeps (`Move.sound`), and so what holds of every
reachable state.  Besides custody it says that the calls that wait for room are those that
wait in the queue (`Matched`), that a task is pulled out only after it has been cancelled
(`Revoked`), that the queue knows which of its tasks are periodic (`Flagged`), and that the
queue itself is sound.  As long as the clock can be read, nobody has panicked (`Intact`).
-/

namespace TimedTasks

/-- The task with which a call waits for room. -/
def Call.waits (call : CallId) : Call → List (CallId × TaskId)
  | .parked task => [(call, task)]
  | _ => []

namespace Scheduler

variable {α : Type} {origin before after : Scheduler α} {action : Action α} {task : TaskId}

/-- The producers that wait in the queue are the calls that are parked. -/
def Matched (scheduler : Scheduler α) : Prop :=
  (scheduler.agenda.queue.producers.everyone.map fun producer =>
    (producer.caller, producer.task)).Perm
      (scheduler.calls.flatMap fun call => call.2.waits call.1)

/-- A call pulls a task out only after it has cancelled the task. -/
def Revoked (scheduler : Scheduler α) : Prop :=
  ∀ call task, (call, Call.removing task) ∈ scheduler.calls →
    scheduler.Has task fun record => record.state = .cancelled

/-- The queue knows which tasks are periodic. -/
structure Flagged (scheduler : Scheduler α) : Prop where
  entry_eq : ∀ entry ∈ scheduler.agenda.queue.entries,
    entry.periodic = scheduler.agenda.periodicOf entry.task
  producer_eq : ∀ producer ∈ scheduler.agenda.queue.producers.everyone,
    producer.periodic = scheduler.agenda.periodicOf producer.task

/-- While the clock can be read, no run has been lost and the dispatcher goes on. -/
def Intact (scheduler : Scheduler α) : Prop :=
  scheduler.agenda.clock.isReadable = true →
    scheduler.lost = [] ∧ scheduler.dispatcher ≠ .broken

/-- What holds of every reachable state. -/
structure Sound (scheduler : Scheduler α) : Prop where
  numbered : scheduler.Numbered
  staffed : scheduler.Staffed
  custody : scheduler.Custody
  matched : scheduler.Matched
  revoked : scheduler.Revoked
  flagged : scheduler.Flagged
  queue : Queue.Sound dispatcherCaller scheduler.agenda.queue
  intact : scheduler.Intact

/-- A producer that waits in the queue belongs to a call that is parked. -/
theorem Sound.parked_mem (hsound : before.Sound) {producer : Producer}
    (hproducer : producer ∈ before.agenda.queue.producers.everyone) :
    (producer.caller, .parked producer.task) ∈ before.calls := by
  have hmem : (producer.caller, producer.task) ∈
      before.calls.flatMap fun call => call.2.waits call.1 :=
    hsound.matched.mem_iff.mp (List.mem_map_of_mem hproducer)
  obtain ⟨⟨call, stage⟩, hcall, hwaits⟩ := List.mem_flatMap.mp hmem
  cases stage with
  | parked waiting =>
      dsimp only at hwaits
      rw [Call.waits, List.mem_singleton, Prod.mk.injEq] at hwaits
      rw [hwaits.1, hwaits.2]
      exact hcall
  | _ => exact absurd hwaits List.not_mem_nil

theorem Sound.task_eq (hsound : before.Sound) {call : CallId} {producer : Producer}
    (hcall : (call, .parked task) ∈ before.calls) (hcaller : producer.caller = call)
    (hproducer : producer ∈ before.agenda.queue.producers.everyone) : producer.task = task := by
  subst hcaller
  exact Call.parked.inj (hsound.numbered.eq_of_mem hcall (hsound.parked_mem hproducer))

/-! ## Custody -/

theorem Custody.size_not_accepted (hcustody : before.Custody) :
    before.agenda.records.size ∉ before.accepted := by
  intro haccepted
  obtain ⟨record, hrecord⟩ := hcustody.exists_record_of_accepted haccepted
  exact absurd (before.record?_size.symm.trans hrecord) (by simp)

theorem custody_drafted (hcustody : before.Custody) (submission : Submission α) (due : Moment) :
    (before.draft submission due).1.Custody := by
  have htransfer : Transfer before (before.draft submission due).1 before.agenda.records.size
      none none :=
    ⟨fun _ => List.Perm.refl _, fun other hother => (record?_draft ..).trans (if_neg hother),
      fun _ _ => Iff.rfl⟩
  refine htransfer.custody (hcustody.located_none before.record?_size) (fun _ haccepted => ?_)
    hcustody
  exact absurd haccepted hcustody.size_not_accepted

/-- A new task is with the call that brings it. -/
theorem custody_inserting (hcustody : before.Custody) (submission : Submission α) (due : Moment)
    (patient : Bool) (call : CallId) :
    ((before.draft submission due).1.opened call
      (.inserting before.agenda.records.size patient)).Custody := by
  have htransfer : Transfer before
      ((before.draft submission due).1.opened call (.inserting before.agenda.records.size patient))
      before.agenda.records.size none (some .drafted) := by
    refine ⟨fun place => ?_, fun other hother => (record?_draft ..).trans (if_neg hother),
      fun _ _ => Iff.rfl⟩
    cases place with
    | drafted =>
        show ((before.calls ++ [_]).flatMap _).Perm ([_] ++ before.calls.flatMap _)
        rw [List.flatMap_append]
        exact List.perm_append_comm
    | swept =>
        show ((before.calls ++ [_]).flatMap _).Perm (before.calls.flatMap _)
        rw [List.flatMap_append]
        exact List.Perm.of_eq (List.append_nil _)
    | _ => exact List.Perm.refl _
  refine htransfer.custody (hcustody.located_none before.record?_size) (fun _ => ?_) hcustody
  exact ⟨hcustody.size_not_accepted, _, (record?_draft ..).trans (if_pos rfl), Or.inl rfl,
    fun _ => ⟨rfl, rfl⟩⟩

/-- A new task is let in at once. -/
theorem custody_submitted (hcustody : before.Custody) (submission : Submission α) (due : Moment)
    {queue : Queue}
    (hqueue : queue.tasks.Perm (before.agenda.records.size :: before.agenda.queue.tasks)) :
    (((before.draft submission due).1.withQueue queue).accept
      before.agenda.records.size).Custody := by
  have htransfer : Transfer before
      (((before.draft submission due).1.withQueue queue).accept before.agenda.records.size)
      before.agenda.records.size none (some .queued) := by
    refine ⟨fun place => ?_, fun other hother => (record?_draft ..).trans (if_neg hother),
      fun other hother => List.mem_cons.trans (or_iff_right hother)⟩
    cases place with
    | queued => exact hqueue
    | _ => exact List.Perm.refl _
  refine htransfer.custody (hcustody.located_none before.record?_size) (fun _ => ?_) hcustody
  exact ⟨List.mem_cons_self .., _, (record?_draft ..).trans (if_pos rfl), Or.inl rfl,
    fun _ => ⟨rfl, rfl⟩⟩

theorem custody_cancelled (hcustody : before.Custody) {record : Record α}
    (hrecord : before.record? task = some record) :
    (before.withRecord task { record with state := .cancelled }).Custody := by
  have hafter := record?_withRecord hrecord { record with state := .cancelled }
  have htransfer : Transfer before (before.withRecord task { record with state := .cancelled })
      task none none :=
    ⟨fun _ => List.Perm.refl _, fun other hother => (hafter other).trans (if_neg hother),
      fun _ _ => Iff.rfl⟩
  refine htransfer.custody_of_stays (fun _ hfits => ?_) hcustody
  exact hfits.cancelled hrecord ((hafter task).trans (if_pos rfl)) Iff.rfl

/-- Nothing but the clock, the counters and the like has changed. -/
theorem Custody.of_aside (hcustody : before.Custody) (hcalls : after.calls = before.calls)
    (htasks : after.agenda.queue.tasks = before.agenda.queue.tasks)
    (hhand : after.dispatcher.hand = before.dispatcher.hand)
    (hbacklog : after.backlog = before.backlog) (hjobs : after.jobs = before.jobs)
    (hlost : after.lost = before.lost)
    (hrecords : after.agenda.records = before.agenda.records)
    (haccepted : after.accepted = before.accepted) : after.Custody := by
  refine hcustody.of_same (fun place => List.Perm.of_eq ?_) hrecords haccepted
  cases place with
  | drafted | swept => exact congrArg (List.flatMap _) hcalls
  | queued => exact htasks
  | held => exact hhand
  | backlog => exact hbacklog
  | running | returning => exact congrArg (List.flatMap _) hjobs
  | lost => exact congrArg (List.map _) hlost

theorem Move.custody (hmove : Move origin action before after) (hsound : before.Sound) :
    after.Custody := by
  have hcustody := hsound.custody
  have hnumbered := hsound.numbered
  have hstaffed := hsound.staffed
  cases hmove with
  | refused => exact hcustody.of_aside hnumbered.otherCalls_next rfl rfl rfl rfl rfl rfl rfl
  | @drafted submission due patient =>
      exact (custody_inserting hcustody submission due patient before.nextCall).of_aside
        rfl rfl rfl rfl rfl rfl rfl rfl
  | @cancelBegun task record _ hrecord =>
      exact (custody_opened (custody_cancelled hcustody hrecord) before.nextCall _ rfl rfl).of_aside
        rfl rfl rfl rfl rfl rfl rfl rfl
  | @shutdownBegun drain =>
      have hopened := custody_opened hcustody before.nextCall
        (if drain then .closing true else .claiming) (by cases drain <;> rfl)
        (by cases drain <;> rfl)
      exact hopened.of_aside rfl rfl rfl rfl rfl rfl rfl rfl
  | turnedAway hcall => exact custody_turnedAway hcustody hnumbered hcall rfl rfl _
  | admitted hcall =>
      exact custody_admitted hcustody hnumbered hcall rfl rfl (Queue.tasks_push _ _ _ _) _
  | parked hcall | parkedAgain hcall =>
      exact (custody_goOn hcustody hnumbered hcall (.parked _) rfl rfl).of_aside
        rfl rfl rfl rfl rfl rfl rfl rfl
  | resumedRefused hcall =>
      exact (custody_turnedAway hcustody hnumbered hcall rfl rfl
        (.scheduled (.error .closed))).of_aside rfl rfl rfl rfl rfl rfl rfl rfl
  | @resumedAdmitted call task producer hcall hcaller hwoken =>
      -- What is pushed is the task of the producer, which is that of the call.
      refine custody_admitted hcustody hnumbered hcall rfl rfl ?_ _
      rw [← hsound.task_eq hcall hcaller (List.mem_append_right _ hwoken)]
      exact Queue.tasks_push _ _ _ _
  | @removed call task hcall =>
      have hremoved := custody_remove hcustody hsound.queue.wellFormed (hsound.revoked _ _ hcall)
      exact custody_reply hremoved ⟨hnumbered.nodup, hnumbered.lt_next⟩ hcall rfl rfl _
  | claimRefused hcall => exact custody_reply hcustody hnumbered hcall rfl rfl _
  | claimed hcall =>
      exact (custody_goOn hcustody hnumbered hcall (.closing false) rfl rfl).of_aside
        rfl rfl rfl rfl rfl rfl rfl rfl
  | closed hcall => exact custody_close hcustody hnumbered hcall
  | @swept call drain task left done record hcall hrecord =>
      refine custody_swept hcustody hnumbered hcall (fun _ => rfl) (fun other hother => ?_) rfl
        fun _ => ?_
      · exact (record?_withRecord hrecord _ other).trans (if_neg hother)
      · exact fitsAt_none_of_cancelled (has_withRecord hrecord rfl)
  | @passedOver call drain task left done hcall hdead =>
      refine custody_swept hcustody hnumbered hcall (fun _ => rfl) (fun _ _ => rfl) rfl
        fun hfits => ?_
      exact fitsAt_none_of_idle hfits.2 fun record hrecord =>
        state_ne_pending_of_isDone (hdead record hrecord)
  | @sweepDone call drain done _ hcall =>
      exact (custody_reply hcustody hnumbered hcall rfl rfl (.shutDown (.ok done))).of_aside
        rfl rfl rfl rfl rfl rfl rfl rfl
  | @took first rest hdispatcher _ _ hentries =>
      have htasks : before.agenda.queue.tasks = first.task :: rest.map Entry.task := by
        rw [Queue.tasks, hentries, List.map_cons]
      exact custody_took hcustody hdispatcher htasks
  | broke hdispatcher | ceased hdispatcher | idled hdispatcher | stopped hdispatcher =>
      exact hcustody.of_aside rfl rfl (by rw [hdispatcher]; rfl) rfl rfl rfl rfl rfl
  | started _ hdispatcher hrecord => exact custody_started hcustody hdispatcher hrecord
  | discarded _ hdispatcher hdead => exact custody_discarded hcustody hdispatcher hdead
  | tookUp htask => exact custody_tookUp hcustody htask
  | lostUnentered htask => exact custody_lostUnentered hcustody htask
  | @skipped job hjob hstage | requeueRefused hjob hstage =>
      refine custody_goOnWith hcustody hstaffed hjob ?_
      rw [Job.place, Job.place, hstage]
  | ended ending hjob hstage => exact custody_ended hcustody hstaffed hjob hstage ending
  | settled hjob hstage hsettle => exact custody_settled hcustody hstaffed hjob hstage hsettle
  | rearmed hjob hstage hsettle => exact custody_rearmed hcustody hstaffed hjob hstage hsettle
  | lostUncounted hjob hstage => exact custody_lostUncounted hcustody hstaffed hjob hstage
  | requeued hjob hstage =>
      exact custody_requeued hcustody hstaffed hjob (by rw [Job.place, hstage])
        (Queue.tasks_push _ _ _ _)
  | @dropped job record hjob _ hrecord =>
      have hafter := record?_withRecord hrecord { record with state := .cancelled }
      refine custody_release hcustody hstaffed hjob (fun _ => rfl)
        (fun other hother => (hafter other).trans (if_neg hother)) rfl fun _ => ?_
      exact fitsAt_none_of_cancelled ⟨_, (hafter job.task).trans (if_pos rfl), rfl⟩
  | @letGo job hjob hstage hdead =>
      -- The task has been cancelled since it was re-armed.
      have hplace : job.place = .returning := by rw [Job.place, hstage]
      refine custody_release hcustody hstaffed hjob (fun _ => rfl) (fun _ _ => rfl) rfl
        fun hfits => ?_
      rw [hplace] at hfits
      exact fitsAt_none_of_idle hfits.2 fun record hrecord =>
        state_ne_pending_of_isDone (hdead record hrecord)
  | cancelledInBody _ hrecord => exact custody_cancelled hcustody hrecord
  | pulledInBody hrecord hcancelled =>
      exact custody_remove hcustody hsound.queue.wellFormed ⟨_, hrecord, hcancelled⟩
  | submittedInVain => exact custody_drafted hcustody _ _
  | submitted => exact custody_submitted hcustody _ _ (Queue.tasks_push _ _ _ _)
  | _ => exact hcustody.of_aside rfl rfl rfl rfl rfl rfl rfl rfl

/-! ## Calls that wait and calls that cancel -/

theorem Move.revoked (hmove : Move origin action before after) (hsound : before.Sound) :
    after.Revoked := by
  intro call task hcall
  rcases hmove.arises hcall with hbefore | harises
  · exact (hmove.recordsEvolve hsound.custody).cancelled (hsound.revoked call task hbefore)
  · cases harises with
    | removing hcancelled => exact hcancelled

theorem Matched.of_perm (hmatched : before.Matched)
    (hproducers : after.agenda.queue.producers.everyone.Perm
      before.agenda.queue.producers.everyone)
    (hcalls : (after.calls.flatMap fun call => call.2.waits call.1).Perm
      (before.calls.flatMap fun call => call.2.waits call.1)) : after.Matched :=
  (hproducers.map _).trans (List.Perm.trans hmatched hcalls.symm)

theorem waits_reply (hnumbered : before.Numbered) {call : CallId} {stage : Call}
    (hcall : (call, stage) ∈ before.calls) (hwaits : stage.waits call = []) :
    ((before.otherCalls call).flatMap fun call => call.2.waits call.1).Perm
      (before.calls.flatMap fun call => call.2.waits call.1) := by
  have hperm := hnumbered.flatMap_perm hcall fun call => call.2.waits call.1
  simp only [hwaits, List.nil_append] at hperm
  exact hperm.symm

theorem waits_opened (before : Scheduler α) (call : CallId) {stage : Call}
    (hwaits : stage.waits call = []) :
    ((before.opened call stage).calls.flatMap fun call => call.2.waits call.1).Perm
      (before.calls.flatMap fun call => call.2.waits call.1) := by
  simp [opened, hwaits]

/-- A producer that waited does not wait any more. -/
theorem Sound.matched_risen (hsound : before.Sound) {call : CallId} {producer : Producer}
    (hcall : (call, .parked task) ∈ before.calls) (hcaller : producer.caller = call)
    (hwoken : producer ∈ before.agenda.queue.producers.woken) :
    ((before.agenda.queue.risen producer).producers.everyone.map fun producer =>
      (producer.caller, producer.task)).Perm
        ((before.otherCalls call).flatMap fun call => call.2.waits call.1) := by
  have htask := hsound.task_eq hcall hcaller (List.mem_append_right _ hwoken)
  have hproducers := (hsound.queue.counted.everyone_risen hwoken).map fun producer =>
    (producer.caller, producer.task)
  have hcalls := hsound.numbered.flatMap_perm hcall fun call => call.2.waits call.1
  rw [List.map_cons, hcaller, htask] at hproducers
  exact (List.perm_cons _).mp (hproducers.symm.trans (List.Perm.trans hsound.matched hcalls))

theorem Move.matched (hmove : Move origin action before after) (hsound : before.Sound) :
    after.Matched := by
  have hmatched := hsound.matched
  have hnumbered := hsound.numbered
  cases hmove with
  | refused =>
      refine hmatched.of_perm (List.Perm.refl _) (List.Perm.of_eq ?_)
      exact congrArg (List.flatMap _) hnumbered.otherCalls_next
  | drafted | cancelBegun => exact hmatched.of_perm (List.Perm.refl _) (waits_opened _ _ rfl)
  | @shutdownBegun drain =>
      exact hmatched.of_perm (List.Perm.refl _) (waits_opened _ _ (by cases drain <;> rfl))
  | turnedAway hcall | admitted hcall | claimRefused hcall | sweepDone _ hcall =>
      exact hmatched.of_perm (List.Perm.refl _) (waits_reply hnumbered hcall rfl)
  | @parked call task hcall =>
      have hcalls := hnumbered.flatMap_perm hcall fun call => call.2.waits call.1
      have hafter := hnumbered.flatMap_goOn hcall (.parked task) fun call => call.2.waits call.1
      refine ((Parking.everyone_park _ _).map _).trans ?_
      exact ((List.Perm.trans hmatched hcalls).cons (call, task)).trans hafter.symm
  | @parkedAgain call task producer hcall hcaller hwoken =>
      -- The producer rises and falls asleep again, while its call stays where it is.
      have hafter := hnumbered.flatMap_goOn hcall (.parked task) fun call => call.2.waits call.1
      have htask := hsound.task_eq hcall hcaller (List.mem_append_right _ hwoken)
      refine ((Parking.everyone_park _ _).map _).trans (List.Perm.trans ?_ hafter.symm)
      rw [List.map_cons, hcaller, htask]
      exact (hsound.matched_risen hcall hcaller hwoken).cons (call, task)
  | resumedRefused hcall hcaller hwoken | resumedAdmitted hcall hcaller hwoken =>
      exact hsound.matched_risen hcall hcaller hwoken
  | removed hcall =>
      exact hmatched.of_perm (Queue.remove_rest _ _).1 (waits_reply hnumbered hcall rfl)
  | claimed hcall | swept hcall | passedOver hcall =>
      exact hmatched.of_perm (List.Perm.refl _)
        (hnumbered.flatMap_goOn_same hcall _ (fun call => call.2.waits call.1) rfl)
  | closed hcall =>
      exact hmatched.of_perm (Parking.everyone_wakeAll _)
        (hnumbered.flatMap_goOn_same hcall _ (fun call => call.2.waits call.1) rfl)
  | took => exact hmatched.of_perm (Parking.everyone_wakeOne _) (List.Perm.refl _)
  | pulledInBody => exact hmatched.of_perm (Queue.remove_rest _ _).1 (List.Perm.refl _)
  | tookUp =>
      refine hmatched.of_perm (List.Perm.of_eq ?_) (List.Perm.refl _)
      exact congrArg (·.producers.everyone) (Agenda.enter_queue ..)
  | settled _ _ hsettle | rearmed _ _ hsettle =>
      refine hmatched.of_perm (List.Perm.of_eq ?_) (List.Perm.refl _)
      exact congrArg (·.producers.everyone) (Agenda.settle_queue hsettle)
  | _ => exact hmatched

/-! ## The queue -/

/-- Who brings a task for the first time does not wait in the queue. -/
theorem Sound.caller_ne (hsound : before.Sound) {call : CallId} {patient : Bool}
    (hcall : (call, .inserting task patient) ∈ before.calls) :
    ∀ producer ∈ before.agenda.queue.producers.everyone, producer.caller ≠ call := by
  intro producer hproducer hcaller
  subst hcaller
  exact absurd (hsound.numbered.eq_of_mem hcall (hsound.parked_mem hproducer)) (by simp)

theorem Custody.tasks_nodup (hcustody : before.Custody) : before.agenda.queue.tasks.Nodup := by
  rw [List.nodup_iff_count_le_one]
  intro task
  obtain ⟨place?, hlocated, -⟩ := hcustody task
  have hcount := hlocated .queued
  change before.agenda.queue.tasks.count task = _ at hcount
  rw [hcount]
  split <;> decide

/-- Whoever pulls a task out, or wakes the dispatcher for no particular reason, has to
answer for it.  Whoever looks for a due entry goes by the clock. -/
def AnswersFor (origin : Scheduler α) (action : Action α) (before : Scheduler α) :
    Queue.Operation → Prop
  | .remove task =>
      (origin.Removes action task ∧ origin.agenda.queue = before.agenda.queue) ∨
        before.agenda.queue.takers.asleep = []
  | .close drain => origin.Rouses action ∧ ∃ call, (call, .closing drain) ∈ before.calls
  | .wake | .expire _ => origin.Rouses action
  | .take _ now => now = before.agenda.reading
  | _ => True

/-- What a move does to the queue is an operation that is allowed, or nothing. -/
theorem Move.change (hmove : Move origin action before after) (hsound : before.Sound) :
    after.agenda.queue = before.agenda.queue ∨
      ∃ operation,
        Queue.Change dispatcherCaller before.agenda.queue operation after.agenda.queue ∧
        AnswersFor origin action before operation := by
  cases hmove with
  | @admitted call task patient hcall hadmission =>
      exact Or.inr ⟨.tryInsert task false .origin, .pushed hadmission, trivial⟩
  | @parked call task hcall hadmission hfull =>
      exact Or.inr ⟨.insert ⟨call, task, before.agenda.periodicOf task⟩ .origin,
        .parked hadmission hfull (hsound.caller_ne hcall), trivial⟩
  | @parkedAgain call task producer hcall hcaller hwoken hadmission hfull =>
      exact Or.inr ⟨.resume producer .origin, .parkedAgain hwoken hfull hadmission, trivial⟩
  | @resumedRefused call task producer hcall hcaller hwoken hadmission =>
      exact Or.inr ⟨.resume producer .origin, .refused hwoken hadmission, trivial⟩
  | @resumedAdmitted call task producer hcall hcaller hwoken hadmission hroom =>
      exact Or.inr ⟨.resume producer _, .resumed hwoken hadmission hroom, trivial⟩
  | @removed call task hcall hcause =>
      exact Or.inr ⟨.remove task, Queue.change_apply trivial, Or.inl hcause⟩
  | closed hcall hcause => exact Or.inr ⟨.close _, .closed _, hcause, _, hcall⟩
  | announced hcause | timePassed _ hcause => exact Or.inr ⟨.wake, .woken, hcause⟩
  | expired hcause => exact Or.inr ⟨.expire dispatcherCaller, .expired _, hcause⟩
  | took _ hawake hadmission hentries hdue =>
      exact Or.inr ⟨.take dispatcherCaller before.agenda.reading,
        .taken hawake hadmission hentries hdue, rfl⟩
  | slept _ hawake hadmission htimer hmore hearly =>
      exact Or.inr ⟨.take dispatcherCaller before.agenda.reading,
        .slept hawake hadmission htimer hmore hearly, rfl⟩
  | ceased _ hawake hadmission =>
      exact Or.inr ⟨.take dispatcherCaller before.agenda.reading, .finished hawake hadmission, rfl⟩
  | tookUp => exact Or.inl (Agenda.enter_queue ..)
  | settled _ _ hsettle | rearmed _ _ hsettle => exact Or.inl (Agenda.settle_queue hsettle)
  | @requeued job _ _ hadmission =>
      exact Or.inr ⟨.requeue job.task false false .origin, .pushed hadmission, trivial⟩
  | @pulledInBody task _ _ _ hcause =>
      exact Or.inr ⟨.remove task, Queue.change_apply trivial, hcause⟩
  | submitted _ hadmission =>
      exact Or.inr ⟨.tryInsert before.agenda.records.size false .origin, .pushed hadmission,
        trivial⟩
  | _ => exact Or.inl rfl

theorem Move.queue_sound (hmove : Move origin action before after) (hsound : before.Sound) :
    Queue.Sound dispatcherCaller after.agenda.queue := by
  rcases hmove.change hsound with heq | ⟨operation, hchange, -⟩
  · rw [heq]
    exact hsound.queue
  · exact hchange.sound hsound.queue (hmove.custody hsound).tasks_nodup

/-! ## Which tasks are periodic -/

theorem Sound.exists_record_of_queued (hsound : before.Sound) {entry : Entry}
    (hentry : entry ∈ before.agenda.queue.entries) :
    ∃ record, before.record? entry.task = some record := by
  have hmem : entry.task ∈ before.tasksAt .queued := List.mem_map_of_mem hentry
  exact (hsound.custody.fitsAt_of_mem hmem).exists_record

theorem Sound.exists_record_of_waiting (hsound : before.Sound) {producer : Producer}
    (hproducer : producer ∈ before.agenda.queue.producers.everyone) :
    ∃ record, before.record? producer.task = some record := by
  have hdrafted : producer.task ∈ before.tasksAt .drafted :=
    List.mem_flatMap.mpr ⟨_, hsound.parked_mem hproducer, List.mem_singleton_self _⟩
  exact (hsound.custody.fitsAt_of_mem hdrafted).exists_record

/-- A new entry has the flag and the due time of its record. -/
theorem Move.entry_of_mem (hmove : Move origin action before after) (hsound : before.Sound)
    {entry : Entry} (hentry : entry ∈ after.agenda.queue.entries) :
    entry ∈ before.agenda.queue.entries ∨
      entry.periodic = after.agenda.periodicOf entry.task ∧
        entry.key.due = after.agenda.dueOf entry.task := by
  cases hmove with
  | admitted | requeued | submitted =>
      rcases Queue.mem_entries_push.mp hentry with rfl | hentry
      · exact Or.inr ⟨rfl, rfl⟩
      · exact Or.inl hentry
  | @resumedAdmitted call task producer _ _ hwoken =>
      rcases Queue.mem_entries_push.mp hentry with rfl | hentry
      · have hwaits := List.mem_append_right before.agenda.queue.producers.asleep hwoken
        exact Or.inr ⟨hsound.flagged.producer_eq producer hwaits, rfl⟩
      · exact Or.inl hentry
  | removed | pulledInBody => exact Or.inl ((Queue.remove_rest _ _).2.subset hentry)
  | closed =>
      rw [goOn, withQueue, Queue.close_entries] at hentry
      exact Or.inl (List.mem_of_mem_filter hentry)
  | took _ _ _ hentries => exact Or.inl (hentries ▸ List.mem_cons_of_mem _ hentry)
  | tookUp => exact Or.inl ((Agenda.enter_queue ..) ▸ hentry)
  | settled _ _ hsettle | rearmed _ _ hsettle => exact Or.inl (Agenda.settle_queue hsettle ▸ hentry)
  | _ => exact Or.inl hentry

/-- A new producer has the flag of its record. -/
theorem Move.producer_of_mem (hmove : Move origin action before after) (hsound : before.Sound)
    {producer : Producer} (hproducer : producer ∈ after.agenda.queue.producers.everyone) :
    producer ∈ before.agenda.queue.producers.everyone ∨
      producer.periodic = after.agenda.periodicOf producer.task := by
  cases hmove with
  | parked =>
      rcases List.mem_cons.mp ((Parking.everyone_park _ _).mem_iff.mp hproducer) with rfl | hold
      · exact Or.inr rfl
      · exact Or.inl hold
  | parkedAgain _ _ hwoken =>
      refine Or.inl ((hsound.queue.counted.everyone_risen hwoken).mem_iff.mpr ?_)
      exact (Parking.everyone_park _ _).mem_iff.mp hproducer
  | resumedRefused | resumedAdmitted =>
      exact Or.inl ((Parking.everyone_rise_sublist _ _).subset hproducer)
  | removed | pulledInBody => exact Or.inl ((Queue.remove_rest _ _).1.mem_iff.mp hproducer)
  | closed => exact Or.inl ((Parking.everyone_wakeAll _).mem_iff.mp hproducer)
  | took => exact Or.inl ((Parking.everyone_wakeOne _).mem_iff.mp hproducer)
  | tookUp => exact Or.inl ((Agenda.enter_queue ..) ▸ hproducer)
  | settled _ _ hsettle | rearmed _ _ hsettle =>
      exact Or.inl (Agenda.settle_queue hsettle ▸ hproducer)
  | _ => exact Or.inl hproducer

theorem Move.flagged (hmove : Move origin action before after) (hsound : before.Sound) :
    after.Flagged where
  entry_eq := by
    intro entry hentry
    rcases hmove.entry_of_mem hsound hentry with hold | ⟨hnew, -⟩
    · rw [(hmove.recordsEvolve hsound.custody).periodicOf_eq (hsound.exists_record_of_queued hold)]
      exact hsound.flagged.entry_eq entry hold
    · exact hnew
  producer_eq := by
    intro producer hproducer
    rcases hmove.producer_of_mem hsound hproducer with hold | hnew
    · rw [(hmove.recordsEvolve hsound.custody).periodicOf_eq (hsound.exists_record_of_waiting hold)]
      exact hsound.flagged.producer_eq producer hold
    · exact hnew

/-! ## Who has panicked -/

theorem Move.clock_eq_or (hmove : Move origin action before after) :
    after.agenda.clock = before.agenda.clock ∨
      ∃ move, before.agenda.clock.advance move = .ok after.agenda.clock := by
  cases hmove with
  | clockMoved hclock | timePassed hclock => exact Or.inr ⟨_, hclock⟩
  | @tookUp _ task worker =>
      obtain ⟨records, history, henter⟩ := before.agenda.enter_fst task worker before.agenda.reading
      exact Or.inl (by rw [henter])
  | settled _ _ hsettle | rearmed _ _ hsettle => exact Or.inl (Agenda.kept_settle hsettle).clock_eq
  | _ => exact Or.inl rfl

theorem Move.isReadable_of_after (hmove : Move origin action before after)
    (hreadable : after.agenda.clock.isReadable = true) :
    before.agenda.clock.isReadable = true := by
  rcases hmove.clock_eq_or with hsame | ⟨move, hadvance⟩
  · exact hsame ▸ hreadable
  · exact ManualClock.isReadable_of_advance hadvance hreadable

theorem Move.intact (hmove : Move origin action before after) (hintact : before.Intact) :
    after.Intact := by
  intro hreadable
  have hbefore := hmove.isReadable_of_after hreadable
  obtain ⟨hlost, hdispatcher⟩ := hintact hbefore
  cases hmove with
  | broke _ _ _ _ hunreadable | lostUnentered _ _ _ hunreadable
  | lostUncounted _ _ _ hunreadable =>
      exact absurd (hbefore.symm.trans hunreadable) Bool.noConfusion
  | took | ceased | started | discarded | idled | stopped =>
      exact ⟨hlost, Dispatcher.noConfusion⟩
  | _ => exact ⟨hlost, hdispatcher⟩

/-! ## All of it -/

/-- Every move keeps a scheduler sound. -/
theorem Move.sound (hmove : Move origin action before after) (hsound : before.Sound) :
    after.Sound where
  numbered := hmove.numbered hsound.numbered
  staffed := hmove.staffed hsound.staffed
  custody := hmove.custody hsound
  matched := hmove.matched hsound
  revoked := hmove.revoked hsound
  flagged := hmove.flagged hsound
  queue := hmove.queue_sound hsound
  intact := hmove.intact hsound.intact

theorem sound_new {config : Config} {cores : Nat} {scheduler : Scheduler α}
    (hcreated : new config cores = .ok scheduler) : scheduler.Sound := by
  obtain rfl := new_eq_ok hcreated
  constructor
  · exact ⟨List.nodup_nil, fun _ hcall => absurd hcall List.not_mem_nil⟩
  · exact List.nodup_nil
  · intro task
    refine ⟨none, fun place => ?_, fun haccepted => absurd haccepted List.not_mem_nil⟩
    cases place <;> rfl
  · exact List.Perm.refl _
  · exact fun _ _ hcall => absurd hcall List.not_mem_nil
  · exact ⟨fun _ hentry => absurd hentry List.not_mem_nil,
      fun _ hproducer => absurd hproducer List.not_mem_nil⟩
  · exact Queue.sound_new _ _
  · exact fun _ => ⟨rfl, Dispatcher.noConfusion⟩

end Scheduler

end TimedTasks
