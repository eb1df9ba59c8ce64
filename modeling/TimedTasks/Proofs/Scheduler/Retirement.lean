import TimedTasks.Proofs.Scheduler.Dormant

/-!
# Calls that end tasks

In a dormant scheduler it is up to the callers what becomes of the records.  A cancellation changes
one record at once, and the call has still to pull the task out of the queue (`Withdrawing`).  The
first shutdown closes the queue and cancels what it has swept out, one task after the other
(`Retiring`).  The dispatcher may do what it likes in between: the call goes on to its answer, and
what that leaves behind is known from the beginning.
-/

namespace TimedTasks

variable {α : Type}

/-! ## Records -/

namespace Record

variable {record : Record α}

/-- The record once its task has been cancelled, unless it had come to an end. -/
def withdrawn (record : Record α) : Record α := record.cancel?.getD record

theorem withdrawn_of_live (hlive : record.isDone = false) :
    record.withdrawn = { record with state := .cancelled } := by
  rw [withdrawn, cancel?_eq_some.mpr ⟨hlive, rfl⟩, Option.getD_some]

theorem withdrawn_of_done (hdone : record.isDone = true) : record.withdrawn = record := by
  rw [withdrawn, cancel?_eq_none.mpr hdone, Option.getD_none]

theorem isDone_withdrawn (record : Record α) : record.withdrawn.isDone = true := by
  cases hdone : record.isDone with
  | false => rw [withdrawn_of_live hdone]; rfl
  | true => rw [withdrawn_of_done hdone, hdone]

theorem withdrawn_eq (record : Record α) : ∃ state, record.withdrawn = { record with state } := by
  cases hdone : record.isDone with
  | false => exact ⟨.cancelled, withdrawn_of_live hdone⟩
  | true => exact ⟨record.state, withdrawn_of_done hdone⟩

theorem stand_withdrawn (record : Record α) :
    record.withdrawn.stand = record.stand.cancelIf true := by
  have hdone := record.isDone_withdrawn
  obtain ⟨state, hstate⟩ := record.withdrawn_eq
  rw [hstate] at hdone ⊢
  rw [stand, hdone, Stand.cancelIf, Bool.or_true]
  rfl

end Record

namespace Scheduler

open Queue (SealedBut)

variable {before after scheduler : Scheduler α} {action : Action α}
variable {config : Config} {cores : Nat} {task culprit : TaskId} {call : CallId} {drain : Bool}
variable {base : TaskId → Option (Record α)} {gone : List TaskId}

/-- Some tasks have been cancelled, and all other records are as they were. -/
def Leaves (base : TaskId → Option (Record α)) (gone : List TaskId) (scheduler : Scheduler α) :
    Prop :=
  ∀ task, scheduler.record? task =
    if task ∈ gone then (base task).map Record.withdrawn else base task

theorem leaves_refl (scheduler : Scheduler α) : Leaves scheduler.record? [] scheduler :=
  fun _ => (if_neg List.not_mem_nil).symm

theorem Leaves.withRecord (hleaves : Leaves base gone before) {record : Record α}
    (hrecord : before.record? task = some record) (hlive : record.isDone = false)
    (hrecords : after.agenda.records =
      (before.withRecord task { record with state := .cancelled }).agenda.records) :
    Leaves base (gone ++ [task]) after := by
  intro other
  have hafter : after.record? other =
      if other = task then some { record with state := .cancelled } else before.record? other :=
    (congrArg (·[other]?) hrecords).trans (record?_withRecord hrecord _ other)
  rw [hafter, hleaves other]
  by_cases hother : other = task
  · subst hother
    have hbase := hleaves other
    rw [hrecord] at hbase
    split at hbase
    · obtain ⟨earlier, -, hwithdrawn⟩ := Option.map_eq_some_iff.mp hbase.symm
      rw [← hwithdrawn, earlier.isDone_withdrawn] at hlive
      exact absurd hlive.symm Bool.false_ne_true
    · simp [← hbase, Record.withdrawn_of_live hlive]
  · simp [hother]

/-! ## Steps that are not the caller's -/

namespace Dormant

variable (hdormant : Dormant config cores culprit before)

include hdormant

/-- What the dispatcher does is nothing to the callers, and nothing to the tasks. -/
theorem keeps_of_step (hspontaneous : action.IsSpontaneous)
    (hproceed : ∀ call, action ≠ .proceed call) (hstep : before.step action = some after) :
    after.calls = before.calls ∧ after.claimed = before.claimed ∧
      (∀ call, after.answer? call = before.answer? call) ∧
      ∀ task, after.record? task = before.record? task := by
  have hfront := front_of_step hstep (by rintro asked rfl; exact hspontaneous) hproceed
  have hrecords := hdormant.records_of_step hspontaneous hproceed hstep
  exact ⟨congrArg Front.calls hfront, congrArg Front.claimed hfront,
    fun call => congrArg (fun front => front.answers.lookup call) hfront,
    fun task => congrArg (·[task]?) hrecords⟩

theorem sealedBut_of_step {waiting : List TaskId} (hsealed : SealedBut waiting before.agenda.queue)
    (hstep : before.step action = some after) : SealedBut waiting after.agenda.queue :=
  (hdormant.plain.move_of_step hdormant.reachable.scripted hstep).sealedBut
    hdormant.reachable.sound hsealed

end Dormant

theorem lookup_singleton {stage : Call} (hcalls : before.calls = [(call, stage)]) {other : CallId}
    (hstep : before.step (.proceed other) = some after) :
    other = call ∧ before.calls.lookup call = some stage := by
  have hlookup : before.calls.lookup other ≠ none := by
    intro hnone
    simp [step, hnone] at hstep
  by_cases hother : other = call
  · subst hother
    exact ⟨rfl, by rw [hcalls, List.lookup_cons_self]⟩
  · rw [hcalls, List.lookup_cons, beq_false_of_ne hother] at hlookup
    exact absurd rfl hlookup

/-! ## A cancellation -/

/-- A task has been cancelled, and the call is to pull it out of the queue or has done so. -/
structure Withdrawing (base : TaskId → Option (Record α)) (task : TaskId) (call : CallId)
    (scheduler : Scheduler α) : Prop where
  leaves : Leaves base [task] scheduler
  call : scheduler.calls = [(call, .removing task)] ∨
    scheduler.calls = [] ∧ scheduler.answer? call = some (.cancelled true)

theorem withdrawing_request (hcalls : scheduler.calls = []) (haccepted : task ∈ scheduler.accepted)
    (hlive : scheduler.IsLive task) :
    Withdrawing scheduler.record? task scheduler.nextCall (scheduler.request (.cancel task)) := by
  obtain ⟨record, hrecord, hopen⟩ := hlive
  have hcancel := Agenda.cancel_of_live hrecord hopen
  have hasked : scheduler.request (.cancel task) =
      (scheduler.numbered.withRecord task { record with state := .cancelled }).opened
        scheduler.nextCall (.removing task) := by
    simp only [request, haccepted, hcancel, if_true]
    rfl
  rw [hasked]
  refine ⟨?_, Or.inl (congrArg (· ++ _) hcalls)⟩
  exact (leaves_refl scheduler).withRecord hrecord hopen rfl

theorem Withdrawing.of_step (hwithdrawing : Withdrawing base task call before)
    (hdormant : Dormant config cores culprit before) (hspontaneous : action.IsSpontaneous)
    (hstep : before.step action = some after) : Withdrawing base task call after := by
  by_cases hproceed : ∃ other, action = .proceed other
  · obtain ⟨other, rfl⟩ := hproceed
    rcases hwithdrawing.call with hcalls | ⟨hcalls, -⟩
    · obtain ⟨rfl, hlookup⟩ := lookup_singleton hcalls hstep
      obtain ⟨found, hremove⟩ := before.agenda.remove_eq task
      simp only [step, hlookup, proceed, hremove] at hstep
      obtain rfl := Option.some.inj hstep
      refine ⟨hwithdrawing.leaves, Or.inr ⟨?_, answer?_reply_self _ _ _⟩⟩
      simp [reply, hcalls]
    · simp [step, hcalls] at hstep
  · obtain ⟨hcalls, -, hanswer, hrecord⟩ := hdormant.keeps_of_step hspontaneous
      (fun other hother => hproceed ⟨other, hother⟩) hstep
    refine ⟨fun other => (hrecord other).trans (hwithdrawing.leaves other), ?_⟩
    rw [hcalls, hanswer]
    exact hwithdrawing.call

/-! ## A shutdown -/

/-- The tasks that a shutdown cancels: those that may still run, or those of them that repeat if it
is to drain. -/
structure Sweeps (drain : Bool) (base : TaskId → Option (Record α)) (tasks : List TaskId) :
    Prop where
  nodup : tasks.Nodup
  mem_iff : ∀ task, task ∈ tasks ↔ ∃ record, base task = some record ∧ record.isDone = false ∧
    (drain = true → record.isPeriodic = true)

/-- How far the first shutdown of a scheduler has come. -/
inductive Retiring (drain : Bool) (call : CallId) (base : TaskId → Option (Record α))
    (scheduler : Scheduler α) : Prop
  | begun (stage : Call) (hcalls : scheduler.calls = [(call, stage)])
      (hstage : stage = .closing drain ∨
        stage = .claiming ∧ drain = false ∧ scheduler.claimed = false)
      (hleaves : Leaves base [] scheduler)
  | sweeping {left done : List TaskId}
      (hcalls : scheduler.calls = [(call, .cancelling drain left done)])
      (hsweeps : Sweeps drain base (done ++ left)) (hleaves : Leaves base done scheduler)
      (hsealed : SealedBut [] scheduler.agenda.queue)
  | answered {done : List TaskId} (hcalls : scheduler.calls = [])
      (hanswer : scheduler.answer? call = some (.shutDown (.ok done)))
      (hsweeps : Sweeps drain base done) (hleaves : Leaves base done scheduler)
      (hsealed : SealedBut [] scheduler.agenda.queue)

/-- Nobody claims the immediate shutdown of a scheduler that runs. -/
theorem Reachable.claimed_eq_false (hreachable : Reachable config cores scheduler)
    (hrunning : scheduler.lifecycle = .running) : scheduler.claimed = false := by
  -- Only a call that has been foretold comes to claim anything, so that this must be kept as
  -- well.
  have hboth : scheduler.Foretold ∧
      (scheduler.claimed = true → scheduler.lifecycle ≠ .running) := by
    refine hreachable.induction_on_moves (p := fun state =>
        state.Foretold ∧ (state.claimed = true → state.lifecycle ≠ .running))
      (fun first hcreated => ?_)
      fun _ _ first second hsound hboth hmove => ⟨hmove.foretold hsound hboth.1, fun hclaimed => ?_⟩
    · refine ⟨(Reachable.start hcreated).foretold, ?_⟩
      obtain rfl := new_eq_ok hcreated
      exact fun hclaimed => absurd hclaimed Bool.false_ne_true
    · refine hmove.not_running ?_
      cases hmove with
      | claimed hcall => exact hboth.1.of_closes _ _ hcall trivial
      | _ => exact hboth.2 hclaimed
  by_contra hclaimed
  exact hboth.2 (by simpa using hclaimed) hrunning

theorem retiring_request (hreachable : Reachable config cores scheduler)
    (hcalls : scheduler.calls = []) (hrunning : scheduler.lifecycle = .running) (drain : Bool) :
    Retiring drain scheduler.nextCall scheduler.record? (scheduler.request (.shutdown drain)) := by
  have hclaimed := hreachable.claimed_eq_false hrunning
  cases drain with
  | true =>
      refine .begun (.closing true) ?_ (Or.inl rfl) ?_
      · simp [request, hrunning, opened, hcalls]
      · simp only [request, hrunning]
        exact leaves_refl scheduler
  | false =>
      refine .begun .claiming ?_ (Or.inr ⟨rfl, rfl, ?_⟩) ?_
      · simp [request, hrunning, opened, hcalls]
      · simp [request, hrunning, opened, hclaimed]
      · simp only [request, hrunning]
        exact leaves_refl scheduler

/-- Whatever is queued is live, and what leaves the queue is periodic if the queue drains. -/
theorem Dormant.sweeps_close (hdormant : Dormant config cores culprit before)
    (hcalls : before.calls = [(call, .closing drain)]) :
    Sweeps drain before.record? ((before.agenda.queue.close drain).2.map (·.task)) := by
  have hsound := hdormant.reachable.sound
  have hflagged := hsound.flagged.entry_eq
  have hmem : ∀ {task}, task ∈ before.agenda.queue.tasks ↔ before.IsLive task :=
    hdormant.mem_tasks_iff (by simp [hcalls]) (by simp [sweptOut, hcalls, Call.sweeps])
  rw [Queue.close_removed]
  refine ⟨(List.filter_sublist.map _).nodup hsound.queue.wellFormed.tasks_nodup, fun task => ?_⟩
  rw [List.mem_map]
  constructor
  · rintro ⟨entry, hentry, rfl⟩
    obtain ⟨hqueued, hleaves⟩ := List.mem_filter.mp hentry
    obtain ⟨record, hrecord, hlive⟩ := hmem.mp (List.mem_map_of_mem hqueued)
    refine ⟨record, hrecord, hlive, fun hdrain => ?_⟩
    rw [← periodicOf_eq_isPeriodic hrecord, ← hflagged entry hqueued]
    simpa [Queue.staysOn, hdrain] using hleaves
  · rintro ⟨record, hrecord, hlive, hperiodic⟩
    obtain ⟨entry, hentry, rfl⟩ := List.mem_map.mp (hmem.mpr ⟨record, hrecord, hlive⟩)
    refine ⟨entry, List.mem_filter.mpr ⟨hentry, ?_⟩, rfl⟩
    rw [← periodicOf_eq_isPeriodic hrecord, ← hflagged entry hentry] at hperiodic
    cases drain with
    | false => rfl
    | true => simp [Queue.staysOn, hperiodic rfl]

theorem Retiring.of_proceed (hretiring : Retiring drain call base before)
    (hdormant : Dormant config cores culprit before) {other : CallId}
    (hstep : before.step (.proceed other) = some after) : Retiring drain call base after := by
  obtain ⟨stage, hlookup, hproceeds⟩ := proceeds_of_step hstep
  have hsealed : SealedBut [] before.agenda.queue → SealedBut [] after.agenda.queue :=
    fun hbefore => hdormant.sealedBut_of_step hbefore hstep
  have hgoOn : ∀ {state : Scheduler α} {stage next : Call}, state.calls = [(call, stage)] →
      (state.goOn call next).calls = [(call, next)] := by
    intro state stage next hcalls
    simp [goOn, hcalls]
  cases hretiring with
  | begun stage hcalls hstage hleaves =>
      obtain ⟨rfl, hlook⟩ := lookup_singleton hcalls hstep
      obtain rfl := Option.some.inj (hlook.symm.trans hlookup)
      rcases hstage with rfl | ⟨rfl, rfl, hclaimed⟩
      · cases hproceeds with
        | closes =>
            have hbase : before.record? = base := funext fun task =>
              (hleaves task).trans (if_neg List.not_mem_nil)
            refine .sweeping (hgoOn hcalls) ?_ hleaves ?_
            · exact hbase ▸ hdormant.sweeps_close hcalls
            · have hsealed := Queue.sealedBut_close before.agenda.queue drain
              rwa [hdormant.producers_eq_nil] at hsealed
        | answers hnot | waits hnot => exact absurd trivial hnot
      · cases hproceeds with
        | turnedAway hagain => exact absurd (hclaimed.symm.trans hagain) Bool.false_ne_true
        | claims => exact .begun _ (hgoOn hcalls) (Or.inl rfl) hleaves
        | answers hnot | waits hnot => exact absurd trivial hnot
  | @sweeping left done hcalls hsweeps hleaves hbut =>
      obtain ⟨rfl, hlook⟩ := lookup_singleton hcalls hstep
      obtain rfl := Option.some.inj (hlook.symm.trans hlookup)
      cases hproceeds with
      | @cancels _ task rest _ record hrecord hlive =>
          refine .sweeping (hgoOn hcalls) ?_ (hleaves.withRecord hrecord hlive rfl)
            (hsealed hbut)
          rwa [List.append_assoc, List.singleton_append]
      | @passesOver _ task rest _ hdead =>
          -- Nobody else can have cancelled what has been swept out.
          obtain ⟨record, hrecord, hlive, -⟩ :=
            (hsweeps.mem_iff task).mp (List.mem_append_right _ (List.mem_cons_self ..))
          have hnot : task ∉ done := fun hdone =>
            (List.nodup_append.mp hsweeps.nodup).2.2 task hdone task (List.mem_cons_self ..) rfl
          have hsame := (hleaves task).trans (if_neg hnot)
          have hdone := hdead record (hsame.trans hrecord)
          exact absurd (hlive.symm.trans hdone) Bool.false_ne_true
      | reports hrecords hfront =>
          refine .answered ?_ (answer?_reply_self _ _ _) ?_ ?_ (hsealed hbut)
          · have hlast := (congrArg Front.calls hfront).trans hcalls
            simp only [front] at hlast
            simp [reply, hlast]
          · rwa [List.append_nil] at hsweeps
          · exact fun task => (congrArg (·[task]?) hrecords).trans (hleaves task)
      | answers hnot | waits hnot => exact absurd trivial hnot
  | answered hcalls =>
      rw [hcalls] at hlookup
      simp at hlookup

theorem Retiring.of_step (hretiring : Retiring drain call base before)
    (hdormant : Dormant config cores culprit before) (hspontaneous : action.IsSpontaneous)
    (hstep : before.step action = some after) : Retiring drain call base after := by
  by_cases hproceed : ∃ other, action = .proceed other
  · obtain ⟨other, rfl⟩ := hproceed
    exact hretiring.of_proceed hdormant hstep
  · obtain ⟨hcalls, hclaimed, hanswer, hrecord⟩ := hdormant.keeps_of_step hspontaneous
      (fun other hother => hproceed ⟨other, hother⟩) hstep
    have hleaves : ∀ {gone}, Leaves base gone before → Leaves base gone after :=
      fun hleaves task => (hrecord task).trans (hleaves task)
    cases hretiring with
    | begun stage hsame hstage hbase =>
        exact .begun stage (hcalls.trans hsame) (hclaimed ▸ hstage) (hleaves hbase)
    | sweeping hsame hsweeps hbase hsealed =>
        exact .sweeping (hcalls.trans hsame) hsweeps (hleaves hbase)
          (hdormant.sealedBut_of_step hsealed hstep)
    | answered hsame hanswered hsweeps hbase hsealed =>
        exact .answered (hcalls.trans hsame) ((hanswer call).trans hanswered) hsweeps
          (hleaves hbase) (hdormant.sealedBut_of_step hsealed hstep)

/-! ## Answers -/

theorem Withdrawing.of_answer (hwithdrawing : Withdrawing base task call scheduler)
    (hreachable : Reachable config cores scheduler) {answer : Answer}
    (hanswer : scheduler.answer? call = some answer) :
    scheduler.calls = [] ∧ answer = .cancelled true := by
  rcases hwithdrawing.call with hcalls | ⟨hcalls, htrue⟩
  · have hlookup := hreachable.attended.closed call answer hanswer
    rw [hcalls, List.lookup_cons_self] at hlookup
    exact absurd hlookup (by simp)
  · exact ⟨hcalls, Option.some.inj (hanswer.symm.trans htrue)⟩

/-- A shutdown cancels what it has swept out, and then answers. -/
theorem Retiring.of_answer (hretiring : Retiring drain call base scheduler)
    (hreachable : Reachable config cores scheduler) {answer : Answer}
    (hanswer : scheduler.answer? call = some answer) :
    ∃ done, answer = .shutDown (.ok done) ∧ scheduler.calls = [] ∧ Sweeps drain base done ∧
      Leaves base done scheduler ∧ SealedBut [] scheduler.agenda.queue := by
  have hopen : ∀ {stage}, scheduler.calls ≠ [(call, stage)] := by
    intro stage hcalls
    have hlookup := hreachable.attended.closed call answer hanswer
    rw [hcalls, List.lookup_cons_self] at hlookup
    exact absurd hlookup (by simp)
  cases hretiring with
  | begun _ hcalls | sweeping hcalls => exact absurd hcalls hopen
  | answered hcalls hdone hsweeps hleaves hsealed =>
      exact ⟨_, Option.some.inj (hanswer.symm.trans hdone), hcalls, hsweeps, hleaves, hsealed⟩

theorem Retiring.exists_answer (hretiring : Retiring drain call base scheduler)
    (hcalls : scheduler.calls = []) : scheduler.answer? call ≠ none := by
  cases hretiring with
  | begun _ hsome | sweeping hsome => exact absurd (hcalls.symm.trans hsome) (by simp)
  | answered _ hanswer => simp [hanswer]

theorem Retiring.exists_leaves (hretiring : Retiring drain call base scheduler) :
    ∃ gone, Leaves base gone scheduler := by
  cases hretiring with
  | begun _ _ _ hleaves | sweeping _ _ hleaves | answered _ _ _ hleaves => exact ⟨_, hleaves⟩

theorem Retiring.calls_le_one (hretiring : Retiring drain call base scheduler) :
    scheduler.calls.length ≤ 1 := by
  cases hretiring with
  | begun _ hcalls | sweeping hcalls | answered hcalls => simp [hcalls]

theorem Retiring.not_removing (hretiring : Retiring drain call base scheduler) (other : CallId)
    (task : TaskId) : (other, .removing task) ∉ scheduler.calls := by
  cases hretiring with
  | begun stage hcalls hstage => rcases hstage with rfl | ⟨rfl, -⟩ <;> simp [hcalls]
  | sweeping hcalls | answered hcalls => simp [hcalls]

end Scheduler

end TimedTasks
