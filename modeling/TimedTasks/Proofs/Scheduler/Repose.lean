import TimedTasks.Proofs.Scheduler.Cancelling
import TimedTasks.Proofs.Scheduler.Standstill
import TimedTasks.Proofs.Scheduler.Vigilance

/-!
# Where tasks come to rest

In a settled scheduler nobody has a task only in passing: the dispatcher's hand is empty, no call
has tasks to pull out or to cancel, and whoever has a job is in a body.  An accepted task is then
queued, in flight or over, and only one of these (`Reachable.accepted_perm`).

That a queued task is not over takes a look at cancellations.  A cancelled task may well be
queued, but not without a call that is still to pull it out (`Noticed`), and such a call can go on.
-/

namespace TimedTasks

namespace Scheduler

variable {α : Type} {origin before after scheduler : Scheduler α} {action : Action α}
variable {config : Config} {cores : Nat} {task : TaskId}

/-! ## Tasks that have not been accepted -/

theorem Custody.accepted_of_mem {place : Place} (hcustody : before.Custody)
    (hmem : task ∈ before.tasksAt place) (hplace : place ≠ .drafted) : task ∈ before.accepted := by
  have hfits := hcustody.fitsAt_of_mem hmem
  cases place with
  | drafted => exact absurd rfl hplace
  | _ => exact hfits.1

/-- Tasks that have not been accepted are pending. -/
def Untouched (scheduler : Scheduler α) : Prop :=
  ∀ task ∉ scheduler.accepted, ∀ record, scheduler.record? task = some record →
    record.state = .pending

/-- A task that waits where it has been let in, or has not been let in yet, stays as it is unless
somebody cancels it. -/
theorem Fate.state_eq {first second : Option (Record α) × Nat}
    (hfate : Fate origin action before task first second) (hcause : ¬ origin.Cancels action task)
    (hwaits : ∀ place, place ≠ .drafted → place ≠ .queued → task ∉ before.tasksAt place)
    {record later : Record α} (hrecord : first.1 = some record) (hlater : second.1 = some later) :
    later.state = record.state := by
  cases hfate with
  | kept =>
      obtain rfl := Option.some.inj (hrecord.symm.trans hlater)
      rfl
  | drafted => simp at hrecord
  | cancelled _ hwho =>
      rcases hwho with hcancels | ⟨-, hreturning⟩ | hswept
      · exact absurd hcancels hcause
      · exact absurd hreturning (hwaits _ (by decide) (by decide))
      · exact absurd hswept (hwaits _ (by decide) (by decide))
  | started _ hheld => exact absurd hheld (hwaits _ (by decide) (by decide))
  | entered hbacklog => exact absurd hbacklog (hwaits .backlog (by decide) (by decide))
  | @left found _ ending =>
      obtain rfl := Option.some.inj hrecord
      obtain rfl := Option.some.inj hlater
      obtain ⟨result?, failures, lastError?, hleave⟩ := found.leave_eq ending
      rw [hleave]
  | settled _ _ _ hrunning => exact absurd hrunning (hwaits _ (by decide) (by decide))

theorem Move.untouched (hmove : Move origin action before after) (hsound : before.Sound)
    (horigin : origin.accepted ⊆ before.accepted) (huntouched : before.Untouched) :
    after.Untouched := by
  intro task hnot later hlater
  have hbefore : task ∉ before.accepted := fun hmem => hnot (hmove.accepted_subset hmem)
  have hfate := hmove.fate hsound.custody task
  cases hrecord : before.record? task with
  | none =>
      obtain ⟨submission, due, -, -, rfl⟩ := hfate.submitted hrecord hlater
      rfl
  | some record =>
      have hstate := hfate.state_eq (fun hcancels => hbefore (horigin hcancels.mem_accepted))
        (fun place hplace _ hmem => hbefore (hsound.custody.accepted_of_mem hmem hplace))
        hrecord hlater
      exact hstate.trans (huntouched task hbefore record hrecord)

/-! ## Cancelled tasks in the queue -/

/-- A cancelled task in the queue is going to be pulled out by a call, up to exceptions. -/
def NoticedBut (exempt : TaskId → Prop) (scheduler : Scheduler α) : Prop :=
  ∀ task ∈ scheduler.agenda.queue.tasks,
    scheduler.Has task (fun record => record.state = .cancelled) →
      (∃ call, (call, .removing task) ∈ scheduler.calls) ∨ exempt task

/-- A cancelled task in the queue is going to be pulled out by a call. -/
def Noticed (scheduler : Scheduler α) : Prop :=
  ∀ task ∈ scheduler.agenda.queue.tasks,
    scheduler.Has task (fun record => record.state = .cancelled) →
      ∃ call, (call, .removing task) ∈ scheduler.calls

/-- A call that pulls a task out goes on to do so until it has done it. -/
theorem Move.removing_stays (hmove : Move origin action before after) (hsound : before.Sound)
    {call : CallId} (hcall : (call, .removing task) ∈ before.calls) :
    (call, .removing task) ∈ after.calls ∨ task ∉ after.agenda.queue.tasks := by
  have hnumbered := hsound.numbered
  have hother : ∀ {other stage}, (other, stage) ∈ before.calls → stage ≠ .removing task →
      call ≠ other := by
    rintro other stage hmem hne rfl
    exact hne (hnumbered.eq_of_mem hcall hmem)
  have hreply : ∀ {state : Scheduler α} {other answer}, state.calls = before.calls →
      call ≠ other → (call, Call.removing task) ∈ (state.reply other answer).calls := by
    intro state other answer hsame hne
    exact List.mem_filter.mpr ⟨hsame ▸ hcall, bne_iff_ne.mpr hne⟩
  have hgoOn : ∀ {state : Scheduler α} {other next}, state.calls = before.calls →
      call ≠ other → (call, Call.removing task) ∈ (state.goOn other next).calls := by
    intro state other next hsame hne
    exact List.mem_map.mpr ⟨_, hsame ▸ hcall, if_neg hne⟩
  cases hmove with
  | refused => exact Or.inl (hreply rfl (Nat.ne_of_lt (hnumbered.lt_next _ hcall)))
  | drafted | cancelBegun | shutdownBegun => exact Or.inl (List.mem_append_left _ hcall)
  | turnedAway hmem | admitted hmem | resumedRefused hmem | resumedAdmitted hmem
  | claimRefused hmem | sweepDone _ hmem =>
      exact Or.inl (hreply rfl (hother hmem Call.noConfusion))
  | parked hmem | parkedAgain hmem | claimed hmem | closed hmem | swept hmem | passedOver hmem =>
      exact Or.inl (hgoOn rfl (hother hmem Call.noConfusion))
  | @removed other moved hmem =>
      by_cases htask : task = moved
      · subst htask
        exact Or.inr (hsound.queue.wellFormed.not_mem_tasks_remove task)
      · exact Or.inl (hreply rfl (hother hmem (by simpa using Ne.symm htask)))
  | _ => exact Or.inl hcall

/-- A move that lets a task into the queue changes no record. -/
theorem Move.tasks_subset_or_records_kept (hmove : Move origin action before after) :
    after.agenda.queue.tasks ⊆ before.agenda.queue.tasks ∨
      ∀ task record, before.record? task = some record → after.record? task = some record := by
  cases hmove with
  | drafted | cancelBegun | swept | started | ended | dropped | cancelledInBody
  | submittedInVain => exact Or.inl (List.Subset.refl _)
  | tookUp => exact Or.inl fun _ hmem => (Agenda.enter_queue ..) ▸ hmem
  | settled _ _ hsettle | rearmed _ _ hsettle =>
      exact Or.inl (Agenda.settle_queue hsettle ▸ List.Subset.refl _)
  | submitted =>
      refine Or.inr fun task record hrecord => (record?_draft ..).trans ?_
      refine (if_neg ?_).trans hrecord
      rintro rfl
      exact absurd (before.record?_size.symm.trans hrecord) (by simp)
  | _ => exact Or.inr fun _ _ hrecord => hrecord

/-- A cancelled task has not just come into the queue. -/
theorem Move.queued_of_cancelled (hmove : Move origin action before after)
    (hsound : before.Sound) (huntouched : before.Untouched)
    (hqueued : task ∈ after.agenda.queue.tasks)
    (hcancelled : after.Has task fun record => record.state = .cancelled) :
    task ∈ before.agenda.queue.tasks := by
  rcases hmove.tasks_subset_or_records_kept with hsubset | hkept
  · exact hsubset hqueued
  · obtain ⟨later, hlater, hstate⟩ := hcancelled
    cases hrecord : before.record? task with
    | none =>
        obtain ⟨submission, due, -, -, rfl⟩ :=
          (hmove.fate hsound.custody task).submitted hrecord hlater
        exact absurd hstate (by simp [Submission.record])
    | some record =>
        obtain rfl := Option.some.inj ((hkept task record hrecord).symm.trans hlater)
        rcases hmove.queued_cases hsound hqueued with hold | hnew | hlive
        · exact hold
        · exact absurd ((huntouched task hnew record hrecord).symm.trans hstate) (by decide)
        · rw [cancelledOf_of_cancelled ⟨record, hrecord, hstate⟩] at hlive
          exact absurd hlive (by decide)

/-- Whoever cancels a queued task in a step has to answer for it. -/
theorem Move.noticedBut (hmove : Move origin action before after) (hsound : before.Sound)
    (huntouched : before.Untouched) (hnoticed : before.NoticedBut (origin.Cancels action)) :
    after.NoticedBut (origin.Cancels action) := by
  intro task hqueued hcancelled
  by_cases hcause : origin.Cancels action task
  · exact Or.inr hcause
  · have hbefore := hmove.queued_of_cancelled hsound huntouched hqueued hcancelled
    have hmem : task ∈ before.tasksAt .queued := hbefore
    obtain ⟨later, hlater, hstate⟩ := hcancelled
    obtain ⟨record, hrecord⟩ := (hsound.custody.fitsAt_of_mem hmem).exists_record
    have hsame := (hmove.fate hsound.custody task).state_eq hcause
      (fun place _ hplace => hsound.custody.not_mem_of_mem hmem hplace.symm) hrecord hlater
    rcases hnoticed task hbefore ⟨record, hrecord, hsame.symm.trans hstate⟩ with
      ⟨call, hcall⟩ | hcancels
    · rcases hmove.removing_stays hsound hcall with hstays | hgone
      · exact Or.inl ⟨call, hstays⟩
      · exact absurd hqueued hgone
    · exact absurd hcancels hcause

theorem exists_removing_of_cancels {asked : TaskId}
    (hcancels : before.Cancels (.request (.cancel asked)) task)
    (hstep : before.step (.request (.cancel asked)) = some after) :
    ∃ call, (call, .removing task) ∈ after.calls := by
  obtain ⟨rfl, haccepted, record, hrecord, hlive⟩ := hcancels
  have hcancel := Agenda.cancel_of_live hrecord hlive
  simp only [step, request, if_pos haccepted, hcancel] at hstep
  obtain rfl := Option.some.inj hstep
  exact ⟨before.nextCall, List.mem_append_right _ (List.mem_singleton_self _)⟩

theorem Reachable.noticed (hreachable : Reachable config cores scheduler) :
    scheduler.Untouched ∧ scheduler.Noticed := by
  induction hreachable with
  | start hcreated =>
      refine ⟨fun task _ record hrecord => ?_, fun task hqueued => ?_⟩
      · obtain ⟨hnone, -⟩ := Prod.mk.inj (standing_new hcreated task)
        exact absurd (hnone.symm.trans hrecord) (by simp)
      · obtain rfl := new_eq_ok hcreated
        exact absurd hqueued List.not_mem_nil
  | @step before after hreached action hstep ih =>
      obtain ⟨huntouched, hnoticed⟩ := ih
      obtain ⟨-, hafter, hbut⟩ := of_step (p := fun state =>
          before.accepted ⊆ state.accepted ∧ state.Untouched ∧
            state.NoticedBut (before.Cancels action)) hreached.sound hstep
        ⟨List.Subset.refl _, huntouched,
          fun task hqueued hcancelled => Or.inl (hnoticed task hqueued hcancelled)⟩
        fun first second hsound hfirst hmove =>
          ⟨List.Subset.trans hfirst.1 hmove.accepted_subset,
            hmove.untouched hsound hfirst.1 hfirst.2.1,
            hmove.noticedBut hsound hfirst.2.1 hfirst.2.2⟩
      refine ⟨hafter, fun task hqueued hcancelled => ?_⟩
      rcases hbut task hqueued hcancelled with hcall | hcancels
      · exact hcall
      · cases action with
        | request asked =>
            cases asked with
            | cancel asked => exact exists_removing_of_cancels hcancels hstep
            | _ => exact hcancels.elim
        | work worker =>
            -- A body pulls the task out in the same step.
            have hconfirms : before.Confirms (.work worker) task := hcancels
            exact absurd hqueued (hreached.withdrawn_of_confirms hconfirms hstep).not_queued
        | _ => exact hcancels.elim

/-! ## Settled schedulers -/

/-- The dispatcher never waits with a task in its hand. -/
theorem hand_of_settled (hsettled : scheduler.isSettled = true) :
    scheduler.dispatcher.hand = [] := by
  cases hdispatcher : scheduler.dispatcher with
  | holding held =>
      obtain ⟨after, hstep, -⟩ := dispatch_of_holding hdispatcher
      have hnone := step_eq_none_of_settled hsettled
        (by simp [candidates] : .dispatch ∈ scheduler.candidates)
      exact absurd (hnone.symm.trans hstep) (by simp)
  | _ => rfl

theorem proceed_of_settled (hsettled : scheduler.isSettled = true) {call : CallId} {stage : Call}
    (hcall : (call, stage) ∈ scheduler.calls) : scheduler.step (.proceed call) = none := by
  refine step_eq_none_of_settled hsettled ?_
  simp only [candidates, List.mem_append, List.mem_cons, List.mem_map]
  exact Or.inl (Or.inl (Or.inr ⟨_, hcall, rfl⟩))

/-- A call that has tasks to cancel can go on. -/
theorem Sound.sweptOut_of_settled (hsound : scheduler.Sound)
    (hsettled : scheduler.isSettled = true) : scheduler.sweptOut = [] := by
  rw [sweptOut, List.flatMap_eq_nil_iff]
  rintro ⟨call, stage⟩ hcall
  cases stage with
  | cancelling drain left done =>
      cases left with
      | nil => rfl
      | cons next left =>
          obtain ⟨after, hstep, -⟩ := hsound.step_cancelling hcall
          exact absurd ((proceed_of_settled hsettled hcall).symm.trans hstep) (by simp)
  | _ => rfl

theorem Sound.not_removing_of_settled (hsound : scheduler.Sound)
    (hsettled : scheduler.isSettled = true) (call : CallId) :
    (call, .removing task) ∉ scheduler.calls := by
  intro hcall
  have hnone := proceed_of_settled hsettled hcall
  simp [step, hsound.numbered.lookup_eq hcall, proceed] at hnone

theorem Staffed.find?_eq (hstaffed : scheduler.Staffed) {job : Job α}
    (hjob : job ∈ scheduler.jobs) :
    (scheduler.jobs.find? fun other => other.worker == job.worker) = some job := by
  cases hfind : scheduler.jobs.find? fun other => other.worker == job.worker with
  | none => simpa using List.find?_eq_none.mp hfind job hjob
  | some found =>
      have hworker : found.worker = job.worker := by simpa using List.find?_some hfind
      rw [List.inj_on_of_nodup_map hstaffed (List.mem_of_find?_eq_some hfind) hjob hworker]

/-- Whoever has a job is in a body, and waits at its gate. -/
theorem Sound.waits_of_settled (hsound : scheduler.Sound) (hsettled : scheduler.isSettled = true)
    {job : Job α} (hjob : job ∈ scheduler.jobs) :
    ∃ turn, job.stage = .inside (some turn) ∧ scheduler.passesGate turn = false := by
  have hnone : scheduler.step (.work job.worker) = none :=
    step_eq_none_of_settled hsettled (List.mem_append_right _ (List.mem_map_of_mem hjob))
  have hwork : scheduler.work job = none := by
    simpa only [step, hsound.staffed.find?_eq hjob] using hnone
  unfold work at hwork
  split at hwork
  · simp at hwork
  · rename_i turn hstage
    refine ⟨turn, hstage, ?_⟩
    by_contra hpasses
    simp [hpasses] at hwork
  · split at hwork
    · simp at hwork
    · split at hwork <;> simp at hwork
  · split at hwork <;> simp at hwork
  · simp at hwork

/-! ## Accepted tasks -/

/-- Whether a task has come to its end, and no run of it is in flight. -/
def isOver (scheduler : Scheduler α) (task : TaskId) : Bool :=
  (scheduler.record? task).any Record.isDone && !scheduler.inFlight.contains task

theorem isOver_iff :
    scheduler.isOver task = true ↔
      (scheduler.Has task fun record => record.isDone = true) ∧ task ∉ scheduler.inFlight := by
  rw [isOver, Bool.and_eq_true, Option.any_eq_true, Bool.not_eq_true', List.contains_eq_mem,
    decide_eq_false_iff_not]
  rfl

/-- Whether a task has not come to its end, and never will, as its run has been lost. -/
def isForsaken (scheduler : Scheduler α) (task : TaskId) : Bool :=
  (scheduler.record? task).any (fun record => !record.isDone) && scheduler.lostTasks.contains task

theorem isForsaken_iff :
    scheduler.isForsaken task = true ↔ scheduler.IsLive task ∧ task ∈ scheduler.lostTasks := by
  rw [isForsaken, Bool.and_eq_true, Option.any_eq_true, List.contains_eq_mem, decide_eq_true_iff]
  simp only [Bool.not_eq_true', IsLive]

theorem Reachable.not_isOver_of_queued (hreachable : Reachable config cores scheduler)
    (hsettled : scheduler.isSettled = true) (hqueued : task ∈ scheduler.agenda.queue.tasks) :
    scheduler.isOver task = false := by
  have hmem : task ∈ scheduler.tasksAt .queued := hqueued
  obtain ⟨-, record, hrecord, hidle, -⟩ := hreachable.sound.custody.fitsAt_of_mem hmem
  by_contra hover
  obtain ⟨hdone, -⟩ := isOver_iff.mp (Bool.not_eq_false _ ▸ hover)
  have hcancelled := hidle.state_eq (state_ne_pending_of_isDone (hdone.holds hrecord))
  obtain ⟨call, hcall⟩ := hreachable.noticed.2 task hqueued ⟨record, hrecord, hcancelled⟩
  exact hreachable.sound.not_removing_of_settled hsettled call hcall

/-- Whatever is queued or in flight has been accepted. -/
theorem Sound.accepted_of_mem (hsound : scheduler.Sound)
    (hmem : task ∈ scheduler.agenda.queue.tasks ++ scheduler.inFlight) :
    task ∈ scheduler.accepted := by
  have hcustody := hsound.custody
  rcases List.mem_append.mp hmem with hqueued | hflight
  · have hplace : task ∈ scheduler.tasksAt .queued := hqueued
    exact hcustody.accepted_of_mem hplace (by decide)
  · rcases List.mem_append.mp hflight with hwaits | hruns
    · have hplace : task ∈ scheduler.tasksAt .backlog := hwaits
      exact hcustody.accepted_of_mem hplace (by decide)
    · obtain ⟨job, hjob, rfl⟩ := List.mem_map.mp hruns
      refine hcustody.accepted_of_mem (mem_tasksAt_place hjob) ?_
      rcases job.place_eq with hplace | hplace <;> rw [hplace] <;> decide

/-- In a settled scheduler, whatever has not come to an end is queued or in flight, unless its
run has been lost. -/
theorem Sound.mem_of_settled (hsound : scheduler.Sound) (hsettled : scheduler.isSettled = true)
    (haccepted : task ∈ scheduler.accepted) (hlive : scheduler.IsLive task)
    (hlost : task ∉ scheduler.lostTasks) :
    task ∈ scheduler.agenda.queue.tasks ++ scheduler.inFlight := by
  obtain ⟨place, hlocated, hfits⟩ := hsound.custody.located_of_live haccepted hlive
  have hmem := hlocated.mem
  cases place with
  | drafted => exact absurd haccepted hfits.1
  | queued => exact List.mem_append_left _ hmem
  | held =>
      rw [tasksAt, hand_of_settled hsettled] at hmem
      exact absurd hmem List.not_mem_nil
  | backlog => exact List.mem_append_right _ (List.mem_append_left _ hmem)
  | running | returning =>
      refine List.mem_append_right _ (List.mem_append_right _ ?_)
      obtain ⟨job, hjob, htask⟩ := List.mem_flatMap.mp hmem
      rw [Job.tasksAt] at htask
      split at htask
      · rw [List.mem_singleton.mp htask]
        exact List.mem_map_of_mem hjob
      · exact absurd htask List.not_mem_nil
  | swept =>
      have hswept : task ∈ scheduler.sweptOut := hmem
      rw [hsound.sweptOut_of_settled hsettled] at hswept
      exact absurd hswept List.not_mem_nil
  | lost => exact absurd hmem hlost

/-- No task whose run has been lost is queued or in flight. -/
theorem Custody.not_lost_of_mem (hcustody : scheduler.Custody)
    (hmem : task ∈ scheduler.agenda.queue.tasks ++ scheduler.inFlight) :
    task ∉ scheduler.lostTasks := by
  intro hlost
  have hplace : task ∈ scheduler.tasksAt .lost := hlost
  rcases List.mem_append.mp hmem with hqueued | hflight
  · exact hcustody.not_mem_of_mem hplace (by decide : Place.lost ≠ .queued) hqueued
  · rcases List.mem_append.mp hflight with hwaits | hruns
    · exact hcustody.not_mem_of_mem hplace (by decide : Place.lost ≠ .backlog) hwaits
    · obtain ⟨job, hjob, rfl⟩ := List.mem_map.mp hruns
      refine hcustody.not_mem_of_mem hplace ?_ (mem_tasksAt_place hjob)
      rcases job.place_eq with hrunning | hreturning
      · rw [hrunning]
        decide
      · rw [hreturning]
        decide

/-- No task is queued or in flight twice, or both. -/
theorem Sound.nodup_of_settled (hsound : scheduler.Sound) (hsettled : scheduler.isSettled = true) :
    (scheduler.agenda.queue.tasks ++ scheduler.inFlight).Nodup := by
  have hholdings : scheduler.holdings = scheduler.agenda.queue.tasks ++ scheduler.inFlight := by
    rw [holdings, hand_of_settled hsettled, hsound.sweptOut_of_settled hsettled, List.append_nil,
      List.append_nil]
  rw [← hholdings, List.nodup_iff_count_le_one]
  intro task
  obtain ⟨place?, hlocated, -⟩ := hsound.custody task
  rw [hlocated.count_holdings]
  split <;> decide

theorem Move.accepted_nodup (hmove : Move origin action before after) (hsound : before.Sound)
    (hnodup : before.accepted.Nodup) : after.accepted.Nodup := by
  cases hmove with
  | admitted hcall | resumedAdmitted hcall =>
      exact List.nodup_cons.mpr
        ⟨hsound.custody.not_accepted_of_drafts hcall (List.mem_singleton_self _), hnodup⟩
  | submitted => exact List.nodup_cons.mpr ⟨hsound.custody.size_not_accepted, hnodup⟩
  | _ => exact hnodup

theorem Reachable.accepted_nodup (hreachable : Reachable config cores scheduler) :
    scheduler.accepted.Nodup := by
  refine hreachable.induction_on_moves (fun first hcreated => ?_)
    fun _ _ _ _ hsound hnodup hmove => hmove.accepted_nodup hsound hnodup
  obtain rfl := new_eq_ok hcreated
  exact List.nodup_nil

/-- In a settled scheduler every accepted task is queued, in flight, over or forsaken, and only
one of these. -/
theorem Reachable.accepted_perm (hreachable : Reachable config cores scheduler)
    (hsettled : scheduler.isSettled = true) :
    scheduler.accepted.Perm (scheduler.agenda.queue.tasks ++ scheduler.inFlight ++
      (scheduler.accepted.filter scheduler.isOver ++
        scheduler.accepted.filter scheduler.isForsaken)) := by
  have hsound := hreachable.sound
  have hnodup := hreachable.accepted_nodup
  have hdisjoint : ∀ task ∈ scheduler.agenda.queue.tasks ++ scheduler.inFlight,
      scheduler.isOver task = false := by
    intro task hmem
    rcases List.mem_append.mp hmem with hqueued | hflight
    · exact hreachable.not_isOver_of_queued hsettled hqueued
    · by_contra hover
      exact (isOver_iff.mp (Bool.not_eq_false _ ▸ hover)).2 hflight
  rw [List.perm_ext_iff_of_nodup hnodup]
  · intro task
    rw [List.mem_append, List.mem_append (s := scheduler.accepted.filter _), List.mem_filter,
      List.mem_filter]
    constructor
    · intro hmem
      by_cases hover : scheduler.isOver task = true
      · exact Or.inr (Or.inl ⟨hmem, hover⟩)
      · obtain ⟨record, hrecord⟩ := hsound.custody.exists_record_of_accepted hmem
        by_cases hdone : record.isDone = true
        · have hflight : task ∈ scheduler.inFlight := by
            by_contra hnot
            exact hover (isOver_iff.mpr ⟨⟨record, hrecord, hdone⟩, hnot⟩)
          exact Or.inl (List.mem_append_right _ hflight)
        · have hlive : scheduler.IsLive task := ⟨record, hrecord, by simpa using hdone⟩
          by_cases hlost : task ∈ scheduler.lostTasks
          · exact Or.inr (Or.inr ⟨hmem, isForsaken_iff.mpr ⟨hlive, hlost⟩⟩)
          · exact Or.inl (hsound.mem_of_settled hsettled hmem hlive hlost)
    · rintro (hmem | ⟨hmem, -⟩ | ⟨hmem, -⟩)
      · exact hsound.accepted_of_mem hmem
      · exact hmem
      · exact hmem
  · refine List.nodup_append.mpr ⟨hsound.nodup_of_settled hsettled,
      List.nodup_append.mpr ⟨hnodup.filter _, hnodup.filter _, ?_⟩, ?_⟩
    · rintro task hover other hforsaken rfl
      -- A task that is over has come to its end.
      obtain ⟨hdone, -⟩ := isOver_iff.mp (List.mem_filter.mp hover).2
      exact not_isLive_of_done hdone (isForsaken_iff.mp (List.mem_filter.mp hforsaken).2).1
    · rintro task hmem other hfilter rfl
      rcases List.mem_append.mp hfilter with hover | hforsaken
      · exact Bool.false_ne_true ((hdisjoint task hmem).symm.trans (List.mem_filter.mp hover).2)
      · exact hsound.custody.not_lost_of_mem hmem
          (isForsaken_iff.mp (List.mem_filter.mp hforsaken).2).2

end Scheduler

end TimedTasks
