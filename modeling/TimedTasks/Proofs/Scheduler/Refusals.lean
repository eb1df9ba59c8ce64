import TimedTasks.Proofs.Scheduler.Cancelling
import TimedTasks.Proofs.Scheduler.Enlisting

/-!
# A call that is refused leaves no trace

A call that schedules a task makes several steps, and anything may happen between two of them, so
that what it has done itself cannot be read off the states before and after.  `ownSteps` picks out
the steps of one call from a run, and `gained` adds up what these steps have changed.

`Applying` says how far the call has come and what it has done so far: until the last step it has
left no trace, but for being counted among the producers that wait while it is parked; and the
last step either lets the task in or takes that count back.  It holds right after the call has been
made (`applying_request`), and every further step keeps it, whether it is one of this call
(`Applying.of_own`) or not (`Applying.of_other`).
-/

namespace TimedTasks

/-- The answer of a call that schedules a task: its result, unless it panics. -/
def Answer.ofScheduling : Except ClockFault (Except SchedulerError TaskId) → Answer
  | .ok result => .scheduled result
  | .error fault => .panicked fault

theorem Answer.ofScheduling_inj {first second : Except ClockFault (Except SchedulerError TaskId)} :
    ofScheduling first = ofScheduling second ↔ first = second := by
  cases first <;> cases second <;> simp [ofScheduling]

namespace Scheduler

variable {α : Type} {before after asked met scheduler : Scheduler α} {action : Action α}
variable {config : Config} {cores : Nat} {past : List (Scheduler α × Action α)}
variable {submission : Submission α} {patient : Bool} {call : CallId} {task : TaskId}

/-! ## The steps of one call -/

/-- Whether a call makes a step: it is made in it, or goes on. -/
def isOwn (call : CallId) (moment : Scheduler α × Action α) : Bool :=
  match moment.2 with
  | .request _ => moment.1.nextCall == call
  | .proceed other => other == call
  | _ => false

/-- The steps that a call has made, the newest first. -/
def ownSteps (past : List (Scheduler α × Action α)) (call : CallId) :
    List (Scheduler α × Action α) :=
  past.filter (isOwn call)

/-- The state that a step has led to. -/
def outcome (moment : Scheduler α × Action α) : Scheduler α :=
  (moment.1.step moment.2).getD moment.1

/-- By how much steps have raised a measure, all in all. -/
def gained (measure : Scheduler α → Nat) (steps : List (Scheduler α × Action α)) : Int :=
  steps.foldr (fun moment total => measure (outcome moment) - measure moment.1 + total) 0

/-- How many producers are counted as waiting. -/
def waiting (scheduler : Scheduler α) : Nat := scheduler.agenda.queue.blockedProducers

/-- None of the steps has left a trace. -/
def Untraced (steps : List (Scheduler α × Action α)) : Prop :=
  ∀ moment ∈ steps, Traceless moment.1 (outcome moment)

theorem outcome_eq (hstep : before.step action = some after) :
    outcome (before, action) = after := by
  rw [outcome, hstep, Option.getD_some]

theorem gained_cons (measure : Scheduler α → Nat) (last : Scheduler α × Action α)
    (steps : List (Scheduler α × Action α)) :
    gained measure (last :: steps) =
      measure (outcome last) - measure last.1 + gained measure steps := rfl

theorem gained_of_step (measure : Scheduler α → Nat) (hstep : before.step action = some after)
    (steps : List (Scheduler α × Action α)) :
    gained measure ((before, action) :: steps) =
      measure after - measure before + gained measure steps := by
  rw [gained_cons, outcome_eq hstep]

theorem gained_of_eq {measure : Scheduler α → Nat} (hstep : before.step action = some after)
    (hsame : measure after = measure before) (steps : List (Scheduler α × Action α)) :
    gained measure ((before, action) :: steps) = gained measure steps := by
  rw [gained_of_step measure hstep, hsame, Int.sub_self, Int.zero_add]

theorem untraced_cons (hstep : before.step action = some after)
    (htraceless : Traceless before after) {steps : List (Scheduler α × Action α)}
    (huntraced : Untraced steps) : Untraced ((before, action) :: steps) := by
  intro moment hmoment
  rcases List.mem_cons.mp hmoment with rfl | hearlier
  · rw [outcome_eq hstep]
    exact htraceless
  · exact huntraced moment hearlier

theorem ownSteps_cons_of_own (hown : isOwn call (before, action) = true)
    (past : List (Scheduler α × Action α)) :
    ownSteps ((before, action) :: past) call = (before, action) :: ownSteps past call :=
  List.filter_cons_of_pos hown

theorem ownSteps_cons_of_other (hother : isOwn call (before, action) = false)
    (past : List (Scheduler α × Action α)) :
    ownSteps ((before, action) :: past) call = ownSteps past call :=
  List.filter_cons_of_neg (by simp [hother])

theorem Run.lt_next_of_own (hrun : Run config cores past scheduler)
    {moment : Scheduler α × Action α} (hmoment : moment ∈ past)
    (hown : isOwn call moment = true) : call < scheduler.nextCall := by
  induction hrun with
  | start => exact absurd hmoment List.not_mem_nil
  | @step past before after hrun action hstep ih =>
      rcases List.mem_cons.mp hmoment with rfl | hearlier
      · cases action with
        | request request =>
            have hcall : before.nextCall = call := by simpa [isOwn] using hown
            rw [(receives_of_step hstep).nextCall_eq, hcall]
            exact Nat.lt_succ_self call
        | proceed other =>
            obtain rfl : other = call := by simpa [isOwn] using hown
            obtain ⟨stage, hlookup, -⟩ := proceeds_of_step hstep
            exact Nat.lt_of_lt_of_le (hrun.reachable.attended.lt_next hlookup)
              (nextCall_le_of_step hstep)
        | _ => simp [isOwn] at hown
      · exact Nat.lt_of_lt_of_le (ih hearlier) (nextCall_le_of_step hstep)

theorem Run.ownSteps_eq_nil (hrun : Run config cores past scheduler) :
    ownSteps past scheduler.nextCall = [] := by
  refine List.filter_eq_nil_iff.mpr fun moment hmoment hown => ?_
  exact absurd (hrun.lt_next_of_own hmoment hown) (Nat.lt_irrefl _)

/-! ## What a call has looked at -/

/-- The call has waited for room. -/
def Parks (past : List (Scheduler α × Action α)) (call : CallId) : Prop :=
  ∃ moment ∈ past, ∃ task, moment.1.calls.lookup call = some (.parked task)

/-- The state in which a call that was made in `asked` has come to the queue; it does not matter
if the call has been refused before. -/
def Meets (past : List (Scheduler α × Action α)) (asked met : Scheduler α) : Prop :=
  (∃ task patient, (met, .proceed asked.nextCall) ∈ past ∧
      met.calls.lookup asked.nextCall = some (.inserting task patient)) ∨
    met = asked ∧ ∀ state, (state, .proceed asked.nextCall) ∉ past

theorem parks_cons : Parks ((before, action) :: past) call ↔
    (∃ task, before.calls.lookup call = some (.parked task)) ∨ Parks past call := by
  simp [Parks]

theorem Meets.cons (hmeets : Meets past asked met) (hother : action ≠ .proceed asked.nextCall) :
    Meets ((before, action) :: past) asked met := by
  rcases hmeets with ⟨task, patient, hmem, hlookup⟩ | ⟨rfl, hnone⟩
  · exact Or.inl ⟨task, patient, List.mem_cons_of_mem _ hmem, hlookup⟩
  · refine Or.inr ⟨rfl, fun state hmem => ?_⟩
    rcases List.mem_cons.mp hmem with heq | hearlier
    · exact hother (Prod.mk.inj heq).2.symm
    · exact hnone state hearlier

/-! ## How far a call has come -/

/-- What a call that was made in `asked` has been told fits, unless it has been parked. -/
def Told (past : List (Scheduler α × Action α)) (asked : Scheduler α)
    (submission : Submission α) (patient : Bool)
    (result : Except ClockFault (Except SchedulerError TaskId)) : Prop :=
  ¬ Parks past asked.nextCall →
    ∃ met, Meets past asked met ∧ Fits asked met submission patient result

/-- How far a call has come that was made in `asked`, and what it has done itself. -/
inductive Applying (past : List (Scheduler α × Action α)) (scheduler asked : Scheduler α)
    (submission : Submission α) (patient : Bool) : Prop
  /-- It is in progress, and there is nothing to be seen of it but that it waits. -/
  | pending {stage : Call} (hlookup : scheduler.calls.lookup asked.nextCall = some stage)
      (hstage : stage = .inserting asked.agenda.records.size patient ∧
          ¬ Parks past asked.nextCall ∨ stage = .parked asked.agenda.records.size)
      (hvalid : asked.Valid submission) (hrunning : asked.lifecycle = .running)
      (hdue : (scheduler.agenda.dueOf asked.agenda.records.size).nanos =
        asked.agenda.reading.nanos + submission.delay.nanos)
      (huntraced : Untraced (ownSteps past asked.nextCall))
      (hgained : gained waiting (ownSteps past asked.nextCall) = stage.blocks)
  /-- It has been refused or has panicked, and there is nothing to be seen of it. -/
  | refused {result : Except ClockFault (Except SchedulerError TaskId)}
      (hanswer : scheduler.answer? asked.nextCall = some (.ofScheduling result))
      (hrefused : ∀ task, result ≠ .ok (.ok task))
      (htold : Told past asked submission patient result)
      (hparks : Parks past asked.nextCall → result = .ok (.error .closed))
      (huntraced : Untraced (ownSteps past asked.nextCall))
      (hgained : gained waiting (ownSteps past asked.nextCall) = 0)
  /-- Its last step has let the task in. -/
  | accepted {last : Scheduler α × Action α} {earlier : List (Scheduler α × Action α)}
      {due : Moment}
      (hanswer : scheduler.answer? asked.nextCall =
        some (.ofScheduling (.ok (.ok asked.agenda.records.size))))
      (htold : Told past asked submission patient (.ok (.ok asked.agenda.records.size)))
      (hsteps : ownSteps past asked.nextCall = last :: earlier) (huntraced : Untraced earlier)
      (hdue : due.nanos = asked.agenda.reading.nanos + submission.delay.nanos)
      (hadmits : Admits last.1 (outcome last) asked.agenda.records.size due)
      (hgained : gained waiting (ownSteps past asked.nextCall) = 0)

/-! ## The call is made -/

/-- What a call is told that is refused as soon as it is made, or panics. -/
inductive RefusedAt (asked : Scheduler α) (submission : Submission α) :
    Except ClockFault (Except SchedulerError TaskId) → Prop
  | panicked {fault : ClockFault} (hdue : asked.firstDue submission = .error fault) :
      RefusedAt asked submission (.error fault)
  | refused {error : SchedulerError} (hdue : asked.firstDue submission = .ok (.error error)) :
      RefusedAt asked submission (.ok (.error error))

namespace RefusedAt

variable {result : Except ClockFault (Except SchedulerError TaskId)}

theorem request_eq (hrefused : asked.RefusedAt submission result) (patient : Bool) :
    asked.request (.schedule submission patient) =
      asked.numbered.reply asked.nextCall (.ofScheduling result) := by
  cases hrefused with
  | panicked hdue =>
      have hnumbered : asked.numbered.firstDue submission = .error _ := hdue
      simp only [numbered] at hnumbered
      simp only [Scheduler.request, hnumbered]
      rfl
  | refused hdue =>
      have hnumbered : asked.numbered.firstDue submission = .ok (.error _) := hdue
      simp only [numbered] at hnumbered
      simp only [Scheduler.request, hnumbered]
      rfl

theorem ne_ok (hrefused : asked.RefusedAt submission result) (task : TaskId) :
    result ≠ .ok (.ok task) := by
  cases hrefused <;> simp

theorem fits (hrefused : asked.RefusedAt submission result) :
    Fits asked met submission patient result := by
  have hlooks := asked.looks_firstDue submission
  cases hrefused with
  | panicked hdue =>
      rw [hdue] at hlooks
      cases hlooks with
      | panics _ hpanics => exact .of_panics hpanics _
  | refused hdue =>
      rw [hdue] at hlooks
      cases hlooks with
      | invalid fault hinvalid => exact .of_invalid hinvalid fault
      | closed hvalid hlifecycle => exact .of_not_running hvalid hlifecycle

end RefusedAt

/-- A call is refused as soon as it is made, or the first due time of its task is known. -/
theorem refusedAt_or_due (asked : Scheduler α) (submission : Submission α) :
    (∃ result, asked.RefusedAt submission result) ∨
      ∃ due, asked.firstDue submission = .ok (.ok due) := by
  match hfirst : asked.firstDue submission with
  | .error fault => exact Or.inl ⟨_, .panicked hfirst⟩
  | .ok (.error error) => exact Or.inl ⟨_, .refused hfirst⟩
  | .ok (.ok due) => exact Or.inr ⟨due, rfl⟩

theorem Run.not_parks (hrun : Run config cores past scheduler) :
    ¬ Parks past scheduler.nextCall := by
  rintro ⟨⟨state, action⟩, hmoment, task, hlookup⟩
  obtain ⟨later, earlier, rfl⟩ := List.append_of_mem hmoment
  obtain ⟨hstate, after, hstep⟩ := hrun.at_step
  have hle : state.nextCall ≤ scheduler.nextCall :=
    hrun.induction_from (p := fun _ found => state.nextCall ≤ found.nextCall)
      (fun _ hafter => nextCall_le_of_step hafter)
      fun _ _ _ _ _ hfirst hlast => Nat.le_trans hfirst (nextCall_le_of_step hlast)
  exact absurd (hstate.reachable.attended.lt_next hlookup) (Nat.not_lt.mpr hle)

theorem applying_request (hrun : Run config cores past asked)
    (hstep : asked.step (.request (.schedule submission patient)) = some after) :
    Applying ((asked, .request (.schedule submission patient)) :: past) after asked submission
      patient := by
  have hafter : asked.request (.schedule submission patient) = after := Option.some.inj hstep
  have hown : isOwn asked.nextCall (asked, .request (.schedule submission patient)) = true := by
    simp [isOwn]
  have hsteps := ownSteps_cons_of_own hown past
  rw [hrun.ownSteps_eq_nil] at hsteps
  -- The call is new, so it has not made any step before this one.
  have hfresh : ¬ Parks ((asked, .request (.schedule submission patient)) :: past)
      asked.nextCall := by
    have hnone := (hrun.reachable.attended.made asked.nextCall (Nat.le_refl _)).1
    rw [parks_cons, hnone]
    simpa using hrun.not_parks
  rcases asked.refusedAt_or_due submission with ⟨result, hrefused⟩ | ⟨due, hfirst⟩
  · rw [hrefused.request_eq] at hafter
    have htraceless : Traceless asked after := hafter ▸ .of_queue rfl rfl rfl fun _ _ => id
    refine .refused (hafter ▸ answer?_reply_self ..) hrefused.ne_ok
      (fun _ => ⟨asked, ?_, hrefused.fits⟩) (fun hparks => absurd hparks hfresh) ?_ ?_
    · refine Or.inr ⟨rfl, fun state hmem => ?_⟩
      rcases List.mem_cons.mp hmem with heq | hearlier
      · exact absurd (Prod.mk.inj heq).2 (by simp)
      · exact absurd (hrun.lt_next_of_own hearlier (by simp [isOwn])) (Nat.lt_irrefl _)
    · rw [hsteps]
      exact untraced_cons hstep htraceless fun _ hnone => absurd hnone List.not_mem_nil
    · rw [hsteps]
      exact gained_of_eq hstep (hafter ▸ rfl) []
  · have hrecord := record?_of_asked hfirst hstep
    have hlooks := asked.looks_firstDue submission
    rw [request_of_due hfirst] at hafter
    rw [hfirst] at hlooks
    cases hlooks with
    | due hvalid hrunning hdue =>
      have htraceless : Traceless asked after :=
        hafter ▸ .of_queue rfl rfl rfl fun _ _ hfound => record?_draft_of_some hfound _ _
      refine .pending ?_ (Or.inl ⟨rfl, hfresh⟩) hvalid hrunning ?_ ?_ ?_
      · have hnone := (hrun.reachable.attended.made asked.nextCall (Nat.le_refl _)).1
        have hsame : (asked.numbered.draft submission due).1.calls.lookup asked.nextCall =
            none := hnone
        rw [← hafter, lookup_opened, hsame, if_pos rfl]
        rfl
      · rw [dueOf_eq_nextRunAt hrecord]
        exact hdue
      · rw [hsteps]
        exact untraced_cons hstep htraceless fun _ hnone => absurd hnone List.not_mem_nil
      · rw [hsteps]
        exact gained_of_eq hstep (hafter ▸ rfl) []

/-! ## Other steps -/

/-- The due time of a task does not change while a call brings it. -/
theorem Sound.dueOf_of_step (hsound : before.Sound) {stage : Call}
    (hlookup : before.calls.lookup call = some stage) (hdrafts : task ∈ stage.drafts)
    (hstep : before.step action = some after) :
    after.agenda.dueOf task = before.agenda.dueOf task := by
  have hdrafted : task ∈ before.tasksAt .drafted :=
    List.mem_flatMap.mpr ⟨_, mem_calls_of_lookup hlookup, hdrafts⟩
  have hnot : before.completes? action ≠ some task := by
    intro hcompletes
    obtain ⟨worker, job, error?, -, hfind, hleft, -, rfl⟩ := exists_job_of_completes hcompletes
    have hplace : job.place = .running := by rw [Job.place, hleft]
    have hrunning : job.task ∈ before.tasksAt .running :=
      hplace ▸ mem_tasksAt_place (List.mem_of_find?_eq_some hfind)
    exact hsound.custody.not_mem_of_mem hdrafted (by decide) hrunning
  exact (hsound.rests_of_step hstep hnot).dueOf_eq
    (hsound.custody.fitsAt_of_mem hdrafted).exists_record

theorem Told.cons {result : Except ClockFault (Except SchedulerError TaskId)}
    (htold : Told past asked submission patient result)
    (hother : action ≠ .proceed asked.nextCall) :
    Told ((before, action) :: past) asked submission patient result := by
  intro hnever
  obtain ⟨met, hmeets, hfits⟩ := htold fun hparks => hnever (parks_cons.mpr (Or.inr hparks))
  exact ⟨met, hmeets.cons hother, hfits⟩

theorem Applying.of_other (happlying : Applying past before asked submission patient)
    (hrun : Run config cores past before) (hstep : before.step action = some after)
    (hother : isOwn asked.nextCall (before, action) = false) :
    Applying ((before, action) :: past) after asked submission patient := by
  have hproceed : action ≠ .proceed asked.nextCall := by
    rintro rfl
    simp [isOwn] at hother
  have hrequest : ∀ request, action = .request request → asked.nextCall ≠ before.nextCall := by
    rintro request rfl heq
    simp [isOwn, heq] at hother
  obtain ⟨hlookup, hanswer⟩ := aside_of_step hstep hrequest hproceed
  have hsteps := ownSteps_cons_of_other hother past
  have hattended := hrun.reachable.attended
  cases happlying with
  | @pending stage hfound hstage hvalid hrunning hdue huntraced hgained =>
      have hdrafts : asked.agenda.records.size ∈ stage.drafts := by
        rcases hstage with ⟨rfl, -⟩ | rfl <;> exact List.mem_singleton_self _
      refine .pending (hlookup.trans hfound) ?_ hvalid hrunning ?_ (hsteps ▸ huntraced)
        (hsteps ▸ hgained)
      · refine hstage.imp_left fun ⟨hinserting, hnever⟩ => ⟨hinserting, ?_⟩
        rw [parks_cons, hfound, hinserting]
        simpa using hnever
      · rw [hrun.reachable.sound.dueOf_of_step hfound hdrafts hstep]
        exact hdue
  | refused hfound hrefused htold hparks huntraced hgained =>
      refine .refused (hanswer.trans hfound) hrefused (htold.cons hproceed) (fun hnow => ?_)
        (hsteps ▸ huntraced) (hsteps ▸ hgained)
      rw [parks_cons, hattended.closed _ _ hfound] at hnow
      exact hparks (hnow.resolve_left (by simp))
  | accepted hfound htold hown huntraced hdue hadmits hgained =>
      exact .accepted (hanswer.trans hfound) (htold.cons hproceed) (hsteps.trans hown) huntraced
        hdue hadmits (hsteps ▸ hgained)

/-! ## The call goes on -/

theorem applying_of_inserting
    (hstep : before.step (.proceed asked.nextCall) = some after)
    (hlookup : before.calls.lookup asked.nextCall =
      some (.inserting asked.agenda.records.size patient))
    (hnever : ¬ Parks past asked.nextCall) (hvalid : asked.Valid submission)
    (hrunning : asked.lifecycle = .running)
    (hdue : (before.agenda.dueOf asked.agenda.records.size).nanos =
      asked.agenda.reading.nanos + submission.delay.nanos)
    (huntraced : Untraced (ownSteps past asked.nextCall))
    (hgained : gained waiting (ownSteps past asked.nextCall) = 0) :
    Applying ((before, .proceed asked.nextCall) :: past) after asked submission patient := by
  have hsteps := ownSteps_cons_of_own
    (by simp [isOwn] : isOwn asked.nextCall (before, Action.proceed asked.nextCall) = true) past
  have hmeets : Meets ((before, .proceed asked.nextCall) :: past) asked before :=
    Or.inl ⟨_, _, List.mem_cons_self .., hlookup⟩
  have hnever : ¬ Parks ((before, .proceed asked.nextCall) :: past) asked.nextCall := by
    rw [parks_cons, hlookup]
    simpa using hnever
  cases enlists_inserting hlookup hstep with
  | turnedAway hreason =>
      refine .refused (answer?_reply_self .. : _ = some (.ofScheduling (.ok (.error _)))) (by simp)
        (fun _ => ⟨before, hmeets, .of_turnsAway hvalid hrunning hreason⟩)
        (fun hparks => absurd hparks hnever) ?_ ?_
      · rw [hsteps]
        exact untraced_cons hstep (.of_queue rfl rfl rfl fun _ _ => id) huntraced
      · rw [hsteps, gained_of_eq hstep rfl]
        exact hgained
  | admitted hadmission hroom =>
      refine .accepted (answer?_reply_self ..)
        (fun _ => ⟨before, hmeets, .of_room hvalid hrunning hadmission hroom _⟩) hsteps huntraced
        hdue ?_ ?_
      · rw [outcome_eq hstep]
        exact admits_push rfl rfl rfl rfl rfl rfl fun _ _ => id
      · rw [hsteps, gained_of_eq hstep rfl]
        exact hgained
  | parks =>
      refine .pending (lookup_goOn_self hlookup _) (Or.inr rfl) hvalid hrunning hdue ?_ ?_
      · rw [hsteps]
        exact untraced_cons hstep ⟨rfl, rfl, rfl, rfl, rfl, fun _ _ => id⟩ huntraced
      · rw [hsteps, gained_of_step waiting hstep, hgained]
        show ((before.agenda.queue.blockedProducers + 1 : Nat) : Int) -
          before.agenda.queue.blockedProducers + 0 = (1 : Nat)
        omega

theorem applying_of_parked (hrun : Run config cores past before)
    (hstep : before.step (.proceed asked.nextCall) = some after)
    (hlookup : before.calls.lookup asked.nextCall = some (.parked asked.agenda.records.size))
    (hvalid : asked.Valid submission) (hrunning : asked.lifecycle = .running)
    (hdue : (before.agenda.dueOf asked.agenda.records.size).nanos =
      asked.agenda.reading.nanos + submission.delay.nanos)
    (huntraced : Untraced (ownSteps past asked.nextCall))
    (hgained : gained waiting (ownSteps past asked.nextCall) = 1) :
    Applying ((before, .proceed asked.nextCall) :: past) after asked submission patient := by
  have hsteps := ownSteps_cons_of_own
    (by simp [isOwn] : isOwn asked.nextCall (before, Action.proceed asked.nextCall) = true) past
  have hparks : Parks ((before, .proceed asked.nextCall) :: past) asked.nextCall :=
    parks_cons.mpr (Or.inl ⟨_, hlookup⟩)
  have hsound := hrun.reachable.sound
  -- Whoever waits is counted, so that there is a count to be taken back.
  have hback : ∀ {producer : Producer}, producer ∈ before.agenda.queue.producers.woken →
      ((before.agenda.queue.blockedProducers - 1 : Nat) : Int) -
        before.agenda.queue.blockedProducers + 1 = 0 := by
    intro producer hwoken
    have hpos := hsound.queue.counted.blocked_pos hwoken
    omega
  cases enlists_parked hlookup hstep with
  | parksAgain =>
      refine .pending (lookup_goOn_self hlookup _) (Or.inr rfl) hvalid hrunning hdue ?_ ?_
      · rw [hsteps]
        exact untraced_cons hstep ⟨rfl, rfl, rfl, rfl, rfl, fun _ _ => id⟩ huntraced
      · rw [hsteps, gained_of_eq hstep rfl]
        exact hgained
  | givesUp hwoken =>
      refine .refused (answer?_reply_self .. : _ = some (.ofScheduling (.ok (.error .closed))))
        (by simp)
        (fun hnever => absurd hparks hnever) (fun _ => rfl) ?_ ?_
      · rw [hsteps]
        exact untraced_cons hstep ⟨rfl, rfl, rfl, rfl, rfl, fun _ _ => id⟩ huntraced
      · rw [hsteps, gained_of_step waiting hstep, hgained]
        exact hback hwoken
  | @getsIn _ producer hcaller hwoken =>
      have htask := hsound.task_eq (mem_calls_of_lookup hlookup) hcaller
        (List.mem_append_right _ hwoken)
      have hperiodic := hsound.flagged.producer_eq producer (List.mem_append_right _ hwoken)
      refine .accepted (answer?_reply_self ..) (fun hnever => absurd hparks hnever) hsteps
        huntraced hdue ?_ ?_
      · rw [outcome_eq hstep, ← htask]
        exact admits_push rfl rfl rfl hperiodic rfl rfl fun _ _ => id
      · rw [hsteps, gained_of_step waiting hstep, hgained]
        exact hback hwoken

theorem Applying.of_own (happlying : Applying past before asked submission patient)
    (hrun : Run config cores past before)
    (hstep : before.step (.proceed asked.nextCall) = some after) :
    Applying ((before, .proceed asked.nextCall) :: past) after asked submission patient := by
  obtain ⟨found, hfound, -⟩ := proceeds_of_step hstep
  have hunanswered := hrun.reachable.attended.unanswered hfound
  cases happlying with
  | pending hlookup hstage hvalid hrunning hdue huntraced hgained =>
      rcases hstage with ⟨rfl, hnever⟩ | rfl
      · exact applying_of_inserting hstep hlookup hnever hvalid hrunning hdue huntraced hgained
      · exact applying_of_parked hrun hstep hlookup hvalid hrunning hdue huntraced hgained
  | refused hanswer | accepted hanswer =>
      exact absurd (hunanswered.symm.trans hanswer) (by simp)

theorem Run.applying (hrun : Run config cores past scheduler)
    (hasked : (asked, .request (.schedule submission patient)) ∈ past) :
    Applying past scheduler asked submission patient := by
  obtain ⟨later, earlier, rfl⟩ := List.append_of_mem hasked
  obtain ⟨hbefore, -⟩ := hrun.at_step
  -- The number of the call is carried along, since no later request may bear it.
  refine hrun.induction_from
    (p := fun past state => asked.nextCall < state.nextCall ∧
      Applying past state asked submission patient)
    (fun after hstep => ⟨?_, applying_request hbefore hstep⟩) ?_ |>.2
  · rw [(receives_of_step hstep).nextCall_eq]
    exact Nat.lt_succ_self _
  · rintro past first action second hfirst ⟨hlt, happlying⟩ hstep
    refine ⟨Nat.lt_of_lt_of_le hlt (nextCall_le_of_step hstep), ?_⟩
    by_cases hproceed : action = .proceed asked.nextCall
    · subst hproceed
      exact happlying.of_own hfirst hstep
    · refine happlying.of_other hfirst hstep ?_
      cases action with
      | request => simpa [isOwn] using Nat.ne_of_gt hlt
      | proceed other => simpa [isOwn] using hproceed
      | _ => rfl

/-! ## All in all -/

theorem Untraced.gained_eq {steps : List (Scheduler α × Action α)} (huntraced : Untraced steps)
    {measure : Scheduler α → Nat}
    (hmeasure : ∀ {before after : Scheduler α}, Traceless before after →
      measure after = measure before) : gained measure steps = 0 := by
  induction steps with
  | nil => rfl
  | cons moment earlier ih =>
      have hsame := hmeasure (huntraced moment (List.mem_cons_self ..))
      rw [gained_cons, hsame, Int.sub_self, Int.zero_add]
      exact ih fun other hother => huntraced other (List.mem_cons_of_mem _ hother)

/-- How many tasks count as scheduled. -/
def scheduledCount (scheduler : Scheduler α) : Nat := scheduler.agenda.metrics.scheduled

theorem Traceless.pending_eq (htraceless : Traceless before after) :
    after.pending = before.pending := congrArg List.length htraceless.entries_eq

theorem Traceless.scheduledCount_eq (htraceless : Traceless before after) :
    after.scheduledCount = before.scheduledCount := congrArg Metrics.scheduled htraceless.metrics_eq

theorem Admits.pending_eq {due : Moment} (hadmits : Admits before after task due) :
    after.pending = before.pending + 1 := hadmits.takesIn.entries_perm.length_eq

theorem Admits.scheduledCount_eq {due : Moment} (hadmits : Admits before after task due) :
    after.scheduledCount = before.scheduledCount + 1 :=
  congrArg Metrics.scheduled hadmits.metrics_eq

/-- What the steps of a call come to that has been accepted: the last one lets the task in, under
the due time that was asked for, and the others have left no trace. -/
structure LetsIn (steps : List (Scheduler α × Action α)) (task : TaskId) (first : Nat) : Prop where
  exists_last : ∃ last earlier due, steps = last :: earlier ∧ Untraced earlier ∧
    due.nanos = first ∧ Admits last.1 (outcome last) task due
  pending_eq : gained pending steps = 1
  scheduled_eq : gained scheduledCount steps = 1

theorem letsIn_of_last {last : Scheduler α × Action α} {earlier : List (Scheduler α × Action α)}
    {due : Moment} (huntraced : Untraced earlier)
    (hadmits : Admits last.1 (outcome last) task due) :
    LetsIn (last :: earlier) task due.nanos := by
  have hone : ∀ {measure : Scheduler α → Nat}, measure (outcome last) = measure last.1 + 1 →
      gained measure earlier = 0 → gained measure (last :: earlier) = 1 := by
    intro measure hlast hearlier
    rw [gained_cons, hlast, hearlier]
    omega
  exact ⟨⟨last, earlier, due, rfl, huntraced, rfl, hadmits⟩,
    hone hadmits.pending_eq (huntraced.gained_eq Traceless.pending_eq),
    hone hadmits.scheduledCount_eq (huntraced.gained_eq Traceless.scheduledCount_eq)⟩

/-- A call that schedules a task is answered, or it can go on, or it is parked and counted as
waiting.  Unless it has been parked, it is told what fits the two states that it has looked at; it
panics if that takes a clock that cannot be read.  If it is refused, at once or after having been
parked, or panics, none of its steps has left a trace, and the count of those that wait is what it
was before; if it is accepted, one entry has come in by its steps, under the due time that was
asked for, and one more task counts as scheduled.  The same is true of a body that schedules a
task in one go. -/
theorem Run.no_trace_of_refusal (hrun : Run config cores past scheduler)
    (hasked : (asked, .request (.schedule submission patient)) ∈ past) :
    ((∃ result, scheduler.answer? asked.nextCall = some (.ofScheduling result)) ∨
        (∃ task, scheduler.calls.lookup asked.nextCall = some (.inserting task patient) ∧
          ∃ after, scheduler.step (.proceed asked.nextCall) = some after) ∨
        ∃ task, scheduler.calls.lookup asked.nextCall = some (.parked task) ∧
          gained waiting (ownSteps past asked.nextCall) = 1) ∧
      (∀ result, scheduler.answer? asked.nextCall = some (.ofScheduling result) →
        ¬ Parks past asked.nextCall →
          ∃ met, Meets past asked met ∧ Fits asked met submission patient result) ∧
      (∀ result, scheduler.answer? asked.nextCall = some (.ofScheduling result) →
        (∀ task, result ≠ .ok (.ok task)) →
          (Parks past asked.nextCall → result = .ok (.error .closed)) ∧
            Untraced (ownSteps past asked.nextCall) ∧
            gained waiting (ownSteps past asked.nextCall) = 0) ∧
      (∀ task, scheduler.answer? asked.nextCall = some (.scheduled (.ok task)) →
        LetsIn (ownSteps past asked.nextCall) task
            (asked.agenda.reading.nanos + submission.delay.nanos) ∧
          gained waiting (ownSteps past asked.nextCall) = 0) ∧
      ∀ (state : Scheduler α) (nested : Submission α),
        InOneGo state nested (state.submitNow nested) := by
  have happlying := hrun.applying hasked
  have hattended := hrun.reachable.attended
  -- A call that is pending has no answer, which rules it out in every part but the first.
  refine ⟨?_, ?_, ?_, ?_, fun state nested => state.inOneGo_submitNow nested⟩
  · cases happlying with
    | pending hlookup hstage _ _ _ _ hgained =>
        rcases hstage with ⟨rfl, -⟩ | rfl
        · exact Or.inr (Or.inl ⟨_, hlookup, exists_step_of_inserting hlookup⟩)
        · exact Or.inr (Or.inr ⟨_, hlookup, hgained⟩)
    | refused hanswer | accepted hanswer => exact Or.inl ⟨_, hanswer⟩
  · intro result hresult
    cases happlying with
    | pending hlookup =>
        exact absurd ((hattended.closed _ _ hresult).symm.trans hlookup) (by simp)
    | refused hanswer _ htold | accepted hanswer htold =>
        obtain rfl := Answer.ofScheduling_inj.mp (Option.some.inj (hanswer.symm.trans hresult))
        exact htold
  · intro result hresult hrefusal
    cases happlying with
    | pending hlookup =>
        exact absurd ((hattended.closed _ _ hresult).symm.trans hlookup) (by simp)
    | refused hanswer _ _ hparks huntraced hgained =>
        obtain rfl := Answer.ofScheduling_inj.mp (Option.some.inj (hanswer.symm.trans hresult))
        exact ⟨hparks, huntraced, hgained⟩
    | accepted hanswer =>
        obtain rfl := Answer.ofScheduling_inj.mp (Option.some.inj (hanswer.symm.trans hresult))
        exact absurd rfl (hrefusal _)
  · intro task hresult
    have hgiven : scheduler.answer? asked.nextCall = some (.ofScheduling (.ok (.ok task))) :=
      hresult
    cases happlying with
    | pending hlookup =>
        exact absurd ((hattended.closed _ _ hresult).symm.trans hlookup) (by simp)
    | refused hanswer hrefused =>
        have hsame := Answer.ofScheduling_inj.mp (Option.some.inj (hanswer.symm.trans hgiven))
        exact absurd hsame (hrefused task)
    | accepted hanswer _ hsteps huntraced hdue hadmits hgained =>
        have hsame := Answer.ofScheduling_inj.mp (Option.some.inj (hanswer.symm.trans hgiven))
        obtain rfl := Except.ok.inj (Except.ok.inj hsame)
        refine ⟨?_, hgained⟩
        rw [hsteps, ← hdue]
        exact letsIn_of_last huntraced hadmits

/-- A call waits for room in a queue with one place while another one, which does not want to
wait, is turned away.  Then the queue is closed: the first call is refused as well, and has taken
its count back. -/
theorem no_trace_of_refusal_after_a_wait :
    ∃ (past : List (Scheduler Unit × Action Unit)) (scheduler asked : Scheduler Unit),
      Run { capacity := 1 } 1 past scheduler ∧
        (asked, .request (.schedule (plainTask .oneShot (.ofSeconds 2)) true)) ∈ past ∧
        scheduler.answer? asked.nextCall = some (.scheduled (.error .closed)) ∧
        scheduler.answer? 2 = some (.scheduled (.error (.rejected 1))) ∧
        (ownSteps past asked.nextCall).length = 3 ∧ Untraced (ownSteps past asked.nextCall) ∧
        gained waiting (ownSteps past asked.nextCall) = 0 := by
  have hview : ((played { capacity := 1 } 1
      [.request (.schedule (plainTask .oneShot (.ofSeconds 1)) true), .proceed 0]).bind
        fun first => (replay first.1 first.2
          [.request (.schedule (plainTask .oneShot (.ofSeconds 2)) true), .proceed 1,
            .request (.schedule (plainTask .oneShot .zero) false), .proceed 2,
            .request (.shutdown false), .proceed 3, .proceed 3, .proceed 1]).map fun second =>
          (first.2.nextCall, (second.2.answer? 1, second.2.answer? 2),
            (ownSteps second.1 1).length)) =
      some (1, (some (.scheduled (.error .closed)), some (.scheduled (.error (.rejected 1)))),
        3) := by
    decide +kernel
  obtain ⟨⟨past, asked⟩, hplayed, hrest⟩ := Option.bind_eq_some_iff.mp hview
  obtain ⟨⟨whole, scheduler⟩, hreplay, hparts⟩ := Option.map_eq_some_iff.mp hrest
  simp only [Prod.mk.injEq] at hparts
  obtain ⟨hnext, ⟨hrefused, hrejected⟩, hlength⟩ := hparts
  obtain ⟨later, rfl⟩ := exists_append_of_replay_cons hreplay
  have hrun := (Run.of_played hplayed).of_replay hreplay
  have hasked : (asked, .request (.schedule (plainTask .oneShot (.ofSeconds 2)) true)) ∈
      later ++ (asked, .request (.schedule (plainTask .oneShot (.ofSeconds 2)) true)) :: past :=
    List.mem_append_right _ (List.mem_cons_self ..)
  obtain ⟨-, -, hnone, -⟩ := hrun.no_trace_of_refusal hasked
  rw [← hnext] at hrefused hlength
  obtain ⟨-, huntraced, hgained⟩ := hnone (.ok (.error .closed)) hrefused (by simp)
  exact ⟨_, scheduler, asked, hrun, hasked, hrefused, hrejected, hlength, huntraced, hgained⟩

end Scheduler

end TimedTasks
