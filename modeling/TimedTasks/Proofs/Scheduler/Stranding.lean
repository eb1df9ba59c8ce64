import TimedTasks.Proofs.Scheduler.Stopping

/-!
# A dispatcher that sleeps too long

When a queue that drains holds nothing any more and no producer waits, the dispatcher has
nothing left to wait for.  It learns of this unless it was asleep when the last entry was
removed: a removal wakes nobody but a producer, and the dispatcher sleeps on until its timer
runs out, the clock is moved or the queue is closed once more.

Nothing else keeps it asleep.  `Stranding` is about the steps made so far; that it describes
the sleeping dispatcher exactly is shown step by step (`Run.isStranded_iff`).
-/

namespace TimedTasks

namespace Scheduler

open Queue (Strands)

variable {α : Type} {origin before after scheduler : Scheduler α} {action : Action α}
variable {config : Config} {cores : Nat} {past : List (Scheduler α × Action α)} {task : TaskId}

/-! ## What a body does to the queue -/

theorem takers_cancelNow (before : Scheduler α) (task : TaskId) :
    (before.cancelNow task).agenda.queue.takers = before.agenda.queue.takers := by
  rcases before.cancelNow_cases task with hsame | ⟨record, -, -, hcancelled⟩
  · rw [hsame]
  · rw [hcancelled]
    exact Queue.takers_remove _ _

theorem queue_cancelNow (hlive : before.IsLive task) :
    (before.cancelNow task).agenda.queue = before.agenda.queue.apply (.remove task) := by
  obtain ⟨record, hrecord, hnot⟩ := hlive
  rw [cancelNow_of_live hrecord hnot]
  rfl

theorem queue_submitNow {submission : Submission α} {result : Except SchedulerError Unit}
    (hsubmit : before.submitNow submission = .ok (after, result)) :
    after.agenda.queue = before.agenda.queue ∨
      before.agenda.queue.admission = .accepting ∧
        ∃ task periodic due, after.agenda.queue =
          before.agenda.queue.push task periodic due := by
  unfold submitNow at hsubmit
  split at hsubmit
  · simp at hsubmit
  · obtain ⟨rfl, -⟩ := Prod.mk.inj (Except.ok.inj hsubmit)
    exact Or.inl rfl
  · dsimp only at hsubmit
    split at hsubmit
    · obtain ⟨rfl, -⟩ := Prod.mk.inj (Except.ok.inj hsubmit)
      exact Or.inl rfl
    · rename_i agenda hok
      obtain ⟨hadmission, -, rfl⟩ := Agenda.tryInsert_eq_ok hok
      obtain ⟨rfl, -⟩ := Prod.mk.inj (Except.ok.inj hsubmit)
      exact Or.inr ⟨hadmission, _, _, _, rfl⟩

theorem asleep_submitNow {submission : Submission α} {result : Except SchedulerError Unit}
    (hasleep : before.agenda.queue.takers.asleep = [])
    (hsubmit : before.submitNow submission = .ok (after, result)) :
    after.agenda.queue.takers.asleep = [] := by
  rcases queue_submitNow hsubmit with hsame | ⟨-, task, periodic, due, hpush⟩
  · rw [hsame]
    exact hasleep
  · rw [hpush]
    exact Queue.asleep_push hasleep _ _ _

/-- A body that moves the clock wakes the dispatcher. -/
theorem asleep_perform {turn : Turn α} {move : Span} {clock : ManualClock}
    (hadvance : turn.advance? = some move)
    (hclock : before.agenda.clock.advance move = .ok clock) :
    (before.perform turn).1.agenda.queue.takers.asleep = [] := by
  have hpass : before.agenda.passTime turn.advance? =
      .ok { before.agenda with clock, queue := before.agenda.queue.wake } := by
    rw [hadvance, Agenda.passTime, Agenda.advance, hclock]
  unfold perform
  rw [hpass]
  dsimp only
  cases turn.cancel?.bind (Scheduler.named? { before with
      agenda := { before.agenda with clock, queue := before.agenda.queue.wake } }) with
  | none =>
      dsimp only
      split
      · rfl
      · split
        · rfl
        · rename_i hsubmit
          have hafter := asleep_submitNow rfl hsubmit
          exact hafter
  | some task =>
      have hasleep := congrArg Parking.asleep (takers_cancelNow { before with
        agenda := { before.agenda with clock, queue := before.agenda.queue.wake } } task)
      dsimp only
      split
      · exact hasleep
      · split
        · exact hasleep
        · rename_i hsubmit
          have hafter := asleep_submitNow hasleep hsubmit
          exact hafter

/-- A body that cancels a task before it moves the clock removes the task, and no more
happens to a queue that does not accept. -/
theorem queue_perform {turn : Turn α} (hadvance : turn.advance? = none)
    (htask : turn.cancel?.bind before.named? = some task) (hlive : before.IsLive task)
    (hadmission : before.agenda.queue.admission ≠ .accepting) :
    (before.perform turn).1.agenda.queue = before.agenda.queue.apply (.remove task) := by
  have hpass : before.agenda.passTime turn.advance? = .ok before.agenda := by
    rw [hadvance, Agenda.passTime]
  have hcancelled := queue_cancelNow hlive
  unfold perform
  rw [hpass]
  dsimp only
  rw [htask]
  dsimp only
  split
  · exact hcancelled
  · split
    · exact hcancelled
    · rename_i hsubmit
      rcases queue_submitNow hsubmit with hsame | ⟨haccepting, -⟩
      · exact hsame.trans hcancelled
      · rw [hcancelled, Queue.admission_remove] at haccepting
        exact absurd haccepting hadmission

theorem queue_work {worker : Nat} {turn : Turn α} (hplays : before.Plays worker turn)
    (hstep : before.step (.work worker) = some after) :
    after.agenda.queue = (before.perform turn).1.agenda.queue := by
  obtain ⟨job, hfind, hstage, hpasses⟩ := hplays
  simp only [step, hfind, work, hstage, hpasses, if_true] at hstep
  obtain rfl := Option.some.inj hstep
  rfl

/-! ## Steps that strand the dispatcher, and steps that rouse it -/

theorem isStranded_of_removes (hsound : before.Sound) (hremoves : before.Removes action task)
    (hstrands : Strands dispatcherCaller before.agenda.queue task)
    (hstep : before.step action = some after) :
    after.agenda.queue.IsStranded dispatcherCaller := by
  have happly := hstrands.isStranded_apply hsound.queue.wellFormed
  cases action with
  | proceed call =>
      have hlookup : before.calls.lookup call = some (.removing task) := hremoves
      obtain ⟨found, hremove⟩ := before.agenda.remove_eq task
      simp only [step, hlookup, proceed, hremove] at hstep
      obtain rfl := Option.some.inj hstep
      exact happly
  | work worker =>
      obtain ⟨turn, hplays, hadvance, htask, hlive⟩ := hremoves
      have hadmission : before.agenda.queue.admission ≠ .accepting := by
        rw [hstrands.draining]
        decide
      rw [queue_work hplays hstep, queue_perform hadvance htask hlive hadmission]
      exact happly
  | _ => exact hremoves.elim

theorem isAsleep_of_rouses (hsound : before.Sound) (hdrained : before.agenda.queue.IsDrained)
    (hrouses : before.Rouses action) (hstep : before.step action = some after) :
    after.agenda.queue.isAsleep dispatcherCaller = false := by
  refine Queue.isAsleep_eq_false_of_asleep_eq_nil ?_ _
  cases action with
  | announce =>
      simp only [step] at hstep
      split at hstep
      · simp at hstep
      · obtain rfl := Option.some.inj hstep
        rfl
  | expire =>
      obtain rfl := Option.some.inj hstep
      exact Queue.asleep_expire_of_isDrained hsound.queue hdrained
  | proceed call =>
      obtain ⟨drain, hlookup⟩ := hrouses
      simp only [step, hlookup, proceed] at hstep
      obtain rfl := Option.some.inj hstep
      rfl
  | work worker =>
      obtain ⟨turn, move, clock, hplays, hadvance, hclock⟩ := hrouses
      rw [queue_work hplays hstep]
      exact asleep_perform hadvance hclock
  | _ => exact hrouses.elim

theorem isStranded_of_step (hsound : before.Sound)
    (hstranded : before.agenda.queue.IsStranded dispatcherCaller)
    (hquiet : ¬ before.Rouses action) (hstep : before.step action = some after) :
    after.agenda.queue.IsStranded dispatcherCaller := by
  refine Scheduler.of_step hsound hstep
    (p := fun state => state.agenda.queue.IsStranded dispatcherCaller) hstranded ?_
  intro first second hfirst hbefore hmove
  rcases hmove.change hfirst with heq | ⟨operation, hchange, hanswers⟩
  · exact heq ▸ hbefore
  · refine hchange.isStranded hfirst.queue.counted hbefore fun hrouses => hquiet ?_
    cases operation with
    | close drain => exact hanswers.1
    | wake | expire caller => exact hanswers
    | _ => exact hrouses.elim

/-- A step that strands the dispatcher removes the last entry under it. -/
theorem exists_removes_of_isStranded (hsound : before.Sound)
    (hbefore : ¬ before.agenda.queue.IsStranded dispatcherCaller)
    (hstep : before.step action = some after)
    (hafter : after.agenda.queue.IsStranded dispatcherCaller) :
    ∃ task, before.Removes action task ∧
      Strands dispatcherCaller before.agenda.queue task := by
  have hcause : ¬ after.agenda.queue.IsStranded dispatcherCaller ∨
      ∃ task, before.Removes action task ∧ Strands dispatcherCaller before.agenda.queue task := by
    refine Scheduler.of_step hsound hstep
      (p := fun state => ¬ state.agenda.queue.IsStranded dispatcherCaller ∨
        ∃ task, before.Removes action task ∧ Strands dispatcherCaller before.agenda.queue task)
      (Or.inl hbefore) ?_
    rintro first second hfirst (hnot | hfound) hmove
    · rcases hmove.change hfirst with heq | ⟨operation, hchange, hanswers⟩
      · exact Or.inl (heq ▸ hnot)
      · by_cases hsecond : second.agenda.queue.IsStranded dispatcherCaller
        · obtain ⟨task, rfl, hstrands⟩ :=
            hchange.strands_of_isStranded hfirst.queue hnot hsecond
          rcases hanswers with ⟨hremoves, hsame⟩ | hasleep
          · exact Or.inr ⟨task, hremoves, hsame ▸ hstrands⟩
          · -- A body that has moved the clock before finds nobody asleep.
            have hawake := Queue.isAsleep_eq_false_of_asleep_eq_nil hasleep dispatcherCaller
            exact absurd (hawake.symm.trans hstrands.asleep) Bool.false_ne_true
        · exact Or.inl hsecond
    · exact Or.inr hfound
  exact hcause.resolve_left fun hnot => hnot hafter

/-! ## The steps made so far -/

/-- One step has removed the last entry of a draining queue under the sleeping dispatcher,
and no later one has told the dispatcher to look again. -/
def Stranding (past : List (Scheduler α × Action α)) : Prop :=
  ∃ later origin action earlier task, past = later ++ (origin, action) :: earlier ∧
    origin.Removes action task ∧ Strands dispatcherCaller origin.agenda.queue task ∧
    ∀ step ∈ later, ¬ step.1.Rouses step.2

theorem stranding_cons :
    Stranding ((before, action) :: past) ↔
      (∃ task, before.Removes action task ∧
        Strands dispatcherCaller before.agenda.queue task) ∨
      Stranding past ∧ ¬ before.Rouses action := by
  constructor
  · rintro ⟨later, origin, cause, earlier, task, heq, hremoves, hstrands, hquiet⟩
    cases later with
    | nil =>
        obtain ⟨hstep, -⟩ := List.cons.inj heq
        obtain ⟨rfl, rfl⟩ := Prod.mk.inj hstep
        exact Or.inl ⟨task, hremoves, hstrands⟩
    | cons step later =>
        obtain ⟨rfl, hrest⟩ := List.cons.inj heq
        rw [List.forall_mem_cons] at hquiet
        exact Or.inr ⟨⟨later, origin, cause, earlier, task, hrest, hremoves, hstrands, hquiet.2⟩,
          hquiet.1⟩
  · rintro (⟨task, hremoves, hstrands⟩ | ⟨⟨later, origin, cause, earlier, task, rfl, hrest⟩, hlast⟩)
    · exact ⟨[], before, action, past, task, rfl, hremoves, hstrands, by simp⟩
    · obtain ⟨hremoves, hstrands, hquiet⟩ := hrest
      exact ⟨(before, action) :: later, origin, cause, earlier, task, rfl, hremoves, hstrands,
        List.forall_mem_cons.mpr ⟨hlast, hquiet⟩⟩

/-- The dispatcher sleeps on a drained queue exactly when it has been stranded. -/
theorem Run.isStranded_iff (hrun : Run config cores past scheduler) :
    scheduler.agenda.queue.IsStranded dispatcherCaller ↔ Stranding past := by
  induction hrun with
  | start hcreated =>
      constructor
      · rintro ⟨⟨hdraining, -⟩, -⟩
        rw [queue_new hcreated] at hdraining
        exact absurd hdraining Admission.noConfusion
      · rintro ⟨later, origin, action, earlier, task, heq, -⟩
        simp at heq
  | @step past before after hrun action hstep ih =>
      have hsound := hrun.reachable.sound
      rw [stranding_cons, ← ih]
      constructor
      · intro hafter
        by_cases hbefore : before.agenda.queue.IsStranded dispatcherCaller
        · refine Or.inr ⟨hbefore, fun hrouses => ?_⟩
          have hawake := isAsleep_of_rouses hsound hbefore.1 hrouses hstep
          exact Bool.false_ne_true (hawake.symm.trans hafter.2)
        · exact Or.inl (exists_removes_of_isStranded hsound hbefore hstep hafter)
      · -- Either the last step strands the dispatcher, or it leaves it stranded.
        rintro (⟨task, hremoves, hstrands⟩ | ⟨hbefore, hquiet⟩)
        · exact isStranded_of_removes hsound hremoves hstrands hstep
        · exact isStranded_of_step hsound hbefore hquiet hstep

/-! ## What the dispatcher does when nothing is left -/

theorem dispatch_of_asleep (hseeking : scheduler.dispatcher = .seeking)
    (hasleep : scheduler.agenda.queue.isAsleep dispatcherCaller = true) :
    scheduler.step .dispatch = none := by
  simp [step, dispatch, hseeking, hasleep]

theorem dispatch_of_drained (hdrained : scheduler.agenda.queue.IsDrained)
    (hseeking : scheduler.dispatcher = .seeking)
    (hawake : scheduler.agenda.queue.isAsleep dispatcherCaller = false) :
    ∃ after, scheduler.step .dispatch = some after ∧ after.dispatcher = .winding := by
  obtain ⟨hdraining, hentries, hblocked⟩ := hdrained
  -- There is nothing that might be due, so the clock is not read.
  have htake := Agenda.take_eq (fun hasks => absurd hentries (Queue.asksTime_iff.mp hasks).2)
    (Queue.take_of_over hentries hdraining hblocked dispatcherCaller scheduler.agenda.reading)
  simp [step, dispatch, look, hseeking, hawake, htake]

/-- A dispatcher that has ceased needs two more steps at most when no run is in flight. -/
theorem Concluded.stops (hconcluded : scheduler.Concluded)
    (hceased : scheduler.dispatcher.HasCeased) (hactive : scheduler.active = 0)
    (past : List (Scheduler α × Action α)) :
    ∃ n ≤ 2, ∃ steps stopped,
      replay past scheduler (List.replicate n .dispatch) = some (steps, stopped) ∧
        stopped.lifecycle = .stopped := by
  obtain ⟨hbacklog, hjobs⟩ := Nat.add_eq_zero_iff.mp hactive
  rw [List.length_eq_zero_iff] at hbacklog hjobs
  cases hdispatcher : scheduler.dispatcher with
  | seeking | holding task | broken => exact absurd hceased (by rw [hdispatcher]; exact id)
  | winding =>
      refine ⟨2, Nat.le_refl 2, ?_⟩
      simp [replay, step, dispatch, hdispatcher, hbacklog, hjobs]
  | idle =>
      refine ⟨1, by decide, ?_⟩
      simp [replay, step, dispatch, hdispatcher]
  | gone => exact ⟨0, by decide, past, scheduler, rfl, hconcluded.stopped_iff.mpr hdispatcher⟩

/-- When a draining queue holds nothing and nobody waits to come in, the dispatcher sleeps
exactly if it was stranded.  If not, its next step ends its search for tasks, and whatever
happens after that, two more steps at most stop the scheduler once no run is in flight. -/
theorem Run.stops_iff_not_stranding (hrun : Run config cores past scheduler)
    (hdrained : scheduler.agenda.queue.IsDrained) (hseeking : scheduler.dispatcher = .seeking) :
    (scheduler.agenda.queue.isAsleep dispatcherCaller = true ↔ Stranding past) ∧
      (¬ Stranding past ↔
        ∃ after, scheduler.step .dispatch = some after ∧ after.dispatcher = .winding) ∧
      ∀ later final, Run config cores (later ++ (scheduler, .dispatch) :: past) final →
        final.active = 0 → ∃ n ≤ 2, ∃ steps stopped,
          replay (later ++ (scheduler, .dispatch) :: past) final (List.replicate n .dispatch) =
            some (steps, stopped) ∧ stopped.lifecycle = .stopped := by
  have hasleep : scheduler.agenda.queue.isAsleep dispatcherCaller = true ↔ Stranding past := by
    rw [← hrun.isStranded_iff]
    exact ⟨fun hasleep => ⟨hdrained, hasleep⟩, fun hstranded => hstranded.2⟩
  have hsteps : ¬ Stranding past ↔
      ∃ after, scheduler.step .dispatch = some after ∧ after.dispatcher = .winding := by
    rw [← hasleep, Bool.not_eq_true]
    constructor
    · exact dispatch_of_drained hdrained hseeking
    · rintro ⟨after, hstep, -⟩
      refine Bool.eq_false_iff.mpr fun hasleep => ?_
      rw [dispatch_of_asleep hseeking hasleep] at hstep
      simp at hstep
  refine ⟨hasleep, hsteps, fun later final hfinal hactive => ?_⟩
  have hceased : final.dispatcher.HasCeased := by
    refine hfinal.ever_after (p := fun state => state.dispatcher.HasCeased) ?_
      fun _ _ _ _ _ hceased hmove => hmove.hasCeased hceased
    intro after hstep
    -- The step could be made, so the dispatcher was awake.
    have hawake : scheduler.agenda.queue.isAsleep dispatcherCaller = false := by
      refine Bool.eq_false_iff.mpr fun hasleep => ?_
      rw [dispatch_of_asleep hseeking hasleep] at hstep
      simp at hstep
    obtain ⟨same, hsame, hwinding⟩ := dispatch_of_drained hdrained hseeking hawake
    obtain rfl := Option.some.inj (hstep.symm.trans hsame)
    rw [hwinding]
    trivial
  exact hfinal.reachable.concluded.stops hceased hactive _

/-- The last run was in flight when the queue began to drain. -/
theorem stops_after_last_run :
    ∃ (past : List (Scheduler Unit × Action Unit)) (scheduler : Scheduler Unit),
      Run {} 1 past scheduler ∧ scheduler.agenda.queue.IsDrained ∧
        scheduler.dispatcher = .seeking ∧ scheduler.active = 1 ∧
        ∃ after, scheduler.step .dispatch = some after ∧ after.dispatcher = .winding := by
  have hview : (played {} 1
      [.request (.schedule (plainTask .oneShot .zero) true), .proceed 0, .dispatch, .dispatch,
        .dispatch, .request (.shutdown true), .proceed 1]).map (fun result =>
          (decide result.2.agenda.queue.IsDrained, result.2.dispatcher, result.2.active,
            result.2.agenda.queue.isAsleep dispatcherCaller)) =
      some (true, .seeking, 1, false) := by
    decide +kernel
  obtain ⟨⟨past, scheduler⟩, hplayed, hparts⟩ := Option.map_eq_some_iff.mp hview
  simp only [Prod.mk.injEq, decide_eq_true_eq] at hparts
  obtain ⟨hdrained, hseeking, hactive, hawake⟩ := hparts
  have hrun := Run.of_played hplayed
  obtain ⟨hasleep, hsteps, -⟩ := hrun.stops_iff_not_stranding hdrained hseeking
  have hnot : ¬ Stranding past := fun hstranding =>
    Bool.false_ne_true (hawake.symm.trans (hasleep.mpr hstranding))
  exact ⟨past, scheduler, hrun, hdrained, hseeking, hactive, hsteps.mp hnot⟩

/-- The only queued task is cancelled while the dispatcher sleeps until that task is due:
nothing is left to wait for, and nothing can move before the timer runs out. -/
theorem not_stops_after_cancel :
    ∃ (past : List (Scheduler Unit × Action Unit)) (scheduler : Scheduler Unit),
      Run {} 1 past scheduler ∧ scheduler.agenda.queue.IsDrained ∧
        scheduler.dispatcher = .seeking ∧ scheduler.active = 0 ∧
        scheduler.agenda.queue.isAsleep dispatcherCaller = true ∧
        scheduler.lifecycle = .shuttingDown ∧ scheduler.isSettled = true := by
  have hview : (played {} 1
      [.request (.schedule (plainTask .oneShot (.ofSeconds 60)) true), .proceed 0, .dispatch,
        .request (.shutdown true), .proceed 1, .proceed 1, .dispatch, .request (.cancel 0),
        .proceed 2]).map (fun result =>
          (decide result.2.agenda.queue.IsDrained, result.2.dispatcher, result.2.active,
            result.2.agenda.queue.isAsleep dispatcherCaller, result.2.lifecycle,
            result.2.isSettled)) =
      some (true, .seeking, 0, true, .shuttingDown, true) := by
    decide +kernel
  obtain ⟨⟨past, scheduler⟩, hplayed, hparts⟩ := Option.map_eq_some_iff.mp hview
  simp only [Prod.mk.injEq, decide_eq_true_eq] at hparts
  exact ⟨past, scheduler, Run.of_played hplayed, hparts⟩

end Scheduler

end TimedTasks
