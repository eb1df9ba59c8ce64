import TimedTasks.Proofs.Scheduler.Latecomers
import TimedTasks.Proofs.Scheduler.Settling

/-!
# Tasks that are handed over

The dispatcher starts the task that it has in hand, unless the task has been cancelled, and
hands it over to the workers in the same step.  How often it has done so with a task is a
matter of the steps made so far (`timesStarted`).  It can also be read off the state that
they lead to: a run that has been handed over waits in the backlog until a worker enters its
body, or is lost as the worker cannot read the clock, and nothing else becomes of it
(`Run.timesStarted_eq`).
-/

namespace TimedTasks

namespace Scheduler

variable {α : Type} {origin before after scheduler : Scheduler α} {action : Action α}
variable {config : Config} {cores : Nat} {past : List (Scheduler α × Action α)} {task : TaskId}

/-- The runs of a task that have been handed over: those whose bodies have been entered, those
that wait for a worker, and those that have been lost on the way. -/
def handedOver (scheduler : Scheduler α) (task : TaskId) : Nat :=
  scheduler.agenda.entries task + scheduler.backlog.count task + scheduler.unentered.count task

theorem Move.lost_suffix (hmove : Move origin action before after) :
    before.lost <:+ after.lost := by
  cases hmove with
  | lostUnentered | lostUncounted => exact List.suffix_cons _ _
  | _ => exact List.suffix_refl _

theorem Move.count_unentered_le (hmove : Move origin action before after) (task : TaskId) :
    before.unentered.count task ≤ after.unentered.count task :=
  (hmove.lost_suffix.sublist.filterMap _).count_le task

theorem Fate.entries_le {first second : Option (Record α) × Nat}
    (hfate : Fate origin action before task first second) : first.2 ≤ second.2 := by
  cases hfate with
  | entered => exact Nat.le_succ _
  | _ => exact Nat.le_refl _

theorem counts_le_of_step (hsound : before.Sound) (hstep : before.step action = some after)
    (task : TaskId) :
    before.agenda.entries task ≤ after.agenda.entries task ∧
      before.unentered.count task ≤ after.unentered.count task := by
  refine of_step (p := fun state => before.agenda.entries task ≤ state.agenda.entries task ∧
    before.unentered.count task ≤ state.unentered.count task) hsound hstep
    ⟨Nat.le_refl _, Nat.le_refl _⟩ ?_
  rintro first second hfirst ⟨hentries, hlost⟩ hmove
  exact ⟨Nat.le_trans hentries (hmove.fate hfirst.custody task).entries_le,
    Nat.le_trans hlost (hmove.count_unentered_le task)⟩

theorem begun_add_unentered (scheduler : Scheduler α) (task : TaskId) :
    scheduler.begun task + scheduler.unentered.count task =
      scheduler.handedOver task + scheduler.dispatcher.hand.count task := by
  rw [begun, handedOver, List.count_append]
  omega

/-- What has begun has been handed over, except for what the dispatcher has in hand. -/
theorem handedOver_of_begun (hbegun : after.begun task = before.begun task)
    (hdispatcher : after.dispatcher = before.dispatcher) (hlost : after.lost = before.lost) :
    after.handedOver task = before.handedOver task := by
  have hbefore := begun_add_unentered before task
  have hafter := begun_add_unentered after task
  rw [hbegun, hdispatcher, unentered, hlost] at hafter
  rw [unentered] at hbefore
  omega

/-- Whether an action starts a task. -/
def Launches (scheduler : Scheduler α) : Action α → TaskId → Prop
  | .dispatch, task => scheduler.Starts task
  | _, _ => False

instance (scheduler : Scheduler α) (task : TaskId) : Decidable (scheduler.Starts task) :=
  decidable_of_iff (scheduler.dispatcher = .holding task ∧
    ∃ record ∈ scheduler.record? task, record.state = .pending) Iff.rfl

instance (scheduler : Scheduler α) (task : TaskId) :
    (action : Action α) → Decidable (scheduler.Launches action task)
  | .dispatch => inferInstanceAs (Decidable (scheduler.Starts task))
  | .request _ | .proceed _ | .advance _ | .announce | .expire | .takeUp _ | .work _ | .release _
  | .observe _ => .isFalse id

/-- How many of the steps so far have started a task. -/
def timesStarted (past : List (Scheduler α × Action α)) (task : TaskId) : Nat :=
  past.countP fun step => decide (step.1.Launches step.2 task)

/-! ## One step -/

/-- A run is handed over only by the dispatcher, and then there is one more of them. -/
theorem Move.handedOver_cases (hmove : Move origin action before after)
    (hcustody : before.Custody) (task : TaskId) :
    after.handedOver task = before.handedOver task ∨
      action = .dispatch ∧ before.Starts task ∧
        after.handedOver task = before.handedOver task + 1 := by
  cases hmove with
  | @started moved record _ hdispatcher hrecord hpending hcause =>
      have hcount : (before.backlog ++ [moved]).count task =
          before.backlog.count task + if moved = task then 1 else 0 := by
        rw [List.count_append, List.count_singleton]
        simp only [beq_iff_eq]
      by_cases htask : moved = task
      · subst htask
        refine Or.inr ⟨hcause, ⟨hdispatcher, record, hrecord, hpending⟩, ?_⟩
        rw [if_pos rfl] at hcount
        show before.agenda.entries moved + (before.backlog ++ [moved]).count moved +
          before.unentered.count moved = _
        rw [hcount, handedOver]
        omega
      · rw [if_neg htask] at hcount
        refine Or.inl ?_
        show before.agenda.entries task + (before.backlog ++ [moved]).count task +
          before.unentered.count task = _
        rw [hcount, Nat.add_zero, handedOver]
  | @tookUp _ _ worker htask =>
      refine Or.inl
        (handedOver_of_begun (begun_of_tookUp hcustody htask worker ?_ ?_ ?_ task) ?_ ?_)
      all_goals rfl
  | @lostUnentered _ moved _ htask =>
      -- The run is lost instead of waiting.
      have hcount := (perm_cons_eraseIdx htask).count_eq task
      have hlost : (moved :: before.unentered).count task =
          before.unentered.count task + if moved == task then 1 else 0 := List.count_cons
      rw [List.count_cons] at hcount
      refine Or.inl ?_
      show before.agenda.entries task + (before.backlog.eraseIdx _).count task +
        (moved :: before.unentered).count task = _
      rw [hlost, handedOver]
      omega
  | settled hjob _ hsettle | rearmed hjob _ hsettle =>
      refine Or.inl
        (handedOver_of_begun (begun_of_settle hcustody hjob hsettle ?_ ?_ ?_ task) ?_ ?_)
      all_goals rfl
  | _ => exact Or.inl rfl

/-- A task that is started is handed over to the workers. -/
theorem dispatch_of_starts (hstarts : scheduler.Starts task) :
    ∃ after, scheduler.step .dispatch = some after ∧
      after.handedOver task = scheduler.handedOver task + 1 := by
  obtain ⟨hholding, record, hrecord, hpending⟩ := hstarts
  simp only [step, dispatch, hholding]
  cases hstart : scheduler.agenda.start task with
  | mk agenda started =>
      cases started with
      | true =>
          obtain ⟨found, -, -, rfl⟩ := Agenda.start_eq_true hstart
          refine ⟨_, rfl, ?_⟩
          show scheduler.agenda.entries task + (scheduler.backlog ++ [task]).count task +
            scheduler.unentered.count task = _
          rw [List.count_append, List.count_singleton_self, handedOver]
          omega
      | false => exact absurd hpending ((Agenda.start_eq_false hstart).2 record hrecord)

/-- What is handed over is what is started. -/
theorem handedOver_step (hsound : before.Sound) (hstep : before.step action = some after)
    (task : TaskId) :
    after.handedOver task =
      before.handedOver task + if before.Launches action task then 1 else 0 := by
  by_cases hlaunches : before.Launches action task
  · rw [if_pos hlaunches]
    cases action with
    | dispatch =>
        obtain ⟨found, hfound, heq⟩ := dispatch_of_starts hlaunches
        obtain rfl := Option.some.inj (hstep.symm.trans hfound)
        exact heq
    | _ => exact hlaunches.elim
  · rw [if_neg hlaunches, Nat.add_zero]
    cases action with
    | dispatch =>
        refine ((move_dispatch hstep).handedOver_cases hsound.custody task).resolve_right ?_
        exact fun hstarted => hlaunches hstarted.2.1
    | _ =>
        refine of_step (p := fun state => state.handedOver task = before.handedOver task)
          hsound hstep rfl fun first second hfirst heq hmove => ?_
        rcases hmove.handedOver_cases hfirst.custody task with hsame | ⟨hcause, -⟩
        · exact hsame.trans heq
        · cases hcause

/-- A worker that takes a task up enters its body, if it can read the clock. -/
theorem Sound.entries_of_takeUp (hsound : scheduler.Sound) {position : Nat}
    (htask : scheduler.backlog[position]? = some task)
    (hstep : scheduler.step (.takeUp position) = some after) :
    after.agenda.entries task =
      scheduler.agenda.entries task + if scheduler.agenda.clock.isReadable then 1 else 0 := by
  obtain ⟨record, run, turn, hrecord, hbody⟩ := hsound.custody.exists_body htask
  simp only [step, takeUp, htask] at hstep
  split at hstep
  · rename_i taken worker htaken hworker
    obtain rfl := Option.some.inj htaken
    cases hreadable : scheduler.agenda.clock.isReadable with
    | true =>
        rw [Agenda.now_of_readable hreadable] at hstep
        obtain rfl := Option.some.inj hstep
        show (scheduler.agenda.enter task worker scheduler.agenda.reading).1.entries task = _
        rw [Agenda.enter_eq hrecord hbody worker]
        exact (Agenda.entries_note_entered ..).trans (congrArg _ (if_pos rfl))
    | false =>
        rw [Agenda.now_of_unreadable hreadable] at hstep
        obtain rfl := Option.some.inj hstep
        rfl
  · simp at hstep

/-! ## A whole run -/

/-- Every run that has been handed over has had its body entered, waits for a worker, or has
been lost on the way. -/
theorem Run.timesStarted_eq (hrun : Run config cores past scheduler) (task : TaskId) :
    timesStarted past task = scheduler.handedOver task := by
  induction hrun with
  | start hcreated =>
      obtain rfl := new_eq_ok hcreated
      rfl
  | @step past before after hrun action hstep ih =>
      have hcount : timesStarted ((before, action) :: past) task =
          timesStarted past task + if before.Launches action task then 1 else 0 := by
        simp only [timesStarted, List.countP_cons, decide_eq_true_eq]
      calc timesStarted ((before, action) :: past) task
          = before.handedOver task + if before.Launches action task then 1 else 0 := by
            rw [hcount, ih]
        _ = after.handedOver task := (handedOver_step hrun.reachable.sound hstep task).symm

end Scheduler

end TimedTasks
