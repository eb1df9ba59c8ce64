import TimedTasks.Proofs.Task.Record

/-!
# Tasks whose endings nobody hears

A turn is muted by having it end with no value worth mentioning, whatever it was to end with; a
record is muted by forgetting of its runs how they have ended.  What is left of a one-shot task
that has failed is one that has completed.

Nothing that a record goes through depends on what is forgotten: each operation on a record can be
made on the muted record just as well, and comes to the same once the result is muted.
-/

namespace TimedTasks

variable {α : Type}

/-! ## Scripts -/

/-- The turn without its ending, and without those of the task that it submits. -/
def Turn.muted : Turn α → Turn Unit
  | ⟨gate?, advance?, cancel?, none, _⟩ => { gate?, advance?, cancel?, ending := .value () }
  | ⟨gate?, advance?, cancel?, some (name, delay, script), _⟩ =>
    { gate?, advance?, cancel?, submit? := some (name, delay, fun run => (script run).muted),
      ending := .value () }

def Script.muted (script : Script α) : Script Unit := fun run => (script run).muted

namespace Turn

@[simp] theorem muted_gate? (turn : Turn α) : turn.muted.gate? = turn.gate? := by
  obtain ⟨_, _, _, _ | _, _⟩ := turn <;> rfl

@[simp] theorem muted_advance? (turn : Turn α) : turn.muted.advance? = turn.advance? := by
  obtain ⟨_, _, _, _ | _, _⟩ := turn <;> rfl

@[simp] theorem muted_cancel? (turn : Turn α) : turn.muted.cancel? = turn.cancel? := by
  obtain ⟨_, _, _, _ | _, _⟩ := turn <;> rfl

@[simp] theorem muted_submit? (turn : Turn α) :
    turn.muted.submit? =
      turn.submit?.map fun submission => (submission.1, submission.2.1,
        Script.muted submission.2.2) := by
  obtain ⟨_, _, _, _ | _, _⟩ := turn <;> rfl

@[simp] theorem muted_muted : (turn : Turn α) → turn.muted.muted = turn.muted
  | ⟨_, _, _, none, _⟩ => rfl
  | ⟨gate?, advance?, cancel?, some (name, delay, script), _⟩ => by
    have hscript : (fun run => (script run).muted.muted) = fun run => (script run).muted :=
      funext fun run => muted_muted (script run)
    simp only [muted, hscript]

end Turn

@[simp] theorem Script.muted_muted (script : Script α) :
    Script.muted (Script.muted script) = Script.muted script :=
  funext fun run => (script run).muted_muted

/-! ## Records -/

/-- The state without a failure, unless it is that of a periodic task, which fails only because it
cannot go on. -/
def TaskState.muted (periodic : Bool) : TaskState → TaskState
  | .failed => if periodic then .failed else .completed
  | state => state

namespace TaskState

@[simp] theorem muted_eq_pending {periodic : Bool} {state : TaskState} :
    state.muted periodic = .pending ↔ state = .pending := by
  cases state <;> cases periodic <;> simp [muted]

@[simp] theorem muted_eq_running {periodic : Bool} {state : TaskState} :
    state.muted periodic = .running ↔ state = .running := by
  cases state <;> cases periodic <;> simp [muted]

@[simp] theorem muted_eq_cancelled {periodic : Bool} {state : TaskState} :
    state.muted periodic = .cancelled ↔ state = .cancelled := by
  cases state <;> cases periodic <;> simp [muted]

@[simp] theorem isTerminal_muted (periodic : Bool) (state : TaskState) :
    (state.muted periodic).isTerminal = state.isTerminal := by
  cases state <;> cases periodic <;> rfl

@[simp] theorem muted_muted (periodic : Bool) (state : TaskState) :
    (state.muted periodic).muted periodic = state.muted periodic := by
  cases state <;> cases periodic <;> rfl

end TaskState

namespace Record

/-- The record without what it says of the endings of runs. -/
def muted (record : Record α) : Record Unit where
  name := record.name
  schedule := record.schedule
  script := Script.muted record.script
  nextRunAt := record.nextRunAt
  state := record.state.muted record.isPeriodic
  bodySpent := record.bodySpent
  runs := record.runs
  result? := record.result?.map fun _ => .ok ()

variable (record : Record α)

@[simp] theorem muted_isPeriodic : record.muted.isPeriodic = record.isPeriodic := rfl

theorem muted_pending : record.muted.state = .pending ↔ record.state = .pending :=
  TaskState.muted_eq_pending

theorem muted_running : record.muted.state = .running ↔ record.state = .running :=
  TaskState.muted_eq_running

@[simp] theorem muted_isCancelled : record.muted.isCancelled = record.isCancelled := by
  rw [isCancelled, isCancelled, Bool.eq_iff_iff, beq_iff_eq, beq_iff_eq]
  exact TaskState.muted_eq_cancelled

@[simp] theorem muted_isDone : record.muted.isDone = record.isDone :=
  TaskState.isTerminal_muted ..

@[simp] theorem muted_muted : record.muted.muted = record.muted := by
  simp [muted, isPeriodic, Function.comp_def]

/-! ### Operations -/

theorem start?_muted : record.muted.start? = record.start?.map muted := by
  simp only [start?, muted_pending]
  split <;> rfl

theorem cancel?_muted : record.muted.cancel? = record.cancel?.map muted := by
  have hterminal : record.muted.state.isTerminal = record.state.isTerminal := record.muted_isDone
  simp only [cancel?, hterminal]
  split <;> rfl

theorem finish?_muted (outcome : TaskState) :
    record.muted.finish? (outcome.muted record.isPeriodic) =
      (record.finish? outcome).map muted := by
  simp only [finish?, muted_running]
  split <;> rfl

theorem rearm_muted (next : Moment) :
    record.muted.rearm next = ((record.rearm next).1.muted, (record.rearm next).2) := by
  simp only [rearm, muted_running]
  split <;> rfl

theorem enter_muted :
    record.muted.enter =
      (record.enter.1.muted, record.enter.2.map fun body => (body.1, body.2.muted)) := by
  cases hperiodic : record.isPeriodic with
  | true =>
      have hmuted : record.muted.isPeriodic = true := hperiodic
      rw [enter_of_periodic hperiodic, enter_of_periodic hmuted]
      rfl
  | false =>
      have hmuted : record.muted.isPeriodic = false := hperiodic
      cases hspent : record.bodySpent with
      | true =>
          rw [enter_of_spent hperiodic hspent, enter_of_spent hmuted hspent]
          rfl
      | false =>
          rw [enter_of_fresh hperiodic hspent, enter_of_fresh hmuted hspent]
          rfl

theorem noteFailure_muted (error : TaskError) : (record.noteFailure error).muted = record.muted :=
  rfl

theorem leave_muted (ending : Ending α) :
    record.muted.leave (.value ()) = (record.leave ending).muted := by
  unfold leave
  rw [muted_isPeriodic]
  split
  · cases ending <;> rfl
  · cases ending <;> rfl

end Record

/-! ### Verdicts -/

/-- The verdict on a run of which nobody has heard how it ended. -/
def Verdict.muted (periodic : Bool) : Verdict → Verdict
  | .giveUp error => .giveUp error
  | .finish outcome => .finish (outcome.muted periodic)
  | .rearm next => .rearm next

/-- How a run ends matters to the verdict only if a failure is to stop the task. -/
theorem Schedule.verdict_muted (schedule : Schedule) (dueAt completedAt : Moment)
    (error? : Option TaskError) :
    schedule.verdict .keepGoing dueAt completedAt none =
      (schedule.verdict .keepGoing dueAt completedAt error?).muted schedule.isPeriodic := by
  cases schedule with
  | oneShot => cases error? <;> rfl
  | fixedRate period =>
      rw [verdict_of_after rfl none, verdict_of_after rfl error?]
      cases dueAt.add? period <;> rfl
  | fixedDelay period =>
      rw [verdict_of_after rfl none, verdict_of_after rfl error?]
      cases completedAt.add? period <;> rfl

theorem Schedule.isPeriodic_of_giveUp {schedule : Schedule} {policy : FailurePolicy}
    {dueAt completedAt : Moment} {error? : Option TaskError} {error : TaskError}
    (hverdict : schedule.verdict policy dueAt completedAt error? = .giveUp error) :
    schedule.isPeriodic = true := by
  cases schedule with
  | oneShot => simp [verdict, nextRun] at hverdict
  | fixedRate | fixedDelay => rfl

end TimedTasks
