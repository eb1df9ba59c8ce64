import TimedTasks.Proofs.Scheduler.CatchUp
import TimedTasks.Proofs.Task.Contest

/-!
# The lives of tasks

Whatever a scheduler does to a record, it does by calls on it (`Reachable.contested`), so that
what can be said of any calls that compete for a record holds of every record of a scheduler.

A scheduler makes its calls in an order that rules out more.  It rearms a record only on a
verdict, and only periodic tasks are to run again; so a one-shot task that has left the pending
state does not return to it (`Run.not_pending`).  In the same way only one-shot tasks complete.
-/

namespace TimedTasks

/-- A run of a one-shot task is its last one. -/
theorem Record.judged_ne_pending {α : Type} {record : Record α} (honce : record.isPeriodic = false)
    (hbegun : record.state ≠ .pending) (policy : FailurePolicy) (dueAt completedAt : Moment)
    (error? : Option TaskError) :
    (record.judged (record.schedule.verdict policy dueAt completedAt error?)).1.state ≠
      .pending := by
  rw [Record.judged_state, Schedule.verdict_of_once honce]
  split
  · cases error? <;> simp [Verdict.outcome]
  · exact hbegun

namespace Scheduler

variable {α : Type} {origin before after scheduler : Scheduler α} {action : Action α}
variable {config : Config} {cores : Nat} {task : TaskId}
variable {past : List (Scheduler α × Action α)}

/-! ## Records are changed by calls -/

/-- All records have been brought about by calls. -/
def AllContested (scheduler : Scheduler α) : Prop :=
  ∀ task record, scheduler.record? task = some record → record.Contested

/-- One record changes. -/
theorem AllContested.of_record (hbefore : before.AllContested) {moved : TaskId}
    {record later : Record α} (hrecord : before.record? moved = some record)
    (hafter : ∀ other, after.record? other =
      if other = moved then some later else before.record? other)
    (hlater : record.Contested → later.Contested) : after.AllContested := by
  intro task found hfound
  rw [hafter] at hfound
  split at hfound
  · obtain rfl := Option.some.inj hfound
    exact hlater (hbefore moved record hrecord)
  · exact hbefore task found hfound

/-- A record is added. -/
theorem AllContested.of_draft (hbefore : before.AllContested) {submission : Submission α}
    {due : Moment}
    (hrecords : after.agenda.records = (before.draft submission due).1.agenda.records) :
    after.AllContested := by
  intro task found hfound
  have hafter : after.record? task = (before.draft submission due).1.record? task :=
    congrArg (·[task]?) hrecords
  rw [hafter, record?_draft] at hfound
  split at hfound
  · obtain rfl := Option.some.inj hfound
    exact .new _ _ _ _
  · exact hbefore task found hfound

theorem Move.allContested (hmove : Move origin action before after) (hcustody : before.Custody)
    (hbefore : before.AllContested) : after.AllContested := by
  cases hmove with
  | drafted | submittedInVain | submitted => exact hbefore.of_draft rfl
  | cancelBegun _ hrecord hlive | cancelledInBody _ hrecord hlive | swept _ hrecord hlive
  | dropped _ _ hrecord hlive =>
      exact hbefore.of_record hrecord (record?_withRecord hrecord _) fun hcontested =>
        hcontested.cancel (Record.cancel?_eq_some.mpr ⟨hlive, rfl⟩)
  | started _ _ hrecord hpending =>
      refine hbefore.of_record hrecord (record?_withRecord hrecord _) fun hcontested => ?_
      have hstarted := hcontested.start
      rwa [Record.start?_eq_some.mpr ⟨hpending, rfl⟩] at hstarted
  | @tookUp _ _ worker htask =>
      obtain ⟨record, run, turn, hrecord, hbody⟩ := hcustody.exists_body htask
      refine hbefore.of_record hrecord (fun other => ?_) Record.Contested.enter
      show (before.agenda.enter _ worker before.agenda.reading).1.records[other]? = _
      rw [Agenda.enter_eq hrecord hbody worker]
      exact Agenda.records_withRecord hrecord
  | ended ending hjob =>
      obtain ⟨record, hrecord⟩ := (hcustody.fitsAt_of_mem (mem_tasksAt_place hjob)).exists_record
      exact hbefore.of_record hrecord (Agenda.records_update hrecord _) fun hcontested =>
        hcontested.leave ending
  | settled hjob _ hsettle | rearmed hjob _ hsettle =>
      obtain ⟨record, hrecord⟩ := (hcustody.fitsAt_of_mem (mem_tasksAt_place hjob)).exists_record
      exact hbefore.of_record hrecord (Agenda.judged_of_settle hrecord hsettle).1
        fun hcontested => hcontested.judged
  | _ => exact hbefore

/-- Every record of a scheduler has been brought about by calls on it. -/
theorem Reachable.contested (hreachable : Reachable config cores scheduler) {record : Record α}
    (hrecord : scheduler.record? task = some record) : record.Contested := by
  refine hreachable.induction_on_moves (p := AllContested)
    (fun first hcreated task record hrecord => ?_)
    (fun _ _ _ _ hsound hfirst hmove => hmove.allContested hsound.custody hfirst)
    task record hrecord
  obtain ⟨hnone, -⟩ := Prod.mk.inj (standing_new hcreated task)
  exact absurd (hnone.symm.trans hrecord) (by simp)

/-! ## One-shot tasks do not return -/

/-- The task has left the pending state, if it is one-shot. -/
def HasBegun (scheduler : Scheduler α) (task : TaskId) : Prop :=
  scheduler.Has task fun record => record.isPeriodic = false → record.state ≠ .pending

theorem Move.hasBegun (hmove : Move origin action before after) (hsound : before.Sound)
    (hbegun : before.HasBegun task) : after.HasBegun task := by
  obtain ⟨record, hrecord, hstate⟩ := hbegun
  obtain ⟨found, hfound, hevolves⟩ := hmove.recordsEvolve hsound.custody task record hrecord
  refine ⟨found, hfound, fun honce => ?_⟩
  have hbefore : record.isPeriodic = false := hevolves.isPeriodic_eq.symm.trans honce
  rcases hmove.settling_or_rests hsound task with hsettling | hrests
  · obtain @⟨job, error?, -, -, -, hjudged, -⟩ := hsettling
    obtain rfl := Option.some.inj ((hjudged record hrecord).symm.trans hfound)
    exact Record.judged_ne_pending hbefore (hstate hbefore) _ _ _ _
  · obtain ⟨later, hlater, hrest⟩ := hrests.record record hrecord
    obtain rfl := Option.some.inj (hlater.symm.trans hfound)
    exact fun hpending => hstate hbefore (hrest.pending hpending)

/-- A one-shot task that has left the pending state does not return to it. -/
theorem Run.not_pending (hrun : Run config cores past scheduler) {record earlier : Record α}
    (hrecord : scheduler.record? task = some record) (honce : record.isPeriodic = false)
    {moment : Scheduler α × Action α} (hmoment : moment ∈ past)
    (hearlier : moment.1.record? task = some earlier) (hbegun : earlier.state ≠ .pending) :
    record.state ≠ .pending := by
  obtain ⟨later, sooner, rfl⟩ := List.append_of_mem hmoment
  obtain ⟨hbefore, -⟩ := hrun.at_step
  have hhas : moment.1.HasBegun task := ⟨earlier, hearlier, fun _ => hbegun⟩
  have hlast : scheduler.HasBegun task :=
    hrun.ever_after (p := fun state => state.HasBegun task)
      (fun after hstep => of_step (p := fun state => state.HasBegun task) hbefore.reachable.sound
        hstep hhas fun _ _ hsound hfirst hmove => hmove.hasBegun hsound hfirst)
      fun _ _ _ _ hsound hfirst hmove => hmove.hasBegun hsound hfirst
  exact hlast.holds hrecord honce

/-- The life of a task.

Whoever calls on a record, and in whatever order the calls take turns, the state of the record
stays or moves along an arrow with each access; a final state is not left; a call that is not
told that it has succeeded has not moved the state; of all the calls to finish or to cancel the
task exactly one is told that it has done so if the record is settled, and none otherwise; and a
one-shot body is entered once at most.

All this holds of the records of a scheduler, which are changed by such calls only.  Besides, a
periodic task never completes, and a one-shot task that has left the pending state does not
return to it. -/
theorem lifetimes :
    (∀ (accesses : List (Record α × Access α)) (calls : List (Access α)) (record : Record α),
      Contest accesses calls record → Contest.Lifetime accesses record) ∧
    ∀ (config : Config) (cores : Nat) (past : List (Scheduler α × Action α))
      (scheduler : Scheduler α), Run config cores past scheduler →
      ∀ task record, scheduler.record? task = some record →
        record.Contested ∧ (record.isPeriodic = true → record.state ≠ .completed) ∧
        (record.isPeriodic = false → ∀ moment ∈ past, ∀ earlier,
          moment.1.record? task = some earlier → earlier.state ≠ .pending →
            record.state ≠ .pending) := by
  refine ⟨fun _ _ _ hcontest => hcontest.lifetime, fun _ _ _ _ hrun task record hrecord =>
    ⟨hrun.reachable.contested hrecord, hrun.reachable.not_completed hrecord, ?_⟩⟩
  exact fun honce moment hmoment earlier hearlier hbegun =>
    hrun.not_pending hrecord honce hmoment hearlier hbegun

/-- A task is started between the look and the swap of a call that is to cancel it.  The call
tries again and cancels the run, and the worker is told that it has not completed the task.  In a
scheduler a one-shot task that has been started is not pending any more. -/
theorem lifetimes_of_cancelled_run :
    (∃ (accesses : List (Record Unit × Access Unit)) (record : Record Unit),
      Contest accesses [] record ∧ record.state = .cancelled ∧ accesses.length = 5 ∧
      Contest.settlements accesses = 1) ∧
    ∃ (past : List (Scheduler Unit × Action Unit)) (scheduler : Scheduler Unit)
      (record : Record Unit), Run { workers := 1 } 4 past scheduler ∧
      scheduler.record? 0 = some record ∧ record.isPeriodic = false ∧
      record.state ≠ .pending := by
  have hplay : (Contest.play (α := Unit) [] []
      { name := "", schedule := .oneShot, script := fun _ => { ending := .value () },
        nextRunAt := .origin }
      [.inl .cancel, .inl .start, .inr 1, .inr 0, .inr 0,
        .inl (.finish .completed (Or.inl rfl)), .inr 1, .inr 0]).map
        (fun result => (result.1.length, result.2.1.length, result.2.2.state)) =
      some (5, 0, .cancelled) := by
    decide +kernel
  have hplayed : (played { workers := 1 } 4
      [.request (.schedule (plainTask .oneShot .zero) true), .proceed 0, .dispatch, .dispatch,
        .takeUp 0]).map (fun result =>
          (result.1.head?.bind fun moment => (moment.1.record? 0).map Record.state,
            (result.2.record? 0).map Record.isPeriodic)) =
      some (some .running, some false) := by
    decide +kernel
  constructor
  · obtain ⟨⟨accesses, calls, record⟩, hresult, hparts⟩ := Option.map_eq_some_iff.mp hplay
    simp only [Prod.mk.injEq] at hparts
    obtain ⟨hlength, hover, hstate⟩ := hparts
    have hcontest := Contest.of_play (.start _ _ _ _) hresult
    obtain rfl := List.eq_nil_of_length_eq_zero hover
    have hlife := (lifetimes (α := Unit)).1 accesses [] record hcontest
    refine ⟨accesses, record, hcontest, hstate, hlength, hlife.settlements_eq.trans ?_⟩
    rw [Record.isDone, hstate]
    rfl
  · obtain ⟨⟨past, scheduler⟩, hresult, hparts⟩ := Option.map_eq_some_iff.mp hplayed
    simp only [Prod.mk.injEq] at hparts
    obtain ⟨hfirst, hlast⟩ := hparts
    obtain ⟨moment, hmoment, hrunning⟩ := Option.bind_eq_some_iff.mp hfirst
    obtain ⟨earlier, hearlier, hstate⟩ := Option.map_eq_some_iff.mp hrunning
    obtain ⟨record, hrecord, honce⟩ := Option.map_eq_some_iff.mp hlast
    have hrun := Run.of_played hresult
    obtain ⟨-, -, hstays⟩ := (lifetimes (α := Unit)).2 _ _ past scheduler hrun 0 record hrecord
    refine ⟨past, scheduler, record, hrun, hrecord, honce, ?_⟩
    exact hstays honce moment (List.mem_of_mem_head? hmoment) earlier hearlier
      (by rw [hstate]; decide)

end Scheduler

end TimedTasks
