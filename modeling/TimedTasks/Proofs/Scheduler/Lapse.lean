import TimedTasks.Proofs.Scheduler.Unattended

/-!
# What becomes of tasks while the clock stands still

A scheduler that is left to itself gives every task all the runs that have come due, and no more
(`Record.runsAhead`).  How often a task has run since some moment determines when it is due next
(`Schedule.nextDue`): with a fixed rate a period later for each run, with a fixed delay a period
after the clock as it stands, however many runs there have been.

`Lapses` says that of a task at any moment in between.  A run that is settled takes the task one
run further and everything else leaves it where it is (`Move.lapses`); and a task of which no run is
in progress and none is due has had all that were ahead of it (`Lapses.lapsed`).
-/

namespace TimedTasks

/-! ## Due times -/

namespace Schedule

/-- When a task that was due at `due` is due next, in nanoseconds, after it has run `count` times
while the clock stood at `now`. -/
def nextDue (schedule : Schedule) (due now : Moment) (count : Nat) : Nat :=
  match schedule with
  | .oneShot => due.nanos
  | .fixedRate period => due.nanos + count * period.nanos
  | .fixedDelay period => if count = 0 then due.nanos else now.nanos + period.nanos

variable {schedule : Schedule} {due now dueAt : Moment} {count : Nat}

@[simp] theorem nextDue_zero (schedule : Schedule) (due now : Moment) :
    schedule.nextDue due now 0 = due.nanos := by
  cases schedule <;> simp [nextDue]

theorem period_pos {period : Span} (hperiod : schedule.period?.any Span.isZero = false)
    (hsome : schedule.period? = some period) : 0 < period.nanos := by
  simpa [hsome, Span.isZero, Nat.pos_iff_ne_zero] using hperiod

/-- A run that is due is one of those that have come due. -/
theorem lt_runsBy (hperiod : schedule.period?.any Span.isZero = false)
    (honce : schedule.isPeriodic = false → count = 0)
    (hdue : schedule.nextDue due now count ≤ now.nanos) : count < schedule.runsBy due now := by
  cases schedule with
  | oneShot =>
      obtain rfl := honce rfl
      exact runsBy_pos _ hdue
  | fixedRate period =>
      refine le_runsDue (period_pos hperiod rfl) fun _ => ?_
      rwa [Nat.succ_sub_one]
  | fixedDelay period =>
      have hpos := period_pos hperiod rfl
      cases count with
      | zero => exact runsBy_pos _ (by simpa [Moment.le_def] using hdue)
      | succ count =>
          simp only [nextDue, Nat.succ_ne_zero, if_false] at hdue
          omega

/-- When the next run is not due, all that have come due are over. -/
theorem runsBy_le (hperiod : schedule.period?.any Span.isZero = false)
    (hearly : now.nanos < schedule.nextDue due now count) : schedule.runsBy due now ≤ count := by
  cases schedule with
  | oneShot =>
      have hnot : ¬ due ≤ now := Nat.not_le.mpr hearly
      rw [runsBy, if_neg hnot]
      exact Nat.zero_le _
  | fixedRate period => exact runsDue_le (period_pos hperiod rfl) hearly
  | fixedDelay period =>
      rw [runsBy]
      split
      · rename_i hdue
        refine Nat.pos_of_ne_zero fun hzero => ?_
        rw [nextDue, if_pos hzero] at hearly
        exact absurd hearly (Nat.not_lt.mpr hdue)
      · exact Nat.zero_le _

/-- As long as the next due time can be represented, a periodic task is re-armed for it. -/
theorem verdict_of_nextDue (hperiodic : schedule.isPeriodic = true)
    (hdueAt : dueAt.nanos = schedule.nextDue due now count)
    (hnext : schedule.nextDue due now (count + 1) < Moment.horizon) (error? : Option TaskError) :
    schedule.verdict .keepGoing dueAt now error? =
      .rearm ⟨schedule.nextDue due now (count + 1)⟩ := by
  have hafter : ∀ {base : Moment} {period : Span}, schedule.nextRun dueAt now = after base period →
      base.nanos + period.nanos = schedule.nextDue due now (count + 1) →
      schedule.verdict .keepGoing dueAt now error? =
        .rearm ⟨schedule.nextDue due now (count + 1)⟩ := by
    intro base period hrun hsum
    have hadd : base.add? period = some ⟨schedule.nextDue due now (count + 1)⟩ :=
      Moment.add?_eq_some_iff.mpr ⟨hsum.symm, hnext⟩
    simp [verdict_of_after hrun, hadd]
  cases schedule with
  | oneShot => exact absurd hperiodic (by decide)
  | fixedRate period =>
      refine hafter rfl ?_
      simp only [nextDue] at hdueAt ⊢
      rw [hdueAt, Nat.succ_mul, Nat.add_assoc]
  | fixedDelay period => exact hafter rfl (by simp [nextDue])

theorem nextDue_succ_le (schedule : Schedule) (due now : Moment) {more : Nat}
    (hless : count < more) :
    schedule.nextDue due now (count + 1) ≤ schedule.nextDue due now more := by
  cases schedule with
  | oneShot => exact Nat.le_refl _
  | fixedRate period => exact Nat.add_le_add_left (Nat.mul_le_mul_right _ hless) _
  | fixedDelay period => rw [nextDue, nextDue, if_neg (by omega), if_neg (by omega)]

theorem runsBy_le_one (honce : schedule.isPeriodic = false) : schedule.runsBy due now ≤ 1 := by
  cases schedule with
  | oneShot =>
      rw [runsBy]
      split <;> omega
  | fixedRate | fixedDelay => exact absurd honce (by simp [isPeriodic, mode, TaskMode.isPeriodic])

end Schedule

/-! ## How far a task has come -/

/-- What there is to know of a task from one call to the next. -/
structure Stand where
  /-- Whether it has come to its end. -/
  isOver : Bool
  runs : Nat
  /-- When it is due next, or was due last, in nanoseconds. -/
  due : Nat
  deriving DecidableEq

namespace Stand

/-- How many runs have come due and not been made. -/
def ahead (schedule : Schedule) (now : Moment) (stand : Stand) : Nat :=
  if stand.isOver then 0 else schedule.runsBy ⟨stand.due⟩ now

/-- A task that has come to its end, or is not due, has no run ahead of it. -/
theorem ahead_eq_zero {stand : Stand} {now : Moment} (schedule : Schedule)
    (hearly : stand.isOver = false → now.nanos < stand.due) : stand.ahead schedule now = 0 := by
  cases hover : stand.isOver with
  | true => exact if_pos hover
  | false =>
      have hlt : now < (⟨stand.due⟩ : Moment) := hearly hover
      have hnot : ¬ (⟨stand.due⟩ : Moment) ≤ now := Nat.not_le.mpr hlt
      rw [ahead, if_neg (Bool.eq_false_iff.mp hover)]
      cases schedule with
      | fixedRate period => rw [Schedule.runsBy, runsDue, if_pos hlt]
      | oneShot | fixedDelay => rw [Schedule.runsBy, if_neg hnot]

/-- How far a task has come once it has had all the runs that have come due. -/
def lapse (schedule : Schedule) (now : Moment) (stand : Stand) : Stand :=
  let count := stand.ahead schedule now
  { isOver := stand.isOver || !schedule.isPeriodic && count == 1
    runs := stand.runs + count
    due := schedule.nextDue ⟨stand.due⟩ now count }

theorem lapse_of_early {stand : Stand} {now : Moment} (schedule : Schedule)
    (hearly : stand.isOver = false → now.nanos < stand.due) : stand.lapse schedule now = stand := by
  rw [lapse, ahead_eq_zero schedule hearly]
  simp

theorem lapse_of_over {stand : Stand} (schedule : Schedule) (now : Moment)
    (hover : stand.isOver = true) : stand.lapse schedule now = stand :=
  lapse_of_early schedule fun hlive => absurd (hover.symm.trans hlive) (by decide)

/-- How far a task has come if it may have been cancelled. -/
def cancelIf (cancelled : Bool) (stand : Stand) : Stand :=
  { stand with isOver := stand.isOver || cancelled }

@[simp] theorem cancelIf_false (stand : Stand) : stand.cancelIf false = stand := by
  simp [cancelIf]

@[simp] theorem isOver_cancelIf (cancelled : Bool) (stand : Stand) :
    (stand.cancelIf cancelled).isOver = (stand.isOver || cancelled) :=
  rfl

end Stand

namespace Record

variable {α : Type}

def stand (record : Record α) : Stand := ⟨record.isDone, record.runs, record.nextRunAt.nanos⟩

/-- How many runs of a task have come due and not been made. -/
def runsAhead (record : Record α) (now : Moment) : Nat :=
  record.stand.ahead record.schedule now

theorem runsAhead_of_done {record : Record α} (hdone : record.isDone = true) (now : Moment) :
    record.runsAhead now = 0 :=
  if_pos hdone

theorem runsAhead_of_live {record : Record α} (hlive : record.isDone = false) (now : Moment) :
    record.runsAhead now = record.schedule.runsBy record.nextRunAt now :=
  if_neg (Bool.eq_false_iff.mp hlive)

/-- Each due time that comes up while the clock stands still can be represented. -/
def StaysRepresentable (record : Record α) (now : Moment) : Prop :=
  record.isPeriodic = true → ∀ count < record.runsAhead now,
    record.schedule.nextDue record.nextRunAt now (count + 1) < Moment.horizon

/-- It is enough to look at the last of these due times. -/
theorem staysRepresentable_of_lapse {record : Record α} {now : Moment}
    (hlast : record.isPeriodic = true →
      (record.stand.lapse record.schedule now).due < Moment.horizon) :
    record.StaysRepresentable now :=
  fun hperiodic _ hcount =>
    Nat.lt_of_le_of_lt (Schedule.nextDue_succ_le _ _ _ hcount) (hlast hperiodic)

/-- A run that is settled as long as the schedule goes on ends a task that does not repeat, and
moves any other on to its next due time. -/
theorem judged_of_due {record : Record α} {due now : Moment} {count : Nat}
    (hrunning : record.state = .running) (honce : record.isPeriodic = false → count = 0)
    (hdue : record.nextRunAt.nanos = record.schedule.nextDue due now count)
    (hnext : record.isPeriodic = true → record.schedule.nextDue due now (count + 1) <
      Moment.horizon) (error? : Option TaskError) {later : Record α}
    (hlater : (record.judged
      (record.schedule.verdict .keepGoing record.nextRunAt now error?)).1 = later) :
    later.nextRunAt.nanos = record.schedule.nextDue due now (count + 1) ∧
      later.isDone = !record.isPeriodic := by
  subst hlater
  rw [Record.isDone, judged_nextRunAt, judged_state, if_pos hrunning]
  cases hperiodic : record.isPeriodic with
  | false =>
      obtain rfl := honce hperiodic
      have hsame : record.schedule.nextDue due now 1 = record.schedule.nextDue due now 0 := by
        unfold Record.isPeriodic at hperiodic
        cases hschedule : record.schedule with
        | oneShot => rfl
        | fixedRate | fixedDelay =>
            rw [hschedule] at hperiodic
            exact absurd hperiodic (by simp [Schedule.isPeriodic, Schedule.mode,
              TaskMode.isPeriodic])
      rw [Schedule.verdict_of_once hperiodic, hsame]
      refine ⟨hdue, ?_⟩
      cases error? <;> rfl
  | true =>
      rw [Schedule.verdict_of_nextDue hperiodic hdue (hnext hperiodic)]
      exact ⟨rfl, rfl⟩

end Record

namespace Scheduler

variable {α : Type} {origin before after scheduler : Scheduler α} {action : Action α}
variable {config : Config} {cores : Nat} {task : TaskId} {start record : Record α}
variable {settled : Nat} {past : List (Scheduler α × Action α)}

/-! ## On the way -/

/-- Where a task stands that had the record `start` and `settled` runs behind it when the clock
came to where it stands. -/
structure Lapses (start : Record α) (settled : Nat) (task : TaskId) (scheduler : Scheduler α)
    (record : Record α) : Prop where
  evolves : start.Evolves record
  stays : start.isDone = true → IsOver task scheduler record
  spared : start.isDone = false → record.state ≠ .cancelled
  course : ∃ count ≤ start.runsAhead scheduler.agenda.reading,
    scheduler.settledRuns task = settled + count ∧
    record.nextRunAt.nanos =
      start.schedule.nextDue start.nextRunAt scheduler.agenda.reading count ∧
    (record.isDone = true ↔ start.isDone = true ∨ start.isPeriodic = false ∧ count = 1)

theorem Lapses.schedule_eq (hlapses : Lapses start settled task scheduler record) :
    record.schedule = start.schedule :=
  hlapses.evolves.schedule_eq

theorem lapses_refl (hover : start.isDone = true → IsOver task scheduler start) :
    Lapses start (scheduler.settledRuns task) task scheduler start where
  evolves := .refl start
  stays := hover
  spared := by
    intro hlive hcancelled
    rw [Record.isDone, hcancelled] at hlive
    exact absurd hlive (by decide)
  course := ⟨0, Nat.zero_le _, rfl, (Schedule.nextDue_zero ..).symm, by simp⟩

/-- What happens between the settlements of runs leaves a task where it is. -/
theorem Lapses.of_rests {later : Record α} (hlapses : Lapses start settled task before record)
    (hmove : Move origin action before after) (hsound : before.Sound)
    (hle : before.inProgress task ≤ before.agenda.entries task)
    (hnow : after.agenda.reading = before.agenda.reading) (hrests : Rests before after task)
    (hrecord : before.record? task = some record) (hlater : after.record? task = some later)
    (hspared : start.isDone = false → later.state ≠ .cancelled) :
    Lapses start settled task after later := by
  obtain ⟨found, hfound, hsame⟩ := hrests.record record hrecord
  obtain rfl := Option.some.inj (hfound.symm.trans hlater)
  obtain ⟨same, hsome, hevolves⟩ := hmove.recordsEvolve hsound.custody task record hrecord
  obtain rfl := Option.some.inj (hsome.symm.trans hlater)
  obtain ⟨count, hcount, hsettled, hdue, hdone⟩ := hlapses.course
  have hover := fun hstart => (hlapses.stays hstart).of_move hmove hsound hrecord hevolves
  have hbalance := hrests.balance
  have hafter := hmove.inProgress_le hsound hle
  refine ⟨hlapses.evolves.trans hevolves, hover, hspared, count, hnow ▸ hcount, ?_, ?_, ?_⟩
  · unfold settledRuns at hsettled ⊢
    omega
  · rw [hsame.due_eq, hdue, hnow]
  · rw [← hdone]
    refine ⟨fun hlast => ?_, hevolves.isDone⟩
    -- A record that is over now had been over before, unless it has just been cancelled.
    cases hstate : same.state with
    | pending | running =>
        rw [Record.isDone, hstate] at hlast
        exact absurd hlast (by decide)
    | completed => exact hsame.finished (Or.inl hstate) ▸ hlast
    | failed => exact hsame.finished (Or.inr hstate) ▸ hlast
    | cancelled =>
        cases hstart : start.isDone with
        | false => exact absurd hstate (hspared hstart)
        | true => exact (hlapses.stays hstart).isDone

/-- A run that is settled had come due, and the next one can be represented. -/
theorem Lapses.exists_due (hlapses : Lapses start settled task before record)
    (hsound : before.Sound) (hpunctual : before.Punctual)
    (hstays : start.StaysRepresentable before.agenda.reading)
    (hsettling : Settling before after task)
    (hrecord : before.record? task = some record) :
    start.isDone = false ∧ record.state = .running ∧ record.isPeriodic = start.isPeriodic ∧
      ∃ count < start.runsAhead before.agenda.reading,
        before.settledRuns task = settled + count ∧
        record.nextRunAt.nanos =
          record.schedule.nextDue start.nextRunAt before.agenda.reading count ∧
        (record.isPeriodic = false → count = 0) ∧
        (record.isPeriodic = true →
          record.schedule.nextDue start.nextRunAt before.agenda.reading (count + 1) <
            Moment.horizon) := by
  obtain ⟨hbusy, hdueNow, -⟩ := hsettling.judged hsound hpunctual hrecord
  have hperiod := hpunctual.period task record hrecord
  obtain ⟨-, -, -, -, -, hone, -⟩ := hsettling
  obtain ⟨count, hcount, hsettled, hdue, hdone⟩ := hlapses.course
  -- A task that was over from the start would have no run in progress.
  have hlive : start.isDone = false := by
    cases hstart : start.isDone with
    | false => rfl
    | true => exact absurd (hone.symm.trans (hlapses.stays hstart).inProgress_eq) (by decide)
  have hrunning : record.state = .running := hbusy.resolve_right (hlapses.spared hlive)
  have hopen : record.isDone = false := by rw [Record.isDone, hrunning]; rfl
  have hsame : record.isPeriodic = start.isPeriodic :=
    congrArg Schedule.isPeriodic hlapses.schedule_eq
  have hahead : start.runsAhead before.agenda.reading =
      record.schedule.runsBy start.nextRunAt before.agenda.reading := by
    rw [Record.runsAhead_of_live hlive, hlapses.schedule_eq]
  rw [← hlapses.schedule_eq] at hdue
  have honce : record.isPeriodic = false → count = 0 := by
    intro honce
    have hle := Nat.le_trans (hahead ▸ hcount) (Schedule.runsBy_le_one honce)
    refine Nat.eq_zero_of_le_zero (Nat.le_of_lt_succ (Nat.lt_of_le_of_ne hle fun hcount => ?_))
    exact Bool.false_ne_true (hopen.symm.trans (hdone.mpr (Or.inr ⟨hsame ▸ honce, hcount⟩)))
  have hless : count < start.runsAhead before.agenda.reading :=
    hahead ▸ Schedule.lt_runsBy hperiod honce (hdue ▸ hdueNow)
  exact ⟨hlive, hrunning, hsame, count, hless, hsettled, hdue, honce,
    fun hperiodic => hlapses.schedule_eq ▸ hstays (hsame ▸ hperiodic) count hless⟩

/-- A run that is settled takes the task one run further. -/
theorem Lapses.of_settling {later : Record α} (hlapses : Lapses start settled task before record)
    (hsound : before.Sound) (hpunctual : before.Punctual)
    (hpolicy : before.agenda.policy = .keepGoing)
    (hnow : after.agenda.reading = before.agenda.reading)
    (hstays : start.StaysRepresentable before.agenda.reading)
    (hsettling : Settling before after task)
    (hle : before.inProgress task ≤ before.agenda.entries task)
    (hrecord : before.record? task = some record) (hlater : after.record? task = some later)
    (hevolves : record.Evolves later)
    (hspared : start.isDone = false → later.state ≠ .cancelled) :
    Lapses start settled task after later := by
  obtain ⟨hlive, hrunning, hsame, count, hless, hsettled, hdue, honce, hhorizon⟩ :=
    hlapses.exists_due hsound hpunctual hstays hsettling hrecord
  obtain ⟨-, -, error?, hjudged⟩ := hsettling.judged hsound hpunctual hrecord
  obtain rfl := Option.some.inj (hjudged.symm.trans hlater)
  obtain ⟨-, -, -, -, hentries, hone, hzero⟩ := hsettling
  rw [hpolicy] at hspared hevolves ⊢
  obtain ⟨hnext, hends⟩ := Record.judged_of_due hrunning honce hdue hhorizon error? rfl
  refine ⟨hlapses.evolves.trans hevolves, ?_, hspared, count + 1, ?_, ?_, ?_, ?_⟩
  · exact fun hstart => absurd (hlive.symm.trans hstart) Bool.false_ne_true
  · exact hnow ▸ hless
  · unfold settledRuns at hsettled ⊢
    omega
  · rw [hnext, hnow, hlapses.schedule_eq]
  · rw [hends, hsame, hlive]
    cases hperiodic : start.isPeriodic with
    | false => simp [honce (hsame.trans hperiodic)]
    | true => simp

/-- No task is given up. -/
theorem Lapses.reason?_eq_none (hlapses : Lapses start settled task before record)
    (hsound : before.Sound) (hpunctual : before.Punctual)
    (hstays : start.StaysRepresentable before.agenda.reading)
    (hsettling : Settling before after task)
    (hrecord : before.record? task = some record) (error? : Option TaskError) :
    (record.schedule.verdict .keepGoing record.nextRunAt before.agenda.reading error?).reason? =
      none := by
  obtain ⟨-, -, -, count, -, -, hdue, -, hhorizon⟩ :=
    hlapses.exists_due hsound hpunctual hstays hsettling hrecord
  cases hperiodic : record.isPeriodic with
  | false => rw [Schedule.verdict_of_once hperiodic]; rfl
  | true => rw [Schedule.verdict_of_nextDue hperiodic hdue (hhorizon hperiodic)]; rfl

/-- Every move of a standing clock that cancels nothing takes the tasks along. -/
theorem Move.lapses (hmove : Move origin action before after) (hsound : before.Sound)
    (hpunctual : before.Punctual) (hpolicy : before.agenda.policy = .keepGoing)
    (hnow : after.agenda.reading = before.agenda.reading)
    (hstays : start.StaysRepresentable before.agenda.reading)
    (hle : before.inProgress task ≤ before.agenda.entries task)
    (hspared : start.isDone = false → ∀ later, after.record? task = some later →
      later.state ≠ .cancelled)
    (hlapses : before.Has task (Lapses start settled task before)) :
    after.Has task (Lapses start settled task after) := by
  obtain ⟨record, hrecord, hlapses⟩ := hlapses
  obtain ⟨later, hlater, hevolves⟩ := hmove.recordsEvolve hsound.custody task record hrecord
  refine ⟨later, hlater, ?_⟩
  rcases hmove.settling_or_rests hsound task with hsettling | hrests
  · exact hlapses.of_settling hsound hpunctual hpolicy hnow hstays hsettling hle hrecord hlater
      hevolves fun hlive => hspared hlive later hlater
  · exact hlapses.of_rests hmove hsound hle hnow hrests hrecord hlater
      fun hlive => hspared hlive later hlater

/-! ## At rest -/

/-- What has become of a task when nothing can move any more: it has had all its runs. -/
structure Lapsed (start : Record α) (now : Moment) (record : Record α) : Prop where
  evolves : start.Evolves record
  stand_eq : record.stand = start.stand.lapse start.schedule now

/-- A task has had its runs when none is in progress and, unless it is over, none is due. -/
theorem Lapses.lapsed (hlapses : Lapses start start.runs task scheduler record)
    (hreachable : Reachable config cores scheduler) (hidle : scheduler.inProgress task = 0)
    (hrecord : scheduler.record? task = some record)
    (hearly : record.isDone = false → scheduler.agenda.reading < record.nextRunAt) :
    Lapsed start scheduler.agenda.reading record := by
  obtain ⟨count, hcount, hruns, hdue, hdone⟩ := hlapses.course
  have hperiod := hreachable.punctual.period task record hrecord
  have hentries : scheduler.agenda.entries task = record.runs := by
    rw [hreachable.tallied, hrecord]
    rfl
  rw [settledRuns, hidle, hentries, Nat.sub_zero] at hruns
  have hall : start.runsAhead scheduler.agenda.reading ≤ count := by
    cases hstart : start.isDone with
    | true => exact Record.runsAhead_of_done hstart _ ▸ Nat.zero_le count
    | false =>
        rw [Record.runsAhead_of_live hstart]
        cases hlast : record.isDone with
        | false =>
            refine Schedule.runsBy_le (hlapses.schedule_eq ▸ hperiod) ?_
            rw [← hdue]
            exact hearly hlast
        | true =>
            obtain ⟨honce, rfl⟩ := (hdone.mp hlast).resolve_left (Bool.eq_false_iff.mp hstart)
            exact Schedule.runsBy_le_one honce
  obtain rfl := Nat.le_antisymm hcount hall
  have hover : record.isDone =
      (start.isDone || !start.isPeriodic && start.runsAhead scheduler.agenda.reading == 1) :=
    Bool.eq_iff_iff.mpr (by simpa using hdone)
  exact ⟨hlapses.evolves, Stand.mk.injEq .. ▸ ⟨hover, hruns, hdue⟩⟩

end Scheduler

end TimedTasks
