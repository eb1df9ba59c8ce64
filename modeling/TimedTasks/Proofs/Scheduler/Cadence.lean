import TimedTasks.Proofs.Scheduler.Starting

/-!
# The cadence of a fixed rate

With a fixed rate, the run after the first `count` runs is due `count` periods after the first
one.  Nothing in this sum is a reading of the clock, so it does not matter how late the
runs have started, how long they have taken or how they have ended.

`Cadence` is what every move keeps.  While a run is in progress the record has the due time of
that run, and when the run is settled a period is added; so the due time and the runs in
progress stay in step with the runs that have been entered.  They part only when the next due
time cannot be represented (`RunsOut`), and then no further run is entered.
-/

namespace TimedTasks

theorem Moment.add?_eq_none_iff {moment : Moment} {span : Span} :
    moment.add? span = none ↔ horizon ≤ moment.nanos + span.nanos := by
  simp [add?, isRepresentable]

/-- A run of a periodic task is followed by another one, or it is the last one because the next
due time cannot be represented. -/
theorem Record.IsBusy.judged_of_after {α : Type} {record later : Record α} {period : Span}
    (hbusy : record.IsBusy) {base completedAt : Moment}
    (hnext : record.schedule.nextRun record.nextRunAt completedAt = Schedule.after base period)
    {error? : Option TaskError}
    (hlater : (record.judged
      (record.schedule.verdict .keepGoing record.nextRunAt completedAt error?)).1 = later) :
    (later.nextRunAt.nanos = base.nanos + period.nanos ∧ later.state ≠ .failed) ∨
      Moment.horizon ≤ base.nanos + period.nanos ∧ later.isDone = true ∧
        later.lastError? = some (.outOfRange period) := by
  rw [Schedule.verdict_of_after hnext] at hlater
  subst hlater
  cases hadd : base.add? period with
  | some next =>
      have hnext : (record.judged (.rearm next)).1.nextRunAt = next := record.judged_nextRunAt _
      refine Or.inl ⟨?_, ?_⟩
      · exact (congrArg Moment.nanos hnext).trans (Moment.add?_eq_some_iff.mp hadd).1
      · show (record.judged (.rearm next)).1.state ≠ .failed
        rw [Record.judged_state]
        rcases hbusy with hstate | hstate <;> simp [hstate, Verdict.outcome]
  | none =>
      refine Or.inr ⟨Moment.add?_eq_none_iff.mp hadd, ?_, record.judged_lastError? _⟩
      show (record.judged (.giveUp (.outOfRange period))).1.isDone = true
      rw [Record.isDone, Record.judged_state]
      rcases hbusy with hstate | hstate
      · rw [if_pos hstate]
        rfl
      · rw [if_neg (by simp [hstate]), hstate]
        rfl

namespace Scheduler

variable {α : Type} {origin before after scheduler : Scheduler α} {action : Action α}
variable {config : Config} {cores : Nat} {task : TaskId} {first : Moment} {period : Span}

/-! ## The backlog -/

/-- Only a task that is pending comes into the backlog. -/
theorem Move.backlog_cases (hmove : Move origin action before after)
    (hmem : task ∈ after.backlog) :
    task ∈ before.backlog ∨ before.Has task fun record => record.state = .pending := by
  cases hmove with
  | @started moved record _ _ hrecord hpending =>
      rcases List.mem_append.mp hmem with hold | hnew
      · exact Or.inl hold
      · obtain rfl := List.mem_singleton.mp hnew
        exact Or.inr ⟨record, hrecord, hpending⟩
  | tookUp | lostUnentered => exact Or.inl (List.mem_of_mem_eraseIdx hmem)
  | _ => exact Or.inl hmem

theorem Fate.entries_eq {first second : Option (Record α) × Nat}
    (hfate : Fate origin action before task first second) (hnot : task ∉ before.backlog) :
    second.2 = first.2 := by
  cases hfate with
  | entered hbacklog => exact absurd hbacklog hnot
  | _ => rfl

theorem Move.inProgress_eq_zero (hmove : Move origin action before after) (hsound : before.Sound)
    (hbacklog : task ∉ before.backlog) (hzero : before.inProgress task = 0) :
    after.inProgress task = 0 := by
  rcases hmove.settling_or_rests hsound task with ⟨-, -, -, -, -, -, hafter⟩ | hrests
  · exact hafter
  · have hbalance := hrests.balance
    have hsame : after.agenda.entries task = before.agenda.entries task :=
      (hmove.fate hsound.custody task).entries_eq hbacklog
    omega

/-- The task is over: it is settled, waits for no worker and is not running. -/
structure IsOver (task : TaskId) (scheduler : Scheduler α) (record : Record α) : Prop where
  isDone : record.isDone = true
  not_mem : task ∉ scheduler.backlog
  inProgress_eq : scheduler.inProgress task = 0

theorem IsOver.of_move {record later : Record α} (hover : IsOver task before record)
    (hmove : Move origin action before after) (hsound : before.Sound)
    (hrecord : before.record? task = some record) (hevolves : record.Evolves later) :
    IsOver task after later where
  isDone := hevolves.isDone hover.isDone
  not_mem := by
    intro hmem
    rcases hmove.backlog_cases hmem with hold | hpending
    · exact hover.not_mem hold
    · have hdone := hover.isDone
      rw [Record.isDone, hpending.holds hrecord] at hdone
      exact absurd hdone (by decide)
  inProgress_eq := hmove.inProgress_eq_zero hsound hover.not_mem hover.inProgress_eq

theorem Settling.isOver (hsettling : Settling before after task)
    (hmove : Move origin action before after) (hsound : before.Sound)
    (hbusy : before.Has task Record.IsBusy) {later : Record α} (hdone : later.isDone = true) :
    IsOver task after later := by
  have hrunning := hsettling.mem_running
  obtain ⟨-, -, -, -, -, -, hzero⟩ := hsettling
  refine ⟨hdone, fun hwaits => ?_, hzero⟩
  rcases hmove.backlog_cases hwaits with hold | ⟨record, hrecord, hpending⟩
  · exact hsound.custody.not_mem_of_mem hrunning (by decide : Place.running ≠ .backlog) hold
  · rcases hbusy.holds hrecord with hstate | hstate <;> simp [hpending] at hstate

/-! ## The invariant -/

/-- The task is over, because its next run could not be represented as a moment. -/
structure RunsOut (first : Moment) (period : Span) (task : TaskId) (scheduler : Scheduler α)
    (record : Record α) : Prop where
  isDone : record.isDone = true
  not_mem : task ∉ scheduler.backlog
  inProgress_eq : scheduler.inProgress task = 0
  horizon_le :
    Moment.horizon ≤ first.nanos + scheduler.agenda.entries task * period.nanos

/-- Where a task with a fixed rate stands that was due at `first` for the first time. -/
structure Cadence (first : Moment) (period : Span) (task : TaskId) (scheduler : Scheduler α)
    (record : Record α) : Prop where
  schedule_eq : record.schedule = .fixedRate period
  beat : record.nextRunAt.nanos + scheduler.inProgress task * period.nanos =
      first.nanos + scheduler.agenda.entries task * period.nanos ∨
    RunsOut first period task scheduler record
  failed : record.state = .failed →
    RunsOut first period task scheduler record ∧ record.lastError? = some (.outOfRange period)
  entered : ∀ run now due worker,
    .entered task run now due worker ∈ scheduler.agenda.history →
      ∃ count, run = count + 1 ∧ due.nanos = first.nanos + count * period.nanos ∧ due ≤ now

/-- No run begins or is settled for a task that has run out. -/
theorem RunsOut.of_rests {record later : Record α} (hmove : Move origin action before after)
    (hsound : before.Sound) (hrecord : before.record? task = some record)
    (hevolves : record.Evolves later)
    (hbalance : after.agenda.entries task + before.inProgress task =
      before.agenda.entries task + after.inProgress task)
    (hout : RunsOut first period task before record) : RunsOut first period task after later := by
  have hover : IsOver task before record := ⟨hout.isDone, hout.not_mem, hout.inProgress_eq⟩
  obtain ⟨hdone, hnot, hzero⟩ := hover.of_move hmove hsound hrecord hevolves
  have hentries : after.agenda.entries task = before.agenda.entries task := by
    rw [hzero, hout.inProgress_eq] at hbalance
    exact hbalance
  exact ⟨hdone, hnot, hzero, hentries ▸ hout.horizon_le⟩

theorem Move.entered_on_beat (hmove : Move origin action before after) (hsound : before.Sound)
    (hpunctual : before.Punctual) (htallied : before.Tallied) {record : Record α}
    (hrecord : before.record? task = some record)
    (hcadence : Cadence first period task before record) (run : Nat) (now due : Moment)
    (worker : Nat) (hmem : .entered task run now due worker ∈ after.agenda.history) :
    ∃ count, run = count + 1 ∧ due.nanos = first.nanos + count * period.nanos ∧ due ≤ now := by
  rw [← Agenda.mem_bodies] at hmem
  rcases hmove.bodies_cases hsound.custody with hsame | ⟨moved, found, number, hand, henters⟩
  · exact hcadence.entered run now due worker (Agenda.mem_bodies.mp (hsame ▸ hmem))
  · rw [henters.bodies_eq, List.mem_cons] at hmem
    rcases hmem with hnew | hold
    · obtain ⟨rfl, rfl, rfl, rfl, -⟩ := Event.entered.inj hnew
      obtain rfl := Option.some.inj (hrecord.symm.trans henters.record_eq)
      have hbacklog : task ∈ before.tasksAt .backlog := henters.mem
      have hzero := hsound.custody.inProgress_eq_zero hbacklog (by decide) (by decide)
      refine ⟨record.runs, ?_, ?_, ?_⟩
      · obtain ⟨turn, hbody⟩ := henters.body
        have hperiodic : record.isPeriodic = true := by
          rw [Record.isPeriodic, hcadence.schedule_eq]
          rfl
        exact Record.run_of_enter hbody fun honce => absurd (hperiodic.symm.trans honce) (by decide)
      · -- The beat is missed only by a task that is not in the backlog any more.
        have hruns : before.agenda.entries task = record.runs := by
          rw [htallied task, hrecord]
          rfl
        have hbeat := hcadence.beat.resolve_right fun hout => hout.not_mem henters.mem
        rw [hzero, hruns, Nat.zero_mul] at hbeat
        exact hbeat
      · rw [← dueOf_eq_nextRunAt hrecord]
        exact hpunctual.handed task (List.mem_append_right _ henters.mem)
    · exact hcadence.entered run now due worker (Agenda.mem_bodies.mp hold)

/-- Between the settlements of runs, what is in progress and what has been entered go together. -/
theorem Rests.beat (hrests : Rests before after task) (hmove : Move origin action before after)
    (hsound : before.Sound) {record later : Record α} (hrecord : before.record? task = some record)
    (hdue : later.nextRunAt = record.nextRunAt) (hevolves : record.Evolves later)
    (hcadence : Cadence first period task before record) :
    later.nextRunAt.nanos + after.inProgress task * period.nanos =
        first.nanos + after.agenda.entries task * period.nanos ∨
      RunsOut first period task after later := by
  refine hcadence.beat.imp (fun hbeat => ?_)
    (RunsOut.of_rests hmove hsound hrecord hevolves hrests.balance)
  have hbalance : after.agenda.entries task * period.nanos +
        before.inProgress task * period.nanos =
      before.agenda.entries task * period.nanos + after.inProgress task * period.nanos := by
    rw [← Nat.add_mul, hrests.balance, Nat.add_mul]
  rw [hdue]
  omega

/-- A run that is settled moves the due time on by a period, or the task runs out. -/
theorem Settling.beat (hsettling : Settling before after task)
    (hmove : Move origin action before after) (hsound : before.Sound)
    (hpunctual : before.Punctual) (hpolicy : before.agenda.policy = .keepGoing)
    {record : Record α} (hrecord : before.record? task = some record)
    (hcadence : Cadence first period task before record) :
    ∃ later, after.record? task = some later ∧
      (later.nextRunAt.nanos + after.inProgress task * period.nanos =
          first.nanos + after.agenda.entries task * period.nanos ∧ later.state ≠ .failed ∨
        RunsOut first period task after later ∧ later.lastError? = some (.outOfRange period)) := by
  obtain ⟨hbusy, -, error?, hlater⟩ := hsettling.judged hsound hpunctual hrecord
  have hisOver : ∀ later : Record α, later.isDone = true → IsOver task after later :=
    fun _ => hsettling.isOver hmove hsound ⟨record, hrecord, hbusy⟩
  obtain ⟨-, -, -, -, hentries, hone, hzero⟩ := hsettling
  have hbeat : record.nextRunAt.nanos + period.nanos =
      first.nanos + before.agenda.entries task * period.nanos := by
    rcases hcadence.beat with hbeat | hout
    · rwa [hone, Nat.one_mul] at hbeat
    · exact absurd (hone.symm.trans hout.inProgress_eq) (by decide)
  rw [hpolicy] at hlater
  refine ⟨_, hlater, ?_⟩
  rw [hzero, hentries, Nat.zero_mul, Nat.add_zero]
  have hafter : record.schedule.nextRun record.nextRunAt before.agenda.reading =
      Schedule.after record.nextRunAt period := by
    rw [hcadence.schedule_eq]
    rfl
  rcases hbusy.judged_of_after hafter rfl with ⟨hnext, hstate⟩ | ⟨hhorizon, hdone, herror⟩
  · exact Or.inl ⟨hnext.trans hbeat, hstate⟩
  · obtain ⟨hdone, hnot, hzero⟩ := hisOver _ hdone
    refine Or.inr ⟨⟨hdone, hnot, hzero, ?_⟩, herror⟩
    rw [hentries, ← hbeat]
    exact hhorizon

theorem Move.cadence (hmove : Move origin action before after) (hsound : before.Sound)
    (hpunctual : before.Punctual) (htallied : before.Tallied)
    (hpolicy : before.agenda.policy = .keepGoing)
    (hcadence : before.Has task (Cadence first period task before)) :
    after.Has task (Cadence first period task after) := by
  obtain ⟨record, hrecord, hcadence⟩ := hcadence
  obtain ⟨later, hlater, hevolves⟩ := hmove.recordsEvolve hsound.custody task record hrecord
  have hschedule := hevolves.schedule_eq.trans hcadence.schedule_eq
  have hentered := hmove.entered_on_beat hsound hpunctual htallied hrecord hcadence
  rcases hmove.settling_or_rests hsound task with hsettling | hrests
  · obtain ⟨found, hfound, hcases⟩ :=
      hsettling.beat hmove hsound hpunctual hpolicy hrecord hcadence
    obtain rfl := Option.some.inj (hfound.symm.trans hlater)
    rcases hcases with ⟨hbeat, hlive⟩ | ⟨hout, herror⟩
    · exact ⟨found, hfound, hschedule, Or.inl hbeat, fun hstate => absurd hstate hlive, hentered⟩
    · exact ⟨found, hfound, hschedule, Or.inr hout, fun _ => ⟨hout, herror⟩, hentered⟩
  · obtain ⟨found, hfound, hsame⟩ := hrests.record record hrecord
    obtain rfl := Option.some.inj (hfound.symm.trans hlater)
    refine ⟨found, hfound, hschedule,
      hrests.beat hmove hsound hrecord hsame.due_eq hevolves hcadence, fun hstate => ?_, hentered⟩
    obtain rfl := hsame.finished (Or.inr hstate)
    obtain ⟨hout, herror⟩ := hcadence.failed hstate
    exact ⟨hout.of_rests hmove hsound hrecord hevolves hrests.balance, herror⟩

/-! ## From the submission on -/

/-- A task that has just been submitted has all its runs before it. -/
theorem Reachable.cadence_of_request (hreachable : Reachable config cores before)
    {submission : Submission α} {patient : Bool}
    (hschedule : submission.schedule = .fixedRate period)
    (hdue : before.firstDue submission = .ok (.ok first))
    (hstep : before.step (.request (.schedule submission patient)) = some after) :
    after.Has before.agenda.records.size
      (Cadence first period before.agenda.records.size after) := by
  have hafter : Reachable config cores after := .step hreachable _ hstep
  have hrecord := record?_of_asked hdue hstep
  have hentries : after.agenda.entries before.agenda.records.size = 0 := by
    rw [hafter.tallied, hrecord]
    rfl
  have hzero : after.inProgress before.agenda.records.size = 0 :=
    Nat.le_zero.mp (hentries ▸ hafter.inProgress_le before.agenda.records.size)
  refine ⟨_, hrecord, hschedule, Or.inl ?_, fun hfailed => ?_, fun run now due worker hmem => ?_⟩
  · rw [hzero, hentries]
    rfl
  · exact absurd hfailed (by simp [Submission.record])
  · exact absurd hmem (Agenda.not_entered_of_entries hentries run now due worker)

theorem Leads.cadence (hleads : before.Leads after) (hreachable : Reachable config cores before)
    (hpolicy : config.policy = .keepGoing)
    (hcadence : before.Has task (Cadence first period task before)) :
    after.Has task (Cadence first period task after) := by
  induction hleads with
  | refl => exact hcadence
  | @tail middle after hmiddle hlast ih =>
      obtain ⟨action, hstep⟩ := hlast
      have hreached := Leads.reachable hmiddle hreachable
      -- A step may be several moves, and each of them needs all that holds where it starts.
      refine (of_step (p := fun state => state.Punctual ∧ state.Tallied ∧
        state.agenda.policy = .keepGoing ∧ state.Has task (Cadence first period task state))
        hreached.sound hstep ⟨hreached.punctual, hreached.tallied,
          hreached.policy_eq.trans hpolicy, ih⟩ ?_).2.2.2
      rintro current next hsound ⟨hpunctual, htallied, hpolicy, hcadence⟩ hmove
      exact ⟨hmove.punctual hsound hpunctual,
        fun task => (hmove.fate hsound.custody task).tallied (htallied task),
        hmove.policy_eq.trans hpolicy, hmove.cadence hsound hpunctual htallied hpolicy hcadence⟩

/-- A task that could be submitted has two runs at least that can be represented. -/
theorem two_le_of_horizon_le {submission : Submission α}
    (hschedule : submission.schedule = .fixedRate period)
    (hdue : before.firstDue submission = .ok (.ok first)) {count : Nat}
    (hhorizon : Moment.horizon ≤ first.nanos + count * period.nanos) : 2 ≤ count := by
  obtain ⟨-, -, hadd, second?, hsecond⟩ := firstDue_eq_ok hdue
  have hfirst : first.nanos < Moment.horizon := (Moment.add?_eq_some_iff.mp hadd).2
  have hnext : first.nanos + period.nanos < Moment.horizon := by
    cases hnone : first.add? period with
    | none => simp [hschedule, Schedule.nextRun, Schedule.after, hnone] at hsecond
    | some next =>
        obtain ⟨heq, hlt⟩ := Moment.add?_eq_some_iff.mp hnone
        omega
  by_contra hless
  obtain rfl | rfl : count = 0 ∨ count = 1 := by omega
  · omega
  · omega

/-- A task with a fixed rate whose failures do not stop it is due on the beat of its first due
time for ever: as long as it is not settled, a period later for each run that has been
settled.  No run starts before its beat.  The task itself fails only after its second run or a
later one, when the next beat cannot be represented, and says so. -/
theorem Reachable.fixed_rate_cadence (hreachable : Reachable config cores before)
    (hpolicy : config.policy = .keepGoing) {submission : Submission α} {patient : Bool}
    (hschedule : submission.schedule = .fixedRate period)
    (hdue : before.firstDue submission = .ok (.ok first)) {asked : Scheduler α}
    (hstep : before.step (.request (.schedule submission patient)) = some asked)
    (hleads : asked.Leads after) (htask : task = before.agenda.records.size) :
    0 < period.nanos ∧ ∃ record, after.record? task = some record ∧
      record.schedule = .fixedRate period ∧
      (record.isDone = false →
        record.nextRunAt.nanos = first.nanos + after.settledRuns task * period.nanos) ∧
      (∀ run now due worker, .entered task run now due worker ∈ after.agenda.history →
        ∃ count, run = count + 1 ∧ due.nanos = first.nanos + count * period.nanos ∧ due ≤ now) ∧
      (record.state = .failed →
        2 ≤ after.settledRuns task ∧
          Moment.horizon ≤ first.nanos + after.settledRuns task * period.nanos ∧
          record.lastError? = some (.outOfRange period)) := by
  subst htask
  have hasked : Reachable config cores asked := .step hreachable _ hstep
  obtain ⟨record, hrecord, hcadence⟩ := Leads.cadence hleads hasked hpolicy
    (hreachable.cadence_of_request hschedule hdue hstep)
  have hsettled := (Leads.reachable hleads hasked).settledRuns_add before.agenda.records.size
  refine ⟨?_, record, hrecord, hcadence.schedule_eq, fun hlive => ?_, hcadence.entered,
    fun hfailed => ?_⟩
  · have hperiod := (firstDue_eq_ok hdue).1
    rw [hschedule] at hperiod
    simpa [Schedule.period?, Span.isZero, Nat.pos_iff_ne_zero] using hperiod
  · rcases hcadence.beat with hbeat | hout
    · rw [← hsettled, Nat.add_mul] at hbeat
      omega
    · exact absurd (hlive.symm.trans hout.isDone) Bool.false_ne_true
  · obtain ⟨hout, herror⟩ := hcadence.failed hfailed
    have hhorizon := hout.horizon_le
    rw [← hsettled, hout.inProgress_eq, Nat.add_zero] at hhorizon
    exact ⟨two_le_of_horizon_le hschedule hdue hhorizon, hhorizon, herror⟩

/-- With a period of almost all the time that can be represented, the second run is the last. -/
theorem fixed_rate_cadence_to_the_horizon :
    ∃ (after : Scheduler Unit) (record : Record Unit), Reachable {} 1 after ∧
      after.record? 0 = some record ∧ record.state = .failed ∧ 2 ≤ after.settledRuns 0 ∧
      record.lastError? = some (.outOfRange ⟨Moment.horizon - 1⟩) := by
  have hview : (played {} 1 []).bind (fun result =>
      (replay [] (result.2.request
          (.schedule (plainTask (.fixedRate ⟨Moment.horizon - 1⟩) .zero) true))
        [.proceed 0, .dispatch, .dispatch, .takeUp 0, .work 0, .work 0, .work 0,
          .advance ⟨Moment.horizon - 1⟩, .announce, .dispatch, .dispatch, .takeUp 0, .work 0,
          .work 0]).map fun final =>
            ((result.2.firstDue (plainTask (.fixedRate ⟨Moment.horizon - 1⟩) .zero)).toOption,
              result.2.agenda.records.size, (final.2.record? 0).map Record.state)) =
      some (some (.ok .origin), 0, some .failed) := by
    decide +kernel
  obtain ⟨⟨past, before⟩, hplayed, hreplayed⟩ := Option.bind_eq_some_iff.mp hview
  obtain ⟨⟨later, after⟩, hreplay, hparts⟩ := Option.map_eq_some_iff.mp hreplayed
  simp only [Prod.mk.injEq] at hparts
  obtain ⟨hdue, hsize, hstate⟩ := hparts
  have hreachable := (Run.of_played hplayed).reachable
  have hleads := Leads.of_replay .refl hreplay
  have hasked : Reachable {} 1 (before.request
      (.schedule (plainTask (.fixedRate ⟨Moment.horizon - 1⟩) .zero) true)) :=
    .step hreachable (.request _) rfl
  obtain ⟨-, record, hrecord, -, -, -, hfailed⟩ :=
    hreachable.fixed_rate_cadence rfl rfl (eq_ok_of_toOption hdue) rfl hleads hsize.symm
  rw [hrecord] at hstate
  have hstate : record.state = .failed := Option.some.inj hstate
  obtain ⟨htwo, -, herror⟩ := hfailed hstate
  exact ⟨after, record, hleads.reachable hasked, hrecord, hstate, htwo, herror⟩

end Scheduler

end TimedTasks
