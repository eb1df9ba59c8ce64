import TimedTasks.Proofs.Scheduler.Ownership

/-!
# What a move does to a task and to a call

The standing of a task is its record together with the number of times that its body has
been entered.  A move changes the standing of one task at most, in one of the ways of
`Fate`, and whatever is said about records in the course of time is said by cases on it.

Two of these ways are told more closely.  A record is cancelled by somebody who has to
answer for it, unless the task is periodic or has been swept out of the queue; and a body
is entered only for a task of the backlog.

A call that a move does not answer stays in its stage or goes on to another one, and
`Arises` says what has led there.
-/

namespace TimedTasks

namespace Scheduler

variable {α : Type} {origin before after : Scheduler α} {action : Action α} {task : TaskId}

/-- The record of a task, and how often its body has been entered. -/
def standing (scheduler : Scheduler α) (task : TaskId) : Option (Record α) × Nat :=
  (scheduler.record? task, scheduler.agenda.entries task)

/-- What a move can do to the standing of a task.  A new record comes of a submission. -/
inductive Fate (origin : Scheduler α) (action : Action α) (before : Scheduler α)
    (task : TaskId) : Option (Record α) × Nat → Option (Record α) × Nat → Prop
  | kept (same : Option (Record α) × Nat) : Fate origin action before task same same
  | drafted {submission : Submission α} {due : Moment} {entries : Nat}
      (hcause : origin.Submits action before.agenda.reading submission)
      (hdue : before.firstDue submission = .ok (.ok due)) :
      Fate origin action before task (none, entries) (some (submission.record due), entries)
  | cancelled {record : Record α} {entries : Nat} (hlive : record.isDone = false)
      (hcause : origin.Cancels action task ∨
        (record.isPeriodic = true ∧ task ∈ before.tasksAt .returning) ∨
        task ∈ before.tasksAt .swept) :
      Fate origin action before task (some record, entries)
        (some { record with state := .cancelled }, entries)
  | started {record : Record α} {entries : Nat} (hpending : record.state = .pending)
      (hheld : task ∈ before.tasksAt .held) :
      Fate origin action before task (some record, entries)
        (some { record with state := .running }, entries)
  | entered {record : Record α} {entries : Nat} (hbacklog : task ∈ before.backlog) :
      Fate origin action before task (some record, entries)
        (some record.enter.1, entries + 1)
  | left {record : Record α} {entries : Nat} (ending : Ending α) :
      Fate origin action before task (some record, entries)
        (some (record.leave ending), entries)
  | settled {record later : Record α} {entries : Nat} (hevolves : record.Evolves later)
      (hruns : later.runs = record.runs)
      (hstate : later.state = .cancelled → record.state = .cancelled)
      (hrunning : task ∈ before.tasksAt .running) :
      Fate origin action before task (some record, entries) (some later, entries)

/-! ## One record at a time -/

theorem fate_of_record {moved : TaskId} {record later : Record α}
    (hrecord : before.record? moved = some record)
    (hafter : ∀ other, after.record? other =
      if other = moved then some later else before.record? other)
    (hentries : ∀ other, after.agenda.entries other = before.agenda.entries other)
    (hfate : ∀ entries, Fate origin action before moved (some record, entries)
      (some later, entries)) (task : TaskId) :
    Fate origin action before task (before.standing task) (after.standing task) := by
  rw [standing, standing, hafter task, hentries task]
  by_cases htask : task = moved
  · subst htask
    rw [if_pos rfl, hrecord]
    exact hfate _
  · rw [if_neg htask]
    exact .kept _

/-- A task may be scheduled only by a scheduler that runs, with a period that is not zero, and
if its first two due times can be represented. -/
theorem firstDue_eq_ok {submission : Submission α} {due : Moment}
    (hdue : before.firstDue submission = .ok (.ok due)) :
    submission.schedule.period?.any Span.isZero = false ∧
      before.lifecycle.ensureRunning = .ok () ∧
      before.agenda.reading.add? submission.delay = some due ∧
      ∃ second?, submission.schedule.nextRun due due = .ok second? := by
  cases hzero : submission.schedule.period?.any Span.isZero with
  | true => simp [firstDue, hzero] at hdue
  | false =>
      cases hrunning : before.lifecycle.ensureRunning with
      | error error => simp [firstDue, hzero, hrunning] at hdue
      | ok _ =>
          cases hreadable : before.agenda.clock.isReadable with
          | false =>
              simp [firstDue, hzero, hrunning, Agenda.now_of_unreadable hreadable] at hdue
          | true =>
              have hnow := Agenda.now_of_readable hreadable
              cases hadd : before.agenda.reading.add? submission.delay with
              | none => simp [firstDue, hzero, hrunning, hnow, hadd] at hdue
              | some first =>
                  cases hsecond : submission.schedule.nextRun first first with
                  | error error => simp [firstDue, hzero, hrunning, hnow, hadd, hsecond] at hdue
                  | ok second? =>
                      have hfirst : first = due := by
                        simpa [firstDue, hzero, hrunning, hnow, hadd, hsecond] using hdue
                      subst hfirst
                      exact ⟨rfl, rfl, rfl, second?, hsecond⟩

/-- Whoever schedules a task panics if he comes to read the clock and cannot. -/
theorem firstDue_eq_error {submission : Submission α} {fault : ClockFault} :
    before.firstDue submission = .error fault ↔
      submission.schedule.period?.any Span.isZero = false ∧
        before.lifecycle.ensureRunning = .ok () ∧ before.agenda.clock.isReadable = false ∧
        .momentOverflow = fault := by
  cases hzero : submission.schedule.period?.any Span.isZero with
  | true => simp [firstDue, hzero]
  | false =>
      cases hrunning : before.lifecycle.ensureRunning with
      | error error => simp [firstDue, hzero, hrunning]
      | ok _ =>
          cases hreadable : before.agenda.clock.isReadable with
          | false => simp [firstDue, hzero, hrunning, Agenda.now_of_unreadable hreadable]
          | true =>
              simp only [firstDue, hzero, hrunning, Agenda.now_of_readable hreadable]
              cases before.agenda.reading.add? submission.delay with
              | none => simp
              | some first =>
                  cases hsecond : submission.schedule.nextRun first first <;> simp [hsecond]

theorem fate_of_draft {submission : Submission α} {due : Moment}
    (hdue : before.firstDue submission = .ok (.ok due))
    (hcause : origin.Submits action before.agenda.reading submission)
    (hrecords : after.agenda.records = (before.draft submission due).1.agenda.records)
    (hentries : ∀ other, after.agenda.entries other = before.agenda.entries other)
    (task : TaskId) :
    Fate origin action before task (before.standing task) (after.standing task) := by
  have hafter : after.record? task = (before.draft submission due).1.record? task :=
    congrArg (·[task]?) hrecords
  rw [standing, standing, hafter, record?_draft, hentries task]
  by_cases htask : task = before.agenda.records.size
  · rw [if_pos htask, htask, before.record?_size]
    exact .drafted hcause hdue
  · rw [if_neg htask]
    exact .kept _

theorem Custody.exists_body (hcustody : before.Custody) {position : Nat}
    (htask : before.backlog[position]? = some task) :
    ∃ record run turn, before.record? task = some record ∧ record.enter.2 = some (run, turn) := by
  have hmem : task ∈ before.tasksAt .backlog := List.mem_of_getElem? htask
  obtain ⟨-, record, hrecord, -, hfresh⟩ := hcustody.fitsAt_of_mem hmem
  obtain ⟨run, turn, hbody⟩ := Record.enter_body fun honce => (hfresh honce).2
  exact ⟨record, run, turn, hrecord, hbody⟩

theorem fate_of_entry {moved : TaskId} {record : Record α} {run : Nat} {turn : Turn α}
    (hrecord : before.record? moved = some record) (hbody : record.enter.2 = some (run, turn))
    (hbacklog : moved ∈ before.backlog) {worker : Nat}
    (hafter : after.agenda = (before.agenda.enter moved worker before.agenda.reading).1)
    (task : TaskId) :
    Fate origin action before task (before.standing task) (after.standing task) := by
  have hrecords : after.record? task =
      if task = moved then some record.enter.1 else before.record? task := by
    rw [record?, hafter, Agenda.enter_eq hrecord hbody worker]
    exact Agenda.records_withRecord hrecord
  have hentries : after.agenda.entries task =
      before.agenda.entries task + if moved = task then 1 else 0 := by
    rw [hafter, Agenda.enter_eq hrecord hbody worker]
    exact Agenda.entries_note_entered ..
  rw [standing, standing, hrecords, hentries]
  by_cases htask : task = moved
  · subst htask
    rw [if_pos rfl, if_pos rfl, hrecord]
    exact .entered hbacklog
  · rw [if_neg htask, if_neg (Ne.symm htask)]
    exact .kept _

theorem fate_of_leave (hcustody : before.Custody) {job : Job α} (hjob : job ∈ before.jobs)
    (ending : Ending α) (hafter : after.agenda = before.agenda.leave job.task ending)
    (task : TaskId) :
    Fate origin action before task (before.standing task) (after.standing task) := by
  obtain ⟨record, hrecord⟩ := (hcustody.fitsAt_of_mem (mem_tasksAt_place hjob)).exists_record
  have hrecords : ∀ other, after.record? other =
      if other = job.task then some (record.leave ending) else before.record? other := by
    intro other
    rw [record?, hafter]
    exact Agenda.records_update hrecord _ other
  have hentries : ∀ other, after.agenda.entries other = before.agenda.entries other := by
    intro other
    rw [hafter]
    rfl
  exact fate_of_record hrecord hrecords hentries (fun _ => .left ending) task

theorem fate_of_settle (hcustody : before.Custody) {job : Job α} (hjob : job ∈ before.jobs)
    {error? : Option TaskError} {agenda : Agenda α} {again : Bool} (hplace : job.place = .running)
    (hsettle : before.agenda.settle job before.agenda.reading error? = (agenda, again))
    (hafter : after.agenda = agenda) (task : TaskId) :
    Fate origin action before task (before.standing task) (after.standing task) := by
  obtain ⟨record, hrecord⟩ := (hcustody.fitsAt_of_mem (mem_tasksAt_place hjob)).exists_record
  obtain ⟨later, hsettles⟩ := Agenda.settles_settle hrecord hsettle
  have hrecords : ∀ other, after.record? other =
      if other = job.task then some later else before.record? other := by
    intro other
    rw [record?, hafter]
    exact hsettles.records_eq other
  have hentries : ∀ other, after.agenda.entries other = before.agenda.entries other := by
    intro other
    rw [hafter]
    exact hsettles.entries_eq other
  exact fate_of_record hrecord hrecords hentries
    (fun _ => .settled hsettles.evolves hsettles.runs_eq hsettles.cancelled
      (hplace ▸ mem_tasksAt_place hjob)) task

/-! ## All moves -/

theorem Move.fate (hmove : Move origin action before after) (hcustody : before.Custody)
    (task : TaskId) :
    Fate origin action before task (before.standing task) (after.standing task) := by
  cases hmove with
  | drafted _ hdue hcause | submittedInVain hdue hcause | submitted hdue _ _ hcause =>
      exact fate_of_draft hdue hcause rfl (fun _ => rfl) task
  | cancelBegun hcause hrecord hlive | cancelledInBody hcause hrecord hlive =>
      exact fate_of_record hrecord (record?_withRecord hrecord _) (fun _ => rfl)
        (fun _ => .cancelled hlive (Or.inl hcause)) task
  | @swept call drain moved left done record hcall hrecord hlive =>
      have hmem : moved ∈ before.tasksAt .swept :=
        List.mem_flatMap.mpr ⟨_, hcall, List.mem_cons_self ..⟩
      exact fate_of_record hrecord (record?_withRecord hrecord _) (fun _ => rfl)
        (fun _ => .cancelled hlive (Or.inr (Or.inr hmem))) task
  | @started moved _ _ hdispatcher hrecord hpending =>
      have hheld : moved ∈ before.tasksAt .held := by
        rw [hand_of_holding hdispatcher]
        exact List.mem_singleton_self _
      exact fate_of_record hrecord (record?_withRecord hrecord _) (fun _ => rfl)
        (fun _ => .started hpending hheld) task
  | tookUp htask =>
      obtain ⟨record, run, turn, hrecord, hbody⟩ := hcustody.exists_body htask
      exact fate_of_entry hrecord hbody (List.mem_of_getElem? htask) rfl task
  | ended ending hjob =>
      exact fate_of_leave hcustody hjob ending rfl task
  | settled hjob hstage hsettle | rearmed hjob hstage hsettle =>
      exact fate_of_settle hcustody hjob (by rw [Job.place, hstage]) hsettle rfl task
  | @dropped job record hjob hstage hrecord hlive =>
      -- Only periodic tasks go back into the queue, so only they can be refused there.
      have hplace : job.place = .returning := by rw [Job.place, hstage]
      have hreturning : job.task ∈ before.tasksAt .returning := hplace ▸ mem_tasksAt_place hjob
      obtain ⟨-, hhas⟩ := hcustody.fitsAt_of_mem hreturning
      obtain ⟨-, hperiodic⟩ := hhas.holds hrecord
      exact fate_of_record hrecord (record?_withRecord hrecord _) (fun _ => rfl)
        (fun _ => .cancelled hlive (Or.inr (Or.inl ⟨hperiodic, hreturning⟩))) task
  | _ => exact .kept _

/-! ## Records in the course of time -/

/-- Whatever has a record keeps it, and the record evolves. -/
def RecordsEvolve (before after : Scheduler α) : Prop :=
  ∀ task record, before.record? task = some record →
    ∃ later, after.record? task = some later ∧ record.Evolves later

theorem RecordsEvolve.refl (before : Scheduler α) : RecordsEvolve before before :=
  fun _ record hrecord => ⟨record, hrecord, .refl record⟩

theorem RecordsEvolve.trans {middle : Scheduler α} (hfirst : RecordsEvolve before middle)
    (hsecond : RecordsEvolve middle after) : RecordsEvolve before after := by
  intro task record hrecord
  obtain ⟨found, hfound, hevolves⟩ := hfirst task record hrecord
  obtain ⟨later, hlater, hfurther⟩ := hsecond task found hfound
  exact ⟨later, hlater, hevolves.trans hfurther⟩

theorem Fate.evolves {first second : Option (Record α) × Nat}
    (hfate : Fate origin action before task first second) {record : Record α}
    (hrecord : first.1 = some record) :
    ∃ later, second.1 = some later ∧ record.Evolves later := by
  cases hfate with
  | kept => exact ⟨record, hrecord, .refl record⟩
  | drafted => simp at hrecord
  | cancelled hlive =>
      obtain rfl := Option.some.inj hrecord
      exact ⟨_, rfl, .of_live hlive .cancelled⟩
  | started hpending =>
      obtain rfl := Option.some.inj hrecord
      exact ⟨_, rfl, .of_live (by rw [Record.isDone, hpending]; rfl) .running⟩
  | entered =>
      obtain rfl := Option.some.inj hrecord
      exact ⟨_, rfl, Record.enter_evolves _⟩
  | left ending =>
      obtain rfl := Option.some.inj hrecord
      exact ⟨_, rfl, Record.leave_evolves _ ending⟩
  | settled hevolves =>
      obtain rfl := Option.some.inj hrecord
      exact ⟨_, rfl, hevolves⟩

/-- What new records have, and what records keep as they evolve, all records have. -/
theorem Fate.holds {p : Record α → Prop} {first second : Option (Record α) × Nat}
    (hfate : Fate origin action before task first second)
    (hnew : ∀ submission due, before.firstDue submission = .ok (.ok due) →
      p (submission.record due))
    (hkeep : ∀ record later : Record α, record.Evolves later → p record → p later)
    (hfirst : ∀ record, first.1 = some record → p record) {later : Record α}
    (hlater : second.1 = some later) : p later := by
  cases hrecord : first.1 with
  | none =>
      cases hfate with
      | kept => exact hfirst later hlater
      | drafted _ hdue =>
          obtain rfl := Option.some.inj hlater
          exact hnew _ _ hdue
      | _ => simp at hrecord
  | some record =>
      obtain ⟨found, hfound, hevolves⟩ := hfate.evolves hrecord
      obtain rfl := Option.some.inj (hlater.symm.trans hfound)
      exact hkeep _ _ hevolves (hfirst record hrecord)

theorem Fate.submitted {first second : Option (Record α) × Nat}
    (hfate : Fate origin action before task first second) (hnone : first.1 = none)
    {later : Record α} (hlater : second.1 = some later) :
    ∃ submission due, origin.Submits action before.agenda.reading submission ∧
      before.firstDue submission = .ok (.ok due) ∧ later = submission.record due := by
  cases hfate with
  | kept => exact absurd (hnone.symm.trans hlater) (by simp)
  | drafted hcause hdue => exact ⟨_, _, hcause, hdue, (Option.some.inj hlater).symm⟩
  | _ => simp at hnone

theorem Move.recordsEvolve (hmove : Move origin action before after)
    (hcustody : before.Custody) : RecordsEvolve before after :=
  fun task _ hrecord => (hmove.fate hcustody task).evolves hrecord

theorem periodicOf_eq_isPeriodic {record : Record α} (hrecord : before.record? task = some record) :
    before.agenda.periodicOf task = record.isPeriodic := by
  have hfound : before.agenda.records[task]? = some record := hrecord
  simp only [Agenda.periodicOf, hfound, Option.map_some, Option.getD_some]

theorem RecordsEvolve.periodicOf_eq (hevolve : RecordsEvolve before after)
    (hrecord : ∃ record, before.record? task = some record) :
    after.agenda.periodicOf task = before.agenda.periodicOf task := by
  obtain ⟨record, hbefore⟩ := hrecord
  obtain ⟨later, hafter, hevolves⟩ := hevolve task record hbefore
  rw [periodicOf_eq_isPeriodic hafter, periodicOf_eq_isPeriodic hbefore, hevolves.isPeriodic_eq]

theorem RecordsEvolve.cancelled (hevolve : RecordsEvolve before after)
    (hcancelled : before.Has task fun record => record.state = .cancelled) :
    after.Has task fun record => record.state = .cancelled := by
  obtain ⟨record, hrecord, hstate⟩ := hcancelled
  obtain ⟨later, hlater, hevolves⟩ := hevolve task record hrecord
  refine ⟨later, hlater, (hevolves.state_eq ?_).trans hstate⟩
  rw [Record.isDone, hstate]
  rfl

/-! ## Stages of calls -/

/-- How a call comes to a stage that it was not in before. -/
inductive Arises (origin : Scheduler α) (action : Action α) (before after : Scheduler α) :
    Call → Prop
  | inserting (task : TaskId) (patient : Bool) :
      Arises origin action before after (.inserting task patient)
  | parked (task : TaskId) : Arises origin action before after (.parked task)
  | removing {task : TaskId}
      (hcancelled : after.Has task fun record => record.state = .cancelled)
      (haccepted : task ∈ after.accepted) :
      Arises origin action before after (.removing task)
  | claiming (hcause : origin.Hastens action) (hbegun : after.lifecycle ≠ .running) :
      Arises origin action before after .claiming
  | closing (hbegun : after.lifecycle ≠ .running) :
      Arises origin action before after (.closing true)
  | claimed {call : CallId} (hcall : (call, .claiming) ∈ before.calls) :
      Arises origin action before after (.closing false)
  | cancelling {call : CallId} {drain : Bool} (hcall : (call, .closing drain) ∈ before.calls) :
      Arises origin action before after
        (.cancelling drain ((before.agenda.queue.close drain).2.map (·.task)) [])
  | sweeping {call : CallId} {drain : Bool} {task : TaskId} {left done : List TaskId}
      (hcall : (call, .cancelling drain (task :: left) done) ∈ before.calls)
      (cancelled : List TaskId) :
      Arises origin action before after (.cancelling drain left cancelled)

theorem arises_of_goOn {call other : CallId} {next stage : Call}
    (hstage : (other, stage) ∈ (before.goOn call next).calls)
    (harises : Arises origin action before after next) :
    (other, stage) ∈ before.calls ∨ Arises origin action before after stage := by
  refine (mem_calls_goOn hstage).imp_right fun heq => ?_
  obtain rfl := congrArg Prod.snd heq
  exact harises

theorem arises_of_opened {call other : CallId} {next stage : Call}
    (hstage : (other, stage) ∈ (before.opened call next).calls)
    (harises : Arises origin action before after next) :
    (other, stage) ∈ before.calls ∨ Arises origin action before after stage := by
  refine (mem_calls_opened hstage).imp_right fun heq => ?_
  obtain rfl := congrArg Prod.snd heq
  exact harises

theorem Move.arises (hmove : Move origin action before after) {call : CallId} {stage : Call}
    (hstage : (call, stage) ∈ after.calls) :
    (call, stage) ∈ before.calls ∨ Arises origin action before after stage := by
  cases hmove with
  | refused | turnedAway | admitted | resumedRefused | resumedAdmitted | removed | claimRefused
  | sweepDone =>
      exact Or.inl (List.mem_of_mem_filter hstage)
  | drafted => exact arises_of_opened hstage (.inserting _ _)
  | @cancelBegun task _ _ hrecord _ haccepted =>
      exact arises_of_opened hstage (.removing (has_withRecord hrecord rfl) haccepted)
  | @shutdownBegun drain hcause =>
      cases drain with
      | true => exact arises_of_opened hstage (.closing (Lifecycle.beginShutdown_ne_running _))
      | false =>
          exact arises_of_opened hstage
            (.claiming (hcause rfl) (Lifecycle.beginShutdown_ne_running _))
  | parked | parkedAgain => exact arises_of_goOn hstage (.parked _)
  | claimed hcall => exact arises_of_goOn hstage (.claimed hcall)
  | closed hcall => exact arises_of_goOn hstage (.cancelling hcall)
  | swept hcall | passedOver hcall => exact arises_of_goOn hstage (.sweeping hcall _)
  | _ => exact Or.inl hstage

end Scheduler

end TimedTasks
