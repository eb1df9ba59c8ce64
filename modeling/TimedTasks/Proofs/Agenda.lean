import TimedTasks.Agenda
import TimedTasks.Proofs.Queue.Operation
import TimedTasks.Proofs.Task.Record

/-!
# What the parts of an agenda do

One lemma for each function of an agenda says what it changes.  Everything else stays, and
the lemmas about runs say so where it matters: a run leaves the queue alone until the task
goes back into it, and changes the record of no other task.
-/

namespace TimedTasks

/-- Whether an event is that a body is entered. -/
def Event.isEntry : Event → Bool
  | .entered .. => true
  | .reported _ | .submitted .. => false

/-- Whether an event is the report of a failure. -/
def Event.isReport : Event → Bool
  | .reported _ => true
  | .entered .. | .submitted .. => false

/-- Whether a body has been told that the task it submitted has been accepted. -/
def Event.accepts : Event → Bool
  | .submitted _ (.ok ()) => true
  | _ => false

namespace Agenda

variable {α : Type}

/-- Put another record in the place of the old one. -/
def withRecord (agenda : Agenda α) (task : TaskId) (record : Record α) : Agenda α :=
  { agenda with records := agenda.records.setIfInBounds task record }

/-! ## Trying to move a record -/

theorem attempt_eq_true {agenda after : Agenda α} {task : TaskId}
    {move : Record α → Option (Record α)} (hattempt : agenda.attempt task move = (after, true)) :
    ∃ record moved, agenda.records[task]? = some record ∧ move record = some moved ∧
      after = agenda.withRecord task moved := by
  unfold attempt at hattempt
  split at hattempt
  · rename_i moved hmoved
    obtain ⟨record, hrecord, hmove⟩ := Option.bind_eq_some_iff.mp hmoved
    exact ⟨record, moved, hrecord, hmove, (congrArg Prod.fst hattempt).symm⟩
  · exact absurd (congrArg Prod.snd hattempt) Bool.false_ne_true

theorem attempt_eq_false {agenda after : Agenda α} {task : TaskId}
    {move : Record α → Option (Record α)} (hattempt : agenda.attempt task move = (after, false)) :
    after = agenda ∧ ∀ record, agenda.records[task]? = some record → move record = none := by
  unfold attempt at hattempt
  split at hattempt
  · exact absurd (congrArg Prod.snd hattempt).symm Bool.false_ne_true
  · rename_i hnone
    refine ⟨(congrArg Prod.fst hattempt).symm, fun record hrecord => ?_⟩
    rwa [hrecord, Option.bind_some] at hnone

theorem start_eq_true {agenda after : Agenda α} {task : TaskId}
    (hstart : agenda.start task = (after, true)) :
    ∃ record, agenda.records[task]? = some record ∧ record.state = .pending ∧
      after = agenda.withRecord task { record with state := .running } := by
  obtain ⟨record, moved, hrecord, hmove, rfl⟩ := attempt_eq_true hstart
  obtain ⟨hpending, rfl⟩ := Record.start?_eq_some.mp hmove
  exact ⟨record, hrecord, hpending, rfl⟩

theorem start_eq_false {agenda after : Agenda α} {task : TaskId}
    (hstart : agenda.start task = (after, false)) :
    after = agenda ∧ ∀ record, agenda.records[task]? = some record → record.state ≠ .pending := by
  obtain ⟨rfl, hnone⟩ := attempt_eq_false hstart
  exact ⟨rfl, fun record hrecord => Record.start?_eq_none.mp (hnone record hrecord)⟩

theorem cancel_eq_true {agenda after : Agenda α} {task : TaskId}
    (hcancel : agenda.cancel task = (after, true)) :
    ∃ record, agenda.records[task]? = some record ∧ record.isDone = false ∧
      after = agenda.withRecord task { record with state := .cancelled } := by
  obtain ⟨record, moved, hrecord, hmove, rfl⟩ := attempt_eq_true hcancel
  obtain ⟨hlive, rfl⟩ := Record.cancel?_eq_some.mp hmove
  exact ⟨record, hrecord, hlive, rfl⟩

theorem cancel_of_live {agenda : Agenda α} {task : TaskId} {record : Record α}
    (hrecord : agenda.records[task]? = some record) (hlive : record.isDone = false) :
    agenda.cancel task = (agenda.withRecord task { record with state := .cancelled }, true) := by
  have hmove : agenda.records[task]?.bind Record.cancel? =
      some { record with state := .cancelled } := by
    rw [hrecord, Option.bind_some, Record.cancel?_eq_some]
    exact ⟨hlive, rfl⟩
  rw [cancel, attempt, hmove]
  rfl

theorem cancel_eq_false {agenda after : Agenda α} {task : TaskId}
    (hcancel : agenda.cancel task = (after, false)) :
    after = agenda ∧ ∀ record, agenda.records[task]? = some record → record.isDone = true := by
  obtain ⟨rfl, hnone⟩ := attempt_eq_false hcancel
  exact ⟨rfl, fun record hrecord => Record.cancel?_eq_none.mp (hnone record hrecord)⟩

/-! ## The queue of an agenda -/

theorem insert_eq {agenda : Agenda α} {caller : Nat} {task : TaskId} {queue : Queue}
    {outcome : Admitted}
    (hinsert : agenda.queue.insert ⟨caller, task, agenda.periodicOf task⟩ (agenda.dueOf task) =
      (queue, outcome)) :
    agenda.insert caller task = ({ agenda with queue }, outcome) := by
  rw [insert, hinsert]

theorem resume_eq {agenda : Agenda α} {producer : Producer} {queue : Queue} {outcome : Admitted}
    (hresume : agenda.queue.resume producer (agenda.dueOf producer.task) = (queue, outcome)) :
    agenda.resume producer = ({ agenda with queue }, outcome) := by
  rw [resume, hresume]

theorem now_of_readable {agenda : Agenda α} (hreadable : agenda.clock.isReadable = true) :
    agenda.now = .ok agenda.reading :=
  ManualClock.now_eq_ok.mpr ⟨hreadable, rfl⟩

theorem now_of_unreadable {agenda : Agenda α} (hunreadable : agenda.clock.isReadable = false) :
    agenda.now = .error .momentOverflow :=
  ManualClock.now_eq_error.mpr ⟨hunreadable, rfl⟩

theorem take_eq {agenda : Agenda α} {caller : Nat} {queue : Queue} {outcome : Taken}
    (hreadable : agenda.queue.asksTime = true → agenda.clock.isReadable = true)
    (htake : agenda.queue.take caller agenda.reading = (queue, outcome)) :
    agenda.take caller = .ok ({ agenda with queue }, outcome) := by
  unfold take
  split
  · rename_i hasks hfault
    rw [now_of_readable (hreadable hasks)] at hfault
    simp at hfault
  · rw [htake]

theorem take_eq_ok {agenda after : Agenda α} {caller : Nat} {outcome : Taken}
    (hok : agenda.take caller = .ok (after, outcome)) :
    ∃ queue, agenda.queue.take caller agenda.reading = (queue, outcome) ∧
      after = { agenda with queue } := by
  unfold take at hok
  split at hok
  · simp at hok
  · obtain ⟨rfl, rfl⟩ := Prod.mk.inj (Except.ok.inj hok)
    exact ⟨_, rfl, rfl⟩

theorem take_of_unreadable {agenda : Agenda α} (hasks : agenda.queue.asksTime = true)
    (hunreadable : agenda.clock.isReadable = false) (caller : Nat) :
    agenda.take caller = .error .momentOverflow := by
  rw [take, hasks, now_of_unreadable hunreadable]

theorem tryInsert_eq_ok {agenda after : Agenda α} {task : TaskId}
    (hok : agenda.tryInsert task = .ok after) :
    agenda.queue.admission = .accepting ∧ agenda.queue.isFull = false ∧
      after = { agenda with
        queue := agenda.queue.push task (agenda.periodicOf task) (agenda.dueOf task) } := by
  unfold tryInsert at hok
  split at hok
  · rename_i queue hqueue
    obtain ⟨hadmission, hroom, rfl⟩ := Queue.tryInsert_eq_ok hqueue
    exact ⟨hadmission, hroom, (Except.ok.inj hok).symm⟩
  · simp at hok

theorem requeue_eq_true {agenda after : Agenda α} {task : TaskId}
    (htrue : agenda.requeue task = (after, true)) :
    agenda.queue.admission = .accepting ∧ agenda.cancelledOf task = false ∧
      after = { agenda with
        queue := agenda.queue.push task (agenda.periodicOf task) (agenda.dueOf task) } := by
  unfold requeue at htrue
  split at htrue
  · rename_i queue hqueue
    obtain ⟨hadmission, hcancelled, rfl⟩ := Queue.requeue_eq_some hqueue
    exact ⟨hadmission, hcancelled, (congrArg Prod.fst htrue).symm⟩
  · exact absurd (congrArg Prod.snd htrue) Bool.false_ne_true

theorem requeue_eq_false {agenda after : Agenda α} {task : TaskId}
    (hfalse : agenda.requeue task = (after, false)) : after = agenda := by
  unfold requeue at hfalse
  split at hfalse
  · exact absurd (congrArg Prod.snd hfalse).symm Bool.false_ne_true
  · exact (congrArg Prod.fst hfalse).symm

theorem refused_of_requeue {agenda after : Agenda α} {task : TaskId}
    (hfalse : agenda.requeue task = (after, false)) :
    agenda.queue.admission ≠ .accepting ∨ agenda.cancelledOf task = true := by
  by_contra hnot
  rw [not_or, Decidable.not_not, Bool.not_eq_true] at hnot
  simp [requeue, Queue.requeue, hnot.1, hnot.2] at hfalse

theorem remove_eq (agenda : Agenda α) (task : TaskId) :
    ∃ found, agenda.remove task =
      ({ agenda with queue := agenda.queue.apply (.remove task) }, found) := by
  have happly : agenda.queue.apply (.remove task) =
      (agenda.queue.remove task).getD agenda.queue := rfl
  rw [happly, remove]
  cases agenda.queue.remove task with
  | none => exact ⟨false, rfl⟩
  | some queue => exact ⟨true, rfl⟩

theorem advance_eq_ok {agenda after : Agenda α} {move : Span}
    (hok : agenda.advance move = .ok after) :
    ∃ clock, agenda.clock.advance move = .ok clock ∧
      after = { agenda with clock, queue := agenda.queue.wake } := by
  unfold advance at hok
  split at hok
  · rename_i clock hclock
    exact ⟨clock, hclock, (Except.ok.inj hok).symm⟩
  · simp at hok

theorem records_passTime {agenda after : Agenda α} {move? : Option Span}
    (hpass : agenda.passTime move? = .ok after) : after.records = agenda.records := by
  cases move? with
  | none =>
      obtain rfl := Except.ok.inj hpass
      rfl
  | some move =>
      obtain ⟨clock, -, rfl⟩ := advance_eq_ok hpass
      rfl

/-! ## Records after a change -/

theorem records_withRecord {agenda : Agenda α} {task other : TaskId} {record moved : Record α}
    (hrecord : agenda.records[task]? = some record) :
    (agenda.withRecord task moved).records[other]? =
      if other = task then some moved else agenda.records[other]? := by
  have hlt : task < agenda.records.size := (Array.getElem?_eq_some_iff.mp hrecord).1
  show (agenda.records.setIfInBounds task moved)[other]? = _
  rw [Array.getElem?_setIfInBounds]
  by_cases hother : other = task
  · subst hother
    rw [if_pos rfl, if_pos rfl, if_pos hlt]
  · rw [if_neg (Ne.symm hother), if_neg hother]

theorem records_update {agenda : Agenda α} {task : TaskId} {record : Record α}
    (hrecord : agenda.records[task]? = some record) (change : Record α → Record α)
    (other : TaskId) :
    (agenda.update task change).records[other]? =
      if other = task then some (change record) else agenda.records[other]? := by
  show (agenda.records.modify task change)[other]? = _
  rw [Array.getElem?_modify]
  by_cases hother : other = task
  · subst hother
    rw [if_pos rfl, if_pos rfl, hrecord, Option.map_some]
  · rw [if_neg (Ne.symm hother), if_neg hother]

theorem records_same {agenda : Agenda α} {task : TaskId} {record : Record α}
    (hrecord : agenda.records[task]? = some record) (other : TaskId) :
    agenda.records[other]? = if other = task then some record else agenda.records[other]? := by
  by_cases hother : other = task
  · rw [if_pos hother, hother, hrecord]
  · rw [if_neg hother]

/-! ## Stages of a run -/

/-- How often the body of a task has been entered. -/
def entries (agenda : Agenda α) (task : TaskId) : Nat :=
  agenda.history.countP fun
    | .entered entered _ _ _ _ => entered == task
    | _ => false

theorem enter_eq {agenda : Agenda α} {task : TaskId} {record : Record α} {run : Nat}
    {turn : Turn α} (hrecord : agenda.records[task]? = some record)
    (hbody : record.enter.2 = some (run, turn)) (worker : Nat) (startedAt : Moment) :
    agenda.enter task worker startedAt =
      ((agenda.withRecord task record.enter.1).note
        (.entered task run startedAt (agenda.dueOf task) worker),
        ⟨task, worker, agenda.dueOf task, startedAt, .inside (some turn)⟩) := by
  have henter : record.enter = (record.enter.1, some (run, turn)) := Prod.ext rfl hbody
  simp only [enter, hrecord]
  rw [henter]
  rfl

theorem enter_fst (agenda : Agenda α) (task : TaskId) (worker : Nat) (startedAt : Moment) :
    ∃ records history,
      (agenda.enter task worker startedAt).1 = { agenda with records, history } := by
  unfold enter
  split
  · exact ⟨_, _, rfl⟩
  · dsimp only
    split
    · exact ⟨_, _, rfl⟩
    · exact ⟨_, _, rfl⟩

theorem enter_snd (agenda : Agenda α) (task : TaskId) (worker : Nat) (startedAt : Moment) :
    ∃ turn?, (agenda.enter task worker startedAt).2 =
      ⟨task, worker, agenda.dueOf task, startedAt, .inside turn?⟩ := by
  unfold enter
  split
  · exact ⟨_, rfl⟩
  · dsimp only
    split
    · exact ⟨_, rfl⟩
    · exact ⟨_, rfl⟩

theorem enter_queue (agenda : Agenda α) (task : TaskId) (worker : Nat) (startedAt : Moment) :
    (agenda.enter task worker startedAt).1.queue = agenda.queue := by
  obtain ⟨records, history, henter⟩ := agenda.enter_fst task worker startedAt
  rw [henter]

theorem entries_note_entered (agenda : Agenda α) (task other : TaskId) (run : Nat)
    (now due : Moment) (worker : Nat) :
    (agenda.note (.entered task run now due worker)).entries other =
      agenda.entries other + if task = other then 1 else 0 := by
  simp only [entries, note, List.countP_cons, beq_iff_eq]

/-! ## Settling a run -/

/-- The bodies that have been entered, the newest first. -/
def bodies (agenda : Agenda α) : List Event := agenda.history.filter Event.isEntry

theorem mem_bodies {agenda : Agenda α} {task : TaskId} {run : Nat} {now due : Moment}
    {worker : Nat} : Event.entered task run now due worker ∈ agenda.bodies ↔
      Event.entered task run now due worker ∈ agenda.history :=
  List.mem_filter.trans (and_iff_left rfl)

theorem not_entered_of_entries {agenda : Agenda α} {task : TaskId}
    (hentries : agenda.entries task = 0) (run : Nat) (now due : Moment) (worker : Nat) :
    Event.entered task run now due worker ∉ agenda.history := by
  intro hmem
  have hnot := List.countP_eq_zero.mp hentries _ hmem
  simp at hnot

/-- How often a body has been entered is a matter of the entries of bodies. -/
theorem entries_eq_countP_bodies (agenda : Agenda α) (task : TaskId) :
    agenda.entries task =
      agenda.bodies.countP fun
        | .entered entered _ _ _ _ => entered == task
        | _ => false := by
  rw [entries, bodies, List.countP_filter]
  refine List.countP_congr fun event _ => ?_
  cases event <;> simp [Event.isEntry]

theorem entries_of_entered {agenda after : Agenda α} {moved : TaskId} {run : Nat}
    {now due : Moment} {worker : Nat}
    (hbodies : after.bodies = .entered moved run now due worker :: agenda.bodies)
    (task : TaskId) :
    after.entries task = agenda.entries task + if moved = task then 1 else 0 := by
  rw [entries_eq_countP_bodies, entries_eq_countP_bodies, hbodies, List.countP_cons]
  simp only [beq_iff_eq]

/-- How many bodies have been told that the tasks they submitted have been accepted. -/
def acceptances (agenda : Agenda α) : Nat := agenda.history.countP Event.accepts

theorem acceptances_note (agenda : Agenda α) (event : Event) :
    (agenda.note event).acceptances = agenda.acceptances + if event.accepts then 1 else 0 := by
  rw [acceptances, note, List.countP_cons]
  rfl

/-- Only records, counters and reports have changed. -/
structure Kept (agenda after : Agenda α) : Prop where
  queue_eq : after.queue = agenda.queue
  clock_eq : after.clock = agenda.clock
  policy_eq : after.policy = agenda.policy
  bodies_eq : after.bodies = agenda.bodies
  acceptances_eq : after.acceptances = agenda.acceptances

theorem Kept.refl (agenda : Agenda α) : Kept agenda agenda := ⟨rfl, rfl, rfl, rfl, rfl⟩

theorem Kept.trans {agenda middle after : Agenda α} (hfirst : Kept agenda middle)
    (hsecond : Kept middle after) : Kept agenda after where
  queue_eq := hsecond.queue_eq.trans hfirst.queue_eq
  clock_eq := hsecond.clock_eq.trans hfirst.clock_eq
  policy_eq := hsecond.policy_eq.trans hfirst.policy_eq
  bodies_eq := hsecond.bodies_eq.trans hfirst.bodies_eq
  acceptances_eq := hsecond.acceptances_eq.trans hfirst.acceptances_eq

theorem Kept.entries_eq {agenda after : Agenda α} (hkept : Kept agenda after) (task : TaskId) :
    after.entries task = agenda.entries task := by
  rw [entries_eq_countP_bodies, entries_eq_countP_bodies, hkept.bodies_eq]

theorem kept_report (agenda : Agenda α) (task : TaskId) (error : TaskError) :
    Kept agenda (agenda.report task error) := by
  unfold report
  split
  · exact ⟨rfl, rfl, rfl, by simp [bodies, note, Event.isEntry], acceptances_note agenda _⟩
  · exact .refl agenda

theorem records_report (agenda : Agenda α) (task : TaskId) (error : TaskError) :
    (agenda.report task error).records = agenda.records := by
  unfold report
  split <;> rfl

theorem kept_account (agenda : Agenda α) (job : Job α) (completedAt : Moment)
    (error? : Option TaskError) : Kept agenda (agenda.account job completedAt error?) := by
  unfold account
  split
  · exact .refl agenda
  · have hmetrics : ∀ metrics : Metrics, Kept agenda { agenda with metrics } :=
      fun _ => ⟨rfl, rfl, rfl, rfl, rfl⟩
    cases error? with
    | none => exact hmetrics _
    | some error => exact (hmetrics _).trans (kept_report ..)

theorem records_account (agenda : Agenda α) (job : Job α) (completedAt : Moment)
    (error? : Option TaskError) :
    (agenda.account job completedAt error?).records = agenda.records := by
  unfold account
  split
  · rfl
  · cases error? with
    | none => rfl
    | some error => exact records_report ..

theorem kept_attempt (agenda : Agenda α) (task : TaskId) (move : Record α → Option (Record α)) :
    Kept agenda (agenda.attempt task move).1 := by
  unfold attempt
  split
  · exact ⟨rfl, rfl, rfl, rfl, rfl⟩
  · exact .refl agenda

theorem records_attempt {agenda : Agenda α} {task : TaskId} {record : Record α}
    (hrecord : agenda.records[task]? = some record) (move : Record α → Option (Record α))
    (other : TaskId) :
    (agenda.attempt task move).1.records[other]? =
      if other = task then some ((move record).getD record) else agenda.records[other]? := by
  rw [attempt, hrecord, Option.bind_some]
  cases hmove : move record with
  | none => exact records_same hrecord other
  | some moved => exact records_withRecord hrecord

theorem kept_rearm (agenda : Agenda α) (task : TaskId) (next : Moment) :
    Kept agenda (agenda.rearm task next).1 := by
  unfold rearm
  split
  · exact ⟨rfl, rfl, rfl, rfl, rfl⟩
  · exact .refl agenda

theorem kept_carryOut (agenda : Agenda α) (task : TaskId) (verdict : Verdict) :
    Kept agenda (agenda.carryOut task verdict).1 := by
  cases verdict with
  | giveUp error =>
      have hnoted : Kept agenda (agenda.noteFailure task error) := ⟨rfl, rfl, rfl, rfl, rfl⟩
      exact (hnoted.trans (kept_report ..)).trans (kept_attempt ..)
  | finish outcome => exact kept_attempt ..
  | rearm next => exact kept_rearm ..

/-- What a verdict asks for is done to the record of the task and to no other. -/
theorem records_carryOut {agenda : Agenda α} {task : TaskId} {record : Record α}
    (hrecord : agenda.records[task]? = some record) (verdict : Verdict) (other : TaskId) :
    (agenda.carryOut task verdict).1.records[other]? =
      if other = task then some (record.judged verdict).1 else agenda.records[other]? := by
  cases verdict with
  | giveUp error =>
      have hnoted : ∀ other,
          ((agenda.noteFailure task error).report task error).records[other]? =
            if other = task then some (record.noteFailure error) else agenda.records[other]? := by
        intro other
        rw [records_report]
        exact records_update hrecord _ other
      refine (records_attempt ((hnoted task).trans (if_pos rfl)) _ other).trans ?_
      rw [hnoted]
      split <;> rfl
  | finish outcome => exact records_attempt hrecord _ other
  | rearm next =>
      simp only [carryOut, rearm, hrecord]
      exact records_withRecord hrecord

theorem carryOut_snd {agenda : Agenda α} {task : TaskId} {record : Record α}
    (hrecord : agenda.records[task]? = some record) (verdict : Verdict) :
    (agenda.carryOut task verdict).2 = (record.judged verdict).2 := by
  cases verdict with
  | giveUp | finish => rfl
  | rearm next =>
      simp only [carryOut, rearm, hrecord]
      rfl

theorem kept_settle {agenda after : Agenda α} {job : Job α} {completedAt : Moment}
    {error? : Option TaskError} {again : Bool}
    (hsettle : agenda.settle job completedAt error? = (after, again)) : Kept agenda after := by
  obtain rfl : (agenda.settle job completedAt error?).1 = after := congrArg Prod.fst hsettle
  unfold settle
  split
  · exact .refl agenda
  · exact (kept_account ..).trans (kept_carryOut ..)

theorem settle_queue {agenda after : Agenda α} {job : Job α} {completedAt : Moment}
    {error? : Option TaskError} {again : Bool}
    (hsettle : agenda.settle job completedAt error? = (after, again)) :
    after.queue = agenda.queue := (kept_settle hsettle).queue_eq

/-- Settling a run does to the record of its task what the verdict on the run asks for. -/
theorem judged_of_settle {agenda after : Agenda α} {job : Job α} {record : Record α}
    {completedAt : Moment} {error? : Option TaskError} {again : Bool}
    (hrecord : agenda.records[job.task]? = some record)
    (hsettle : agenda.settle job completedAt error? = (after, again)) :
    (∀ other, after.records[other]? =
      if other = job.task then
        some (record.judged
          (record.schedule.verdict agenda.policy job.dueAt completedAt error?)).1
      else agenda.records[other]?) ∧
    again =
      (record.judged (record.schedule.verdict agenda.policy job.dueAt completedAt error?)).2 := by
  have hcarried : (agenda.account job completedAt error?).carryOut job.task
      (record.schedule.verdict agenda.policy job.dueAt completedAt error?) = (after, again) := by
    rw [← hsettle, settle, hrecord]
  have hcounted : (agenda.account job completedAt error?).records[job.task]? = some record := by
    rw [records_account, hrecord]
  have hrecords := records_carryOut hcounted
    (record.schedule.verdict agenda.policy job.dueAt completedAt error?)
  have hagain := carryOut_snd hcounted
    (record.schedule.verdict agenda.policy job.dueAt completedAt error?)
  rw [hcarried, records_account] at hrecords
  rw [hcarried] at hagain
  exact ⟨hrecords, hagain⟩

/-- What settling a run changes: the record of the task, and nothing that the queue or
other tasks could notice. -/
structure Settles (agenda : Agenda α) (task : TaskId) (record : Record α) (after : Agenda α)
    (again : Bool) (settled : Record α) : Prop where
  records_eq : ∀ other, after.records[other]? =
    if other = task then some settled else agenda.records[other]?
  queue_eq : after.queue = agenda.queue
  entries_eq : ∀ other, after.entries other = agenda.entries other
  evolves : record.Evolves settled
  runs_eq : settled.runs = record.runs
  cancelled : settled.state = .cancelled → record.state = .cancelled
  rearmed : again = true →
    record.state = .running ∧ settled.state = .pending ∧ record.isPeriodic = true
  done : again = false → record.state = .running ∨ record.isDone = true → settled.isDone = true

theorem settles_settle {agenda after : Agenda α} {job : Job α} {record : Record α}
    {completedAt : Moment} {error? : Option TaskError} {again : Bool}
    (hrecord : agenda.records[job.task]? = some record)
    (hsettle : agenda.settle job completedAt error? = (after, again)) :
    ∃ settled, Settles agenda job.task record after again settled := by
  have hkept := kept_settle hsettle
  obtain ⟨hrecords, hagain⟩ := judged_of_settle hrecord hsettle
  generalize hverdict :
    record.schedule.verdict agenda.policy job.dueAt completedAt error? = verdict at hrecords hagain
  have hstate := record.judged_state verdict
  have houtcome := record.schedule.outcome_verdict agenda.policy job.dueAt completedAt error?
  rw [hverdict] at houtcome
  have hevolves : record.Evolves (record.judged verdict).1 := by
    refine record.judged_evolves fun next hnext => ?_
    exact Schedule.isRepresentable_of_verdict_rearm (hverdict.trans hnext)
  refine ⟨_, hrecords, hkept.queue_eq, hkept.entries_eq, hevolves, record.judged_runs verdict,
    fun hcancelled => ?_, fun htrue => ?_, fun hfalse hover => ?_⟩
  · rw [hstate] at hcancelled
    split at hcancelled
    · exact absurd hcancelled houtcome.1
    · exact hcancelled
  · obtain ⟨hrunning, next, rfl⟩ := Record.judged_snd_eq_true.mp (hagain.symm.trans htrue)
    exact ⟨hrunning, hstate.trans (if_pos hrunning), Schedule.periodic_of_verdict_rearm hverdict⟩
  · rcases hover with hrunning | hdone
    · -- A run that is over for good has come to a verdict other than another run.
      rw [Record.isDone, hstate, if_pos hrunning]
      have hnot : ∀ next, verdict ≠ .rearm next := by
        rintro next rfl
        have htrue := Record.judged_snd_eq_true.mpr ⟨hrunning, next, rfl⟩
        exact Bool.false_ne_true (hfalse.symm.trans (hagain.trans htrue))
      cases verdict with
      | giveUp error => rfl
      | finish outcome =>
          rcases Schedule.eq_or_eq_of_verdict_finish hverdict with rfl | rfl <;> rfl
      | rearm next => exact absurd rfl (hnot next)
    · exact hevolves.isDone hdone

end Agenda

end TimedTasks
