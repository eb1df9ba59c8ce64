import TimedTasks.Proofs.Scheduler.Punctuality

/-!
# When runs start

Three things are said of a step of a scheduler, and together they say that no run starts too
early.  A body is entered when the due time of its record has come.  A task that becomes
pending after a run is due later than it was for that run.  And a record that is added is due a
delay after the moment at which its task has been submitted, however long it takes from there
until the task is let into the queue.

Whoever is in a body does what the script of the task says for the run that has been counted last
(`Scripted`).
-/

namespace TimedTasks

namespace Scheduler

variable {α : Type} {origin before after scheduler : Scheduler α} {action : Action α}
variable {config : Config} {cores : Nat} {task : TaskId}

/-! ## Bodies that are entered -/

/-- A worker enters the body of a task of the backlog, and the history says when. -/
structure Enters (action : Action α) (before : Scheduler α) (task : TaskId) (record : Record α)
    (run worker : Nat) (after : Scheduler α) : Prop where
  cause : ∃ position, action = .takeUp position
  mem : task ∈ before.backlog
  record_eq : before.record? task = some record
  body : ∃ turn, record.enter.2 = some (run, turn)
  bodies_eq : after.agenda.bodies =
    .entered task run before.agenda.reading record.nextRunAt worker :: before.agenda.bodies

theorem Move.bodies_cases (hmove : Move origin action before after) (hcustody : before.Custody) :
    after.agenda.bodies = before.agenda.bodies ∨
      ∃ task record run worker, Enters action before task record run worker after := by
  cases hmove with
  | @tookUp position task worker htask _ hcause =>
      obtain ⟨record, run, turn, hrecord, hbody⟩ := hcustody.exists_body htask
      refine Or.inr ⟨task, record, run, worker, ⟨position, hcause⟩, List.mem_of_getElem? htask,
        hrecord, ⟨turn, hbody⟩, ?_⟩
      rw [Agenda.enter_eq hrecord hbody worker, dueOf_eq_nextRunAt hrecord]
      rfl
  | settled _ _ hsettle | rearmed _ _ hsettle =>
      exact Or.inl (Agenda.kept_settle hsettle).bodies_eq
  | _ => exact Or.inl rfl

/-- A step enters one body at most, and not before it is due. -/
theorem Reachable.enters_of_step (hreachable : Reachable config cores before)
    (hstep : before.step action = some after) :
    after.agenda.bodies = before.agenda.bodies ∨
      ∃ task record run worker, Enters action before task record run worker after ∧
        record.nextRunAt ≤ before.agenda.reading := by
  have hsound := hreachable.sound
  cases action with
  | takeUp position =>
      refine ((move_takeUp hstep).bodies_cases hsound.custody).imp_right ?_
      rintro ⟨task, record, run, worker, henters⟩
      have hdue := hreachable.punctual.handed task (List.mem_append_right _ henters.mem)
      rw [dueOf_eq_nextRunAt henters.record_eq] at hdue
      exact ⟨task, record, run, worker, henters, hdue⟩
  | _ =>
      left
      refine of_step (p := fun state => state.agenda.bodies = before.agenda.bodies) hsound hstep
        rfl fun first second hfirst hsame hmove => ?_
      rcases hmove.bodies_cases hfirst.custody with heq | ⟨_, _, _, _, henters⟩
      · exact heq.trans hsame
      · obtain ⟨position, hcause⟩ := henters.cause
        cases hcause

/-- Whoever is in a body has come there from the backlog. -/
theorem Move.inside_cases (hmove : Move origin action before after) {job : Job α}
    (hjob : job ∈ after.jobs) {turn? : Option (Turn α)} (hstage : job.stage = .inside turn?) :
    job ∈ before.jobs ∨
      ∃ position worker : Nat, before.backlog[position]? = some job.task ∧
        before.agenda.enter job.task worker before.agenda.reading = (after.agenda, job) := by
  have hgoOn : ∀ {scheduler : Scheduler α} {current : Job α} {stage : Stage α},
      (∀ turn?, stage ≠ .inside turn?) → scheduler.jobs = before.jobs →
      job ∈ (scheduler.goOnWith current stage).jobs → job ∈ before.jobs := by
    intro scheduler current stage hother hsame hmem
    rcases mem_jobs_goOnWith hmem with hold | rfl
    · exact hsame ▸ hold
    · exact absurd hstage (hother turn?)
  cases hmove with
  | @tookUp position moved worker hmoved =>
      rcases List.mem_append.mp hjob with hold | hnew
      · exact Or.inl hold
      · obtain rfl := List.mem_singleton.mp hnew
        obtain ⟨turn?, henter⟩ := before.agenda.enter_snd moved worker before.agenda.reading
        have htask : (before.agenda.enter moved worker before.agenda.reading).2.task = moved := by
          rw [henter]
        exact Or.inr ⟨position, worker, htask.symm ▸ hmoved, by rw [htask]⟩
  | skipped | ended | rearmed | requeueRefused =>
      exact Or.inl (hgoOn (fun _ => by simp) rfl hjob)
  | settled | requeued | dropped | letGo | lostUncounted =>
      exact Or.inl (List.mem_of_mem_filter hjob)
  | _ => exact Or.inl hjob

theorem Fate.runs_eq {first second : Option (Record α) × Nat}
    (hfate : Fate origin action before task first second) (hnot : task ∉ before.backlog)
    {record : Record α} (hrecord : first.1 = some record) :
    ∃ later, second.1 = some later ∧ later.runs = record.runs := by
  cases hfate with
  | kept => exact ⟨record, hrecord, rfl⟩
  | drafted => simp at hrecord
  | cancelled | started =>
      obtain rfl := Option.some.inj hrecord
      exact ⟨_, rfl, rfl⟩
  | entered hbacklog => exact absurd hbacklog hnot
  | @left found _ ending =>
      obtain rfl := Option.some.inj hrecord
      obtain ⟨result?, failures, lastError?, hleave⟩ := found.leave_eq ending
      exact ⟨_, rfl, by rw [hleave]⟩
  | settled _ hruns =>
      obtain rfl := Option.some.inj hrecord
      exact ⟨_, rfl, hruns⟩

/-- Whoever is in a body does what the script of the task says for its last run. -/
def Scripted (scheduler : Scheduler α) : Prop :=
  ∀ job ∈ scheduler.jobs, ∀ turn?, job.stage = .inside turn? →
    scheduler.Has job.task fun record => turn? = some (record.script record.runs)

theorem Move.scripted (hmove : Move origin action before after) (hsound : before.Sound)
    (hscripted : before.Scripted) : after.Scripted := by
  intro job hjob turn? hstage
  have hcustody : before.Custody := hsound.custody
  rcases hmove.inside_cases hjob hstage with hold | ⟨position, worker, hbacklog, hentered⟩
  · obtain ⟨record, hrecord, rfl⟩ := hscripted job hold turn? hstage
    have hplace : job.place = .running := by rw [Job.place, hstage]
    have hrunning : job.task ∈ before.tasksAt .running := hplace ▸ mem_tasksAt_place hold
    have hnot : job.task ∉ before.backlog :=
      hcustody.not_mem_of_mem hrunning (by decide : Place.running ≠ .backlog)
    obtain ⟨later, hlater, hevolves⟩ := hmove.recordsEvolve hcustody _ record hrecord
    obtain ⟨found, hfound, hruns⟩ := (hmove.fate hcustody job.task).runs_eq hnot hrecord
    obtain rfl := Option.some.inj (hfound.symm.trans hlater)
    refine ⟨found, hlater, congrArg some ?_⟩
    rw [hevolves.script_eq, hruns]
  · obtain ⟨record, run, turn, hrecord, hbody⟩ := hcustody.exists_body hbacklog
    have hmem : job.task ∈ before.tasksAt .backlog := List.mem_of_getElem? hbacklog
    obtain ⟨-, hfits⟩ := hcustody.fitsAt_of_mem hmem
    obtain ⟨-, hfresh⟩ := hfits.holds hrecord
    rw [Agenda.enter_eq hrecord hbody worker] at hentered
    obtain ⟨hagenda, hjob⟩ := Prod.mk.inj hentered
    have hsame : Stage.inside (some turn) = .inside turn? :=
      (congrArg Job.stage hjob).trans hstage
    obtain rfl := Stage.inside.inj hsame
    have hafter : after.record? job.task = some record.enter.1 := by
      rw [record?, ← hagenda]
      exact (Agenda.records_withRecord hrecord).trans (if_pos rfl)
    obtain ⟨bodySpent, henter⟩ := record.enter_fst
    refine ⟨_, hafter, congrArg some ?_⟩
    have hrun := Record.run_of_enter hbody fun honce => (hfresh honce).1
    rw [henter, ← hrun]
    exact (Record.script_of_enter hbody).symm

theorem Reachable.scripted (hreachable : Reachable config cores scheduler) :
    scheduler.Scripted := by
  refine hreachable.induction_on_moves (fun first hcreated => ?_)
    fun _ _ _ _ hsound hscripted hmove => hmove.scripted hsound hscripted
  obtain rfl := new_eq_ok hcreated
  exact fun job hjob => absurd hjob List.not_mem_nil

/-! ## Due times that move on -/

/-- Whatever has a record keeps it, and its due time does not move back. -/
def RecordsAdvance (before after : Scheduler α) : Prop :=
  ∀ task record, before.record? task = some record →
    ∃ later, after.record? task = some later ∧ record.Advances later

theorem RecordsAdvance.refl (before : Scheduler α) : RecordsAdvance before before :=
  fun _ record hrecord => ⟨record, hrecord, .refl record⟩

theorem RecordsAdvance.trans {middle : Scheduler α} (hfirst : RecordsAdvance before middle)
    (hsecond : RecordsAdvance middle after) : RecordsAdvance before after := by
  intro task record hrecord
  obtain ⟨found, hfound, hadvances⟩ := hfirst task record hrecord
  obtain ⟨later, hlater, hfurther⟩ := hsecond task found hfound
  exact ⟨later, hlater, hadvances.trans hfurther⟩

theorem Move.recordsAdvance (hmove : Move origin action before after) (hsound : before.Sound)
    (hpunctual : before.Punctual) : RecordsAdvance before after := by
  intro task record hrecord
  rcases hmove.settling_or_rests hsound task with hsettling | hrests
  · obtain ⟨hbusy, hdue, error?, hlater⟩ := hsettling.judged hsound hpunctual hrecord
    exact ⟨_, hlater, hbusy.advances_judged (hpunctual.period task record hrecord) hdue error?⟩
  · obtain ⟨later, hlater, hsame⟩ := hrests.record record hrecord
    exact ⟨later, hlater, hsame.advances⟩

theorem Reachable.recordsAdvance (hreachable : Reachable config cores before)
    (hstep : before.step action = some after) : RecordsAdvance before after := by
  refine (of_step (p := fun state => state.Punctual ∧ RecordsAdvance before state)
    hreachable.sound hstep ⟨hreachable.punctual, .refl before⟩ ?_).2
  rintro first second hsound ⟨hpunctual, hadvance⟩ hmove
  exact ⟨hmove.punctual hsound hpunctual, hadvance.trans (hmove.recordsAdvance hsound hpunctual)⟩

/-- While a task is running, the worker that has it has its due time. -/
theorem Reachable.dueAt_eq (hreachable : Reachable config cores scheduler) {record : Record α}
    (hrecord : scheduler.record? task = some record) (hrunning : record.state = .running)
    {job : Job α} (hjob : job ∈ scheduler.jobs) (htask : job.task = task) :
    job.dueAt = record.nextRunAt := by
  subst htask
  have hfits := hreachable.sound.custody.fitsAt_of_mem (mem_tasksAt_place hjob)
  rcases job.place_eq with hplace | hplace
  · rw [← dueOf_eq_nextRunAt hrecord]
    exact (hreachable.punctual.job job hjob hplace).1
  · rw [hplace] at hfits
    obtain ⟨hidle, -⟩ := hfits.2.holds hrecord
    rcases hidle with hstate | hstate <;> simp [hrunning] at hstate

/-! ## Tasks that are submitted -/

/-- Whether an action submits a task with such a record: it is due for the first time the delay
of the submission after the moment at which it is submitted. -/
def Brings (scheduler : Scheduler α) (action : Action α) (record : Record α) : Prop :=
  ∃ submission now, scheduler.Submits action now submission ∧
    record.schedule = submission.schedule ∧ now.add? submission.delay = some record.nextRunAt

theorem Brings.ne_takeUp {record : Record α} (hbrings : scheduler.Brings action record)
    (position : Nat) : action ≠ .takeUp position := by
  rintro rfl
  obtain ⟨submission, now, hsubmits, -⟩ := hbrings
  exact hsubmits

theorem record?_of_asked {submission : Submission α} {due : Moment} {patient : Bool}
    (hdue : before.firstDue submission = .ok (.ok due))
    (hstep : before.step (.request (.schedule submission patient)) = some after) :
    after.record? before.agenda.records.size = some (submission.record due) := by
  have hasked : before.request (.schedule submission patient) = after := Option.some.inj hstep
  rw [← hasked, request_of_due hdue]
  exact (record?_draft ..).trans (if_pos rfl)

/-- The record of a task that is being submitted stays as it has been brought. -/
theorem Move.brings (hmove : Move origin action before after) (hsound : before.Sound)
    (hbrings : ∀ record, before.record? task = some record → origin.Brings action record)
    (hidle : task ∉ before.tasksAt .running) :
    (∀ record, after.record? task = some record → origin.Brings action record) ∧
      task ∉ after.tasksAt .running := by
  constructor
  · intro later hlater
    cases hrecord : before.record? task with
    | none =>
        obtain ⟨submission, due, hsubmits, hdue, rfl⟩ :=
          (hmove.fate hsound.custody task).submitted hrecord hlater
        exact ⟨submission, _, hsubmits, rfl, (firstDue_eq_ok hdue).2.2.1⟩
    | some record =>
        obtain ⟨submission, now, hsubmits, hschedule, hadd⟩ := hbrings record hrecord
        obtain ⟨found, hfound, hevolves⟩ := hmove.recordsEvolve hsound.custody task record hrecord
        obtain rfl := Option.some.inj (hfound.symm.trans hlater)
        rcases hmove.settling_or_rests hsound task with hsettling | hrests
        · exact absurd hsettling.mem_running hidle
        · obtain ⟨same, hsame, hrest⟩ := hrests.record record hrecord
          obtain rfl := Option.some.inj (hsame.symm.trans hfound)
          exact ⟨submission, now, hsubmits, hevolves.schedule_eq.trans hschedule,
            hrest.due_eq ▸ hadd⟩
  · intro hmem
    rcases hmove.running_cases hmem with hrunning | ⟨⟨position, hcause⟩, hbacklog⟩
    · exact hidle hrunning
    · have hwaits : task ∈ before.tasksAt .backlog := hbacklog
      obtain ⟨record, hrecord⟩ := (hsound.custody.fitsAt_of_mem hwaits).exists_record
      exact (hbrings record hrecord).ne_takeUp position hcause

/-- Whatever has got a record has been submitted. -/
theorem Sound.brings_of_step (hsound : before.Sound) (hstep : before.step action = some after)
    (hnone : before.record? task = none) {record : Record α}
    (hrecord : after.record? task = some record) : before.Brings action record := by
  have hnowhere : task ∉ before.tasksAt .running := by
    intro hmem
    exact absurd ((hsound.custody.located_none hnone).eq_of_mem hmem) (by simp)
  refine (Scheduler.of_step (p := fun state => (∀ record, state.record? task = some record →
    before.Brings action record) ∧ task ∉ state.tasksAt .running) hsound hstep
    ⟨fun record hsome => absurd (hnone.symm.trans hsome) (by simp), hnowhere⟩ ?_).1 record hrecord
  rintro first second hfirst ⟨hbrings, hidle⟩ hmove
  exact hmove.brings hfirst hbrings hidle

theorem Reachable.not_entered_of_new (hreachable : Reachable config cores before)
    (hstep : before.step action = some after) (hnone : before.record? task = none) (run : Nat)
    (now due : Moment) (worker : Nat) :
    .entered task run now due worker ∉ after.agenda.history := by
  have hfresh : before.agenda.entries task = 0 := by
    rw [hreachable.tallied task, hnone]
    rfl
  have hbefore := Agenda.not_entered_of_entries hfresh run now due worker
  rw [← Agenda.mem_bodies] at hbefore ⊢
  rcases hreachable.enters_of_step hstep with hsame | ⟨entered, record, number, hand, henters, -⟩
  · rwa [hsame]
  · rw [henters.bodies_eq, List.mem_cons]
    rintro (hnew | hold)
    · obtain ⟨rfl, -⟩ := Event.entered.inj hnew
      exact absurd (hnone.symm.trans henters.record_eq) (by simp)
    · exact hbefore hold

/-- The body of a task is never entered before the task is due for the first time. -/
theorem Leads.entered_le (hleads : scheduler.Leads after)
    (hreachable : Reachable config cores scheduler) {record : Record α}
    (hrecord : scheduler.record? task = some record)
    (hfresh : ∀ run now due worker,
      .entered task run now due worker ∉ scheduler.agenda.history) :
    (∃ later, after.record? task = some later ∧ record.nextRunAt ≤ later.nextRunAt) ∧
      ∀ run now due worker, .entered task run now due worker ∈ after.agenda.history →
        record.nextRunAt ≤ now := by
  -- The due time is carried along: it only grows, and the next body is not entered before it.
  induction hleads with
  | refl =>
      refine ⟨⟨record, hrecord, Nat.le_refl _⟩, fun run now due worker hmem => ?_⟩
      exact absurd hmem (hfresh run now due worker)
  | @tail middle after hmiddle hlast ih =>
      obtain ⟨action, hstep⟩ := hlast
      obtain ⟨⟨found, hfound, hle⟩, hearlier⟩ := ih
      have hreached := Leads.reachable hmiddle hreachable
      obtain ⟨later, hlater, hadvances⟩ := hreached.recordsAdvance hstep task found hfound
      refine ⟨⟨later, hlater, Nat.le_trans hle hadvances.due_le⟩, ?_⟩
      intro run now due worker hmem
      rw [← Agenda.mem_bodies] at hmem
      rcases hreached.enters_of_step hstep with hsame | ⟨entered, current, number, hand, henters⟩
      · exact hearlier run now due worker (Agenda.mem_bodies.mp (hsame ▸ hmem))
      · obtain ⟨henters, hdue⟩ := henters
        rw [henters.bodies_eq, List.mem_cons] at hmem
        rcases hmem with hnew | hold
        · obtain ⟨rfl, -, rfl, -, -⟩ := Event.entered.inj hnew
          obtain rfl := Option.some.inj (hfound.symm.trans henters.record_eq)
          exact Nat.le_trans hle hdue
        · exact hearlier run now due worker (Agenda.mem_bodies.mp hold)

/-! ## All of it -/

/-- No body is entered before the record of its task is due; a task that becomes pending after
a run is due later than it was for the run; and a task is due for the first time the delay of its
submission after it has been submitted, and never entered before that. -/
theorem Reachable.never_early (hreachable : Reachable config cores before)
    (hstep : before.step action = some after) :
    (after.agenda.bodies = before.agenda.bodies ∨
      ∃ task record run worker, before.record? task = some record ∧
        after.agenda.bodies =
          .entered task run before.agenda.reading record.nextRunAt worker :: before.agenda.bodies ∧
        record.nextRunAt ≤ before.agenda.reading) ∧
    (∀ task record later, before.record? task = some record → after.record? task = some later →
      record.state = .running → later.state = .pending →
        record.nextRunAt < later.nextRunAt ∧
          ∀ job ∈ before.jobs, job.task = task → job.dueAt = record.nextRunAt) ∧
    ∀ task record, before.record? task = none → after.record? task = some record →
      before.Brings action record ∧ ∀ final, after.Leads final → ∀ run now due worker,
        .entered task run now due worker ∈ final.agenda.history → record.nextRunAt ≤ now := by
  refine ⟨?_, fun task record later hrecord hlater hrunning hpending => ?_,
    fun task record hnone hrecord => ?_⟩
  · refine (hreachable.enters_of_step hstep).imp_right ?_
    rintro ⟨task, record, run, worker, henters, hdue⟩
    exact ⟨task, record, run, worker, henters.record_eq, henters.bodies_eq, hdue⟩
  · obtain ⟨found, hfound, hadvances⟩ := hreachable.recordsAdvance hstep task record hrecord
    obtain rfl := Option.some.inj (hfound.symm.trans hlater)
    refine ⟨(hadvances.due_lt hpending).resolve_left (by simp [hrunning]), ?_⟩
    exact fun job hjob htask => hreachable.dueAt_eq hrecord hrunning hjob htask
  · have hbrings := hreachable.sound.brings_of_step hstep hnone hrecord
    have hfresh := hreachable.not_entered_of_new hstep hnone
    exact ⟨hbrings, fun final hleads =>
      (Leads.entered_le hleads (.step hreachable action hstep) hrecord hfresh).2⟩

/-- A run that was due after one second has started after three, and two seconds later the task
is due again. -/
theorem never_early_after_late_run :
    ∃ (before after : Scheduler Unit) (record later : Record Unit), Reachable {} 1 before ∧
      before.step (.work 0) = some after ∧ before.record? 0 = some record ∧
      after.record? 0 = some later ∧ later.nextRunAt = ⟨5000000000⟩ ∧
      record.nextRunAt < later.nextRunAt := by
  have hview : (played {} 1
      [.request (.schedule (plainTask (.fixedDelay (.ofSeconds 2)) (.ofSeconds 1)) true),
        .proceed 0, .advance (.ofSeconds 3), .announce, .dispatch, .dispatch, .takeUp 0,
        .work 0]).bind (fun result => (result.2.step (.work 0)).map fun after =>
          ((result.2.record? 0).map Record.state,
            (after.record? 0).map fun later => (later.state, later.nextRunAt))) =
      some (some .running, some (.pending, ⟨5000000000⟩)) := by
    decide +kernel
  obtain ⟨⟨past, before⟩, hplayed, hstepped⟩ := Option.bind_eq_some_iff.mp hview
  obtain ⟨after, hstep, hparts⟩ := Option.map_eq_some_iff.mp hstepped
  simp only [Prod.mk.injEq, Option.map_eq_some_iff] at hparts
  obtain ⟨⟨record, hrecord, hrunning⟩, later, hlater, hpending, hnext⟩ := hparts
  have hreachable := (Run.of_played hplayed).reachable
  have hforward := (hreachable.never_early hstep).2.1 0 record later hrecord hlater hrunning
  exact ⟨before, after, record, later, hreachable, hstep, hrecord, hlater, hnext,
    (hforward hpending).1⟩

end Scheduler

end TimedTasks
