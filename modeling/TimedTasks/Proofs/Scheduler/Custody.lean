import TimedTasks.Proofs.Scheduler.Roster
import TimedTasks.Proofs.Task.Record

/-!
# Where tasks are

A task that has a record is in at most one place: with the call that brings it, in the
queue, in the dispatcher's hand, in the backlog, with a worker, or on the list of tasks
that a shutdown has swept out.  A worker has it in two ways, before and after the task has
been re-armed, because its record looks different then.  A task whose run has been lost is
with nobody, and stays so.

`Located` says in which place a task is, `FitsAt` what its record looks like there, and
`Custody` that both hold of every task.  A move hands one task from one place to another
and changes no other record (`Transfer`); what it takes for custody to be kept is then a
matter of that one task (`Transfer.custody`).
-/

namespace TimedTasks

/-! ## Records in the various places -/

namespace Record

variable {α : Type}

/-- Not running, and not settled otherwise than by a cancellation. -/
def IsIdle (record : Record α) : Prop := record.state = .pending ∨ record.state = .cancelled

/-- Running, unless it has been cancelled meanwhile. -/
def IsBusy (record : Record α) : Prop := record.state = .running ∨ record.state = .cancelled

/-- The body of a one-shot task has not been entered. -/
def IsFresh (record : Record α) : Prop :=
  record.isPeriodic = false → record.runs = 0 ∧ record.bodySpent = false

/-- The body of a one-shot task has been entered once. -/
def HasRun (record : Record α) : Prop := record.isPeriodic = false → record.runs = 1

/-- The body of a one-shot task has been entered once at most. -/
def RunsOnce (record : Record α) : Prop := record.isPeriodic = false → record.runs ≤ 1

/-- Nothing is left to do for the task, and a one-shot task has run unless it has been
cancelled. -/
def IsSettled (record : Record α) : Prop :=
  record.isDone = true ∧ (record.isPeriodic = false → record.state ≠ .cancelled → record.runs = 1)

theorem IsIdle.cancelled (record : Record α) : IsIdle { record with state := .cancelled } :=
  Or.inr rfl

theorem IsSettled.cancelled (record : Record α) : IsSettled { record with state := .cancelled } :=
  ⟨rfl, fun _ hnot => absurd rfl hnot⟩

theorem IsIdle.state_eq {record : Record α} (hidle : record.IsIdle)
    (hnot : record.state ≠ .pending) : record.state = .cancelled :=
  hidle.resolve_left hnot

theorem isSettled_of_cancelled {record : Record α} (hcancelled : record.state = .cancelled) :
    record.IsSettled := by
  refine ⟨?_, fun _ hnot => absurd hcancelled hnot⟩
  rw [Record.isDone, hcancelled]
  rfl

end Record

/-- Where a task can be. -/
inductive Place where
  | drafted
  | queued
  | held
  | backlog
  | running
  /-- With a worker, to go back into the queue. -/
  | returning
  | swept
  | lost
  deriving DecidableEq

/-- The tasks that a call is to bring into the queue. -/
def Call.drafts : Call → List TaskId
  | .inserting task _ => [task]
  | .parked task => [task]
  | _ => []

/-- The tasks that a call has swept out and is to cancel. -/
def Call.sweeps : Call → List TaskId
  | .cancelling _ left _ => left
  | _ => []

/-- The task in the dispatcher's hand. -/
def Dispatcher.hand : Dispatcher → List TaskId
  | .holding task => [task]
  | _ => []

/-- Where the task of a job is. -/
def Job.place {α : Type} (job : Job α) : Place :=
  match job.stage with
  | .inside _ | .left _ => .running
  | .rearmed | .refused => .returning

/-- The task of a job, if it is in a given place. -/
def Job.tasksAt {α : Type} (place : Place) (job : Job α) : List TaskId :=
  if job.place = place then [job.task] else []

theorem Job.place_eq {α : Type} (job : Job α) :
    job.place = .running ∨ job.place = .returning := by
  unfold Job.place
  split
  · exact Or.inl rfl
  · exact Or.inl rfl
  · exact Or.inr rfl
  · exact Or.inr rfl

namespace Scheduler

variable {α : Type}

/-- The tasks in a place. -/
def tasksAt (scheduler : Scheduler α) : Place → List TaskId
  | .drafted => scheduler.calls.flatMap fun call => call.2.drafts
  | .queued => scheduler.agenda.queue.tasks
  | .held => scheduler.dispatcher.hand
  | .backlog => scheduler.backlog
  | .running => scheduler.jobs.flatMap (Job.tasksAt .running)
  | .returning => scheduler.jobs.flatMap (Job.tasksAt .returning)
  | .swept => scheduler.calls.flatMap fun call => call.2.sweeps
  | .lost => scheduler.lostTasks

/-- A task is in one place and no other, or in none at all. -/
def Located (scheduler : Scheduler α) (task : TaskId) (place? : Option Place) : Prop :=
  ∀ place, (scheduler.tasksAt place).count task = if place? = some place then 1 else 0

/-- The record of a task has a property. -/
def Has (scheduler : Scheduler α) (task : TaskId) (p : Record α → Prop) : Prop :=
  ∃ record, scheduler.record? task = some record ∧ p record

theorem Has.holds {scheduler : Scheduler α} {task : TaskId} {p : Record α → Prop}
    (hhas : scheduler.Has task p) {record : Record α}
    (hrecord : scheduler.record? task = some record) : p record := by
  obtain ⟨same, hsame, hholds⟩ := hhas
  obtain rfl := Option.some.inj (hrecord.symm.trans hsame)
  exact hholds

theorem not_isLive_of_done {scheduler : Scheduler α} {task : TaskId}
    (hdone : scheduler.Has task fun record => record.isDone = true) : ¬ scheduler.IsLive task := by
  rintro ⟨record, hrecord, hlive⟩
  exact absurd (hlive.symm.trans (hdone.holds hrecord)) Bool.false_ne_true

/-- What is known of a task in a place. -/
def FitsAt (scheduler : Scheduler α) (task : TaskId) : Option Place → Prop
  | some .drafted =>
      task ∉ scheduler.accepted ∧ scheduler.Has task fun record => record.IsIdle ∧ record.IsFresh
  | some .queued | some .held | some .swept =>
      task ∈ scheduler.accepted ∧ scheduler.Has task fun record => record.IsIdle ∧ record.IsFresh
  | some .backlog =>
      task ∈ scheduler.accepted ∧ scheduler.Has task fun record => record.IsBusy ∧ record.IsFresh
  | some .running =>
      task ∈ scheduler.accepted ∧ scheduler.Has task fun record => record.IsBusy ∧ record.HasRun
  | some .returning =>
      task ∈ scheduler.accepted ∧
        scheduler.Has task fun record => record.IsIdle ∧ record.isPeriodic = true
  | some .lost =>
      task ∈ scheduler.accepted ∧ scheduler.Has task fun record => record.IsBusy ∧ record.RunsOnce
  | none => task ∈ scheduler.accepted → scheduler.Has task Record.IsSettled

/-- Every task is in at most one place, and its record fits. -/
def Custody (scheduler : Scheduler α) : Prop :=
  ∀ task, ∃ place?, scheduler.Located task place? ∧ scheduler.FitsAt task place?

/-! ## What follows from custody -/

variable {before after : Scheduler α} {task other : TaskId} {place? source? target? : Option Place}

theorem Located.unique (hfirst : before.Located task source?)
    (hsecond : before.Located task target?) : source? = target? := by
  -- The counts tell the places apart, and two options with the same members are equal.
  have heq : ∀ place, (source? = some place ↔ target? = some place) := by
    intro place
    have hcount := (hfirst place).symm.trans (hsecond place)
    constructor
    · intro hsource
      by_contra hnot
      rw [if_pos hsource, if_neg hnot] at hcount
      exact absurd hcount (by decide)
    · intro htarget
      by_contra hnot
      rw [if_neg hnot, if_pos htarget] at hcount
      exact absurd hcount (by decide)
  exact Option.ext heq

theorem Located.eq_of_mem {place : Place} (hlocated : before.Located task place?)
    (hmem : task ∈ before.tasksAt place) : place? = some place := by
  by_contra hnot
  have hzero := hlocated place
  rw [if_neg hnot] at hzero
  exact List.count_eq_zero.mp hzero hmem

theorem Located.mem {place : Place} (hlocated : before.Located task (some place)) :
    task ∈ before.tasksAt place := by
  have hone := hlocated place
  rw [if_pos rfl] at hone
  exact List.count_pos_iff.mp (Nat.lt_of_lt_of_eq Nat.one_pos hone.symm)

theorem Custody.located_of_mem {place : Place} (hcustody : before.Custody)
    (hmem : task ∈ before.tasksAt place) : before.Located task (some place) := by
  obtain ⟨place?, hlocated, -⟩ := hcustody task
  exact hlocated.eq_of_mem hmem ▸ hlocated

theorem Custody.fitsAt (hcustody : before.Custody) (hlocated : before.Located task place?) :
    before.FitsAt task place? := by
  obtain ⟨found?, hfound, hfits⟩ := hcustody task
  exact hfound.unique hlocated ▸ hfits

theorem Custody.fitsAt_of_mem {place : Place} (hcustody : before.Custody)
    (hmem : task ∈ before.tasksAt place) : before.FitsAt task (some place) :=
  hcustody.fitsAt (hcustody.located_of_mem hmem)

theorem Custody.not_mem_of_mem {first second : Place} (hcustody : before.Custody)
    (hmem : task ∈ before.tasksAt first) (hne : first ≠ second) :
    task ∉ before.tasksAt second := fun hsecond =>
  hne (Option.some.inj ((hcustody.located_of_mem hmem).eq_of_mem hsecond))

theorem FitsAt.exists_record {place : Place} (hfits : before.FitsAt task (some place)) :
    ∃ record, before.record? task = some record := by
  cases place <;> exact hfits.2.imp fun _ hrecord => hrecord.1

theorem Custody.exists_record_of_accepted (hcustody : before.Custody)
    (haccepted : task ∈ before.accepted) : ∃ record, before.record? task = some record := by
  obtain ⟨place?, -, hfits⟩ := hcustody task
  cases place? with
  | none => exact (hfits haccepted).imp fun _ hrecord => hrecord.1
  | some place => exact hfits.exists_record

theorem Custody.located_none (hcustody : before.Custody) (hrecord : before.record? task = none) :
    before.Located task none := by
  obtain ⟨place?, hlocated, hfits⟩ := hcustody task
  cases place? with
  | none => exact hlocated
  | some place =>
      obtain ⟨record, hsome⟩ := hfits.exists_record
      exact absurd (hrecord.symm.trans hsome) (by simp)

/-- A task that is accepted and not settled is somewhere. -/
theorem Custody.located_of_live (hcustody : before.Custody) (haccepted : task ∈ before.accepted)
    (hlive : before.IsLive task) :
    ∃ place, before.Located task (some place) ∧ before.FitsAt task (some place) := by
  obtain ⟨place?, hlocated, hfits⟩ := hcustody task
  cases place? with
  | some place => exact ⟨place, hlocated, hfits⟩
  | none =>
      obtain ⟨record, hrecord, hdone, -⟩ := hfits haccepted
      exact absurd hlive (not_isLive_of_done ⟨record, hrecord, hdone⟩)

/-! ## Handing tasks over -/

/-- A move takes one task from a place to another and changes no other. -/
structure Transfer (before after : Scheduler α) (task : TaskId) (source? target? : Option Place) :
    Prop where
  places : ∀ place,
    ((if source? = some place then [task] else []) ++ after.tasksAt place).Perm
      ((if target? = some place then [task] else []) ++ before.tasksAt place)
  record_eq : ∀ other, other ≠ task → after.record? other = before.record? other
  accepted_iff : ∀ other, other ≠ task → (other ∈ after.accepted ↔ other ∈ before.accepted)

theorem FitsAt.of_eq (hrecord : after.record? task = before.record? task)
    (haccepted : task ∈ after.accepted ↔ task ∈ before.accepted)
    (hfits : before.FitsAt task place?) : after.FitsAt task place? := by
  rcases place? with _ | place
  · simpa only [FitsAt, Has, hrecord, haccepted] using hfits
  · cases place <;> simpa only [FitsAt, Has, hrecord, haccepted] using hfits

theorem count_ite_singleton (p : Prop) [Decidable p] (task other : TaskId) :
    (if p then [task] else []).count other = if p ∧ task = other then 1 else 0 := by
  by_cases hp : p
  · by_cases heq : task = other
    · simp [hp, heq]
    · simp [hp, heq]
  · simp [hp]

namespace Transfer

theorem located_self (htransfer : Transfer before after task source? target?)
    (hlocated : before.Located task source?) : after.Located task target? := by
  intro place
  have hcount := (htransfer.places place).count_eq task
  rw [List.count_append, List.count_append, hlocated place, count_ite_singleton,
    count_ite_singleton] at hcount
  simp only [and_true] at hcount
  omega

theorem located_other (htransfer : Transfer before after task source? target?)
    (hother : other ≠ task) (hlocated : before.Located other place?) :
    after.Located other place? := by
  intro place
  have hcount := (htransfer.places place).count_eq other
  rw [List.count_append, List.count_append, hlocated place, count_ite_singleton,
    count_ite_singleton, if_neg fun h => hother h.2.symm, if_neg fun h => hother h.2.symm] at hcount
  omega

/-- Custody is kept if the one task fits where it goes. -/
theorem custody (htransfer : Transfer before after task source? target?)
    (hlocated : before.Located task source?)
    (hfits : before.FitsAt task source? → after.FitsAt task target?)
    (hcustody : before.Custody) : after.Custody := by
  intro other
  by_cases hother : other = task
  · subst hother
    exact ⟨target?, htransfer.located_self hlocated, hfits (hcustody.fitsAt hlocated)⟩
  · obtain ⟨place?, hplace, hfit⟩ := hcustody other
    exact ⟨place?, htransfer.located_other hother hplace,
      hfit.of_eq (htransfer.record_eq other hother) (htransfer.accepted_iff other hother)⟩

/-- Custody is kept if the one task stays where it is and still fits there. -/
theorem custody_of_stays (htransfer : Transfer before after task none none)
    (hfits : ∀ place?, before.FitsAt task place? → after.FitsAt task place?)
    (hcustody : before.Custody) : after.Custody := by
  obtain ⟨place?, hlocated, -⟩ := hcustody task
  have hstays : Transfer before after task place? place? :=
    ⟨fun place => (htransfer.places place).append_left _, htransfer.record_eq,
      htransfer.accepted_iff⟩
  exact hstays.custody hlocated (hfits place?) hcustody

end Transfer

/-- Custody is kept if nothing happens to any task. -/
theorem Custody.of_same (hcustody : before.Custody)
    (hplaces : ∀ place, (after.tasksAt place).Perm (before.tasksAt place))
    (hrecords : after.agenda.records = before.agenda.records)
    (haccepted : after.accepted = before.accepted) : after.Custody := by
  have hrecord : ∀ task, after.record? task = before.record? task :=
    fun task => congrArg (·[task]?) hrecords
  have hsame : ∀ task, task ∈ after.accepted ↔ task ∈ before.accepted :=
    fun task => by rw [haccepted]
  have htransfer : Transfer before after 0 none none :=
    ⟨hplaces, fun other _ => hrecord other, fun other _ => hsame other⟩
  exact htransfer.custody_of_stays (fun _ hfits => hfits.of_eq (hrecord 0) (hsame 0)) hcustody

/-- Custody is kept when some of the queued tasks are swept out together. -/
theorem Custody.of_sweep (hcustody : before.Custody) (removed : List TaskId)
    (hqueued : (after.tasksAt .queued ++ removed).Perm (before.tasksAt .queued))
    (hswept : (after.tasksAt .swept).Perm (removed ++ before.tasksAt .swept))
    (hplaces : ∀ place, place ≠ .queued → place ≠ .swept →
      (after.tasksAt place).Perm (before.tasksAt place))
    (hrecords : after.agenda.records = before.agenda.records)
    (haccepted : after.accepted = before.accepted) : after.Custody := by
  intro task
  have hrecord : after.record? task = before.record? task := congrArg (·[task]?) hrecords
  have hsame : task ∈ after.accepted ↔ task ∈ before.accepted := by rw [haccepted]
  obtain ⟨place?, hlocated, hfits⟩ := hcustody task
  have hqueued := hqueued.count_eq task
  have hswept := hswept.count_eq task
  rw [List.count_append, hlocated] at hqueued hswept
  -- Only a task that was queued can be swept out, and where it goes it has to look the same.
  by_cases hremoved : removed.count task = 0
  · refine ⟨place?, fun place => ?_, hfits.of_eq hrecord hsame⟩
    cases place with
    | queued | swept => omega
    | _ => exact ((hplaces _ (by decide) (by decide)).count_eq task).trans (hlocated _)
  · have hplace : place? = some .queued := by
      by_contra hnot
      rw [if_neg hnot] at hqueued
      omega
    subst hplace
    rw [if_pos rfl] at hqueued
    rw [if_neg (by decide)] at hswept
    have hfitsSwept : before.FitsAt task (some .swept) := hfits
    refine ⟨some .swept, fun place => ?_, hfitsSwept.of_eq hrecord hsame⟩
    cases place with
    | queued => rw [if_neg (by decide)]; omega
    | swept => rw [if_pos rfl]; omega
    | _ => exact ((hplaces _ (by decide) (by decide)).count_eq task).trans (hlocated _)

end Scheduler

end TimedTasks
