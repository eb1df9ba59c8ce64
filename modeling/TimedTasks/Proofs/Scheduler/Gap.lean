import Mathlib.Algebra.GroupWithZero.Nat
import TimedTasks.Proofs.Scheduler.Cadence

/-!
# The gap of a fixed delay

With a fixed delay, a run is due a period after the last one has been completed.  So the due time
goes with the clock, as it is read when a run has been counted, and whatever has held up a run,
or made it take long, holds up all later ones.

`Spaced` says this of the starts of the runs and of the moments at which they were completed, and
the account of the time between them is exact (`Spaced.now_eq`): a run starts a period for each
earlier run after the first due time, and the time that the earlier runs have taken, and all the
time by which it and the earlier ones were late.  `Gap` is what every step of a scheduler keeps.
-/

namespace TimedTasks

/-- When a run was due, and when it started. -/
structure Start where
  due : Moment
  now : Moment
  deriving DecidableEq, Repr

/-- The start of which an event tells, if it is that of a run of the task. -/
def Event.start? (task : TaskId) : Event → Option Start
  | .entered moved _ now due _ => if moved = task then some ⟨due, now⟩ else none
  | .reported _ | .submitted .. => none

/-- The starts of the runs of a task, the oldest first. -/
def Agenda.starts {α : Type} (agenda : Agenda α) (task : TaskId) : List Start :=
  (agenda.bodies.filterMap (Event.start? task)).reverse

/-! ## Runs with a gap between them -/

/-- The nanoseconds at which the next run is due after those that have ended. -/
def dueAfter (first : Moment) (period : Span) (ends : List Moment) : Nat :=
  match ends.getLast? with
  | none => first.nanos
  | some ended => ended.nanos + period.nanos

/-- How long the first runs have taken together. -/
def elapsed (starts : List Start) (ends : List Moment) (count : Nat) : Nat :=
  ((List.zipWith (fun (start : Start) (ended : Moment) => ended.nanos - start.now.nanos)
    starts ends).take count).sum

/-- How late the first runs have started, all in all. -/
def lateness (starts : List Start) (count : Nat) : Nat :=
  ((starts.take count).map fun start => start.now.nanos - start.due.nanos).sum

/-- Each run is due a period after the end of the one before, and starts no earlier. -/
structure Spaced (first : Moment) (period : Span) (starts : List Start) (ends : List Moment) :
    Prop where
  due_eq : ∀ (index : Nat) (start : Start), starts[index]? = some start →
    start.due.nanos = dueAfter first period (ends.take index)
  due_le : ∀ (index : Nat) (start : Start), starts[index]? = some start → start.due ≤ start.now
  now_le : ∀ (index : Nat) (start : Start) (ended : Moment), starts[index]? = some start →
    ends[index]? = some ended → start.now ≤ ended
  length_le : starts.length ≤ ends.length + 1

section Spaced

variable {first : Moment} {period : Span} {starts : List Start} {ends : List Moment}
variable {count : Nat} {start : Start} {ended : Moment}

theorem getElem?_concat {β : Type} {items : List β} {last found : β} {index : Nat}
    (hfound : (items ++ [last])[index]? = some found) :
    items[index]? = some found ∨ index = items.length ∧ found = last := by
  rcases Nat.lt_or_ge index items.length with hless | hge
  · exact Or.inl ((List.getElem?_append_left hless).symm.trans hfound)
  · rw [List.getElem?_append_right hge, List.getElem?_singleton] at hfound
    split at hfound
    · exact Or.inr ⟨by omega, (Option.some.inj hfound).symm⟩
    · simp at hfound

theorem dueAfter_concat (first : Moment) (period : Span) (ends : List Moment) (ended : Moment) :
    dueAfter first period (ends ++ [ended]) = ended.nanos + period.nanos := by
  rw [dueAfter, List.getLast?_concat]

theorem dueAfter_take_succ (hended : ends[count]? = some ended) :
    dueAfter first period (ends.take (count + 1)) = ended.nanos + period.nanos := by
  rw [List.take_add_one, hended, Option.toList_some, dueAfter_concat]

theorem elapsed_succ (hstart : starts[count]? = some start) (hended : ends[count]? = some ended) :
    elapsed starts ends (count + 1) =
      elapsed starts ends count + (ended.nanos - start.now.nanos) := by
  have hitem : (List.zipWith (fun (start : Start) (ended : Moment) =>
      ended.nanos - start.now.nanos) starts ends)[count]? =
        some (ended.nanos - start.now.nanos) := by
    rw [List.getElem?_zipWith, hstart, hended]
  rw [elapsed, List.take_add_one, hitem, Option.toList_some, List.sum_append, List.sum_singleton,
    elapsed]

theorem lateness_succ (hstart : starts[count]? = some start) :
    lateness starts (count + 1) =
      lateness starts count + (start.now.nanos - start.due.nanos) := by
  rw [lateness, List.take_add_one, hstart, Option.toList_some, List.map_append, List.map_singleton,
    List.sum_append, List.sum_singleton, lateness]

/-- A run starts when the one before has ended and the period has passed. -/
theorem Spaced.exists_end (hspaced : Spaced first period starts ends)
    (hnext : starts[count + 1]? = some start) :
    ∃ earlier ended, starts[count]? = some earlier ∧ ends[count]? = some ended ∧
      earlier.now ≤ ended ∧ start.due.nanos = ended.nanos + period.nanos := by
  have hlength := hspaced.length_le
  obtain ⟨hless, -⟩ := List.getElem?_eq_some_iff.mp hnext
  have hstarted : starts[count]? = some starts[count] := List.getElem?_eq_getElem (by omega)
  have hended : ends[count]? = some ends[count] := List.getElem?_eq_getElem (by omega)
  refine ⟨starts[count], ends[count], hstarted, hended,
    hspaced.now_le count _ _ hstarted hended, ?_⟩
  exact (hspaced.due_eq (count + 1) start hnext).trans (dueAfter_take_succ hended)

/-- Where the time until a run starts has gone. -/
theorem Spaced.now_eq (hspaced : Spaced first period starts ends)
    (hstart : starts[count]? = some start) :
    start.now.nanos = first.nanos + count * period.nanos + elapsed starts ends count +
      lateness starts (count + 1) := by
  have hlate : start.due.nanos ≤ start.now.nanos := hspaced.due_le count start hstart
  induction count generalizing start with
  | zero =>
      have hdue : start.due.nanos = first.nanos := hspaced.due_eq 0 start hstart
      rw [lateness_succ hstart]
      simp only [elapsed, lateness, List.take_zero, List.map_nil, List.sum_nil]
      omega
  | succ count ih =>
      -- From the start of the run before to its end, then a period, and then late by so much.
      obtain ⟨earlier, ended, hearlier, hended, hle, hdue⟩ := hspaced.exists_end hstart
      have hbefore := ih hearlier (hspaced.due_le count earlier hearlier)
      have hspan : earlier.now.nanos ≤ ended.nanos := hle
      rw [lateness_succ hstart, elapsed_succ hearlier hended, Nat.succ_mul]
      omega

/-- The runs are not late all in all if and only if none of them is. -/
theorem Spaced.lateness_eq_zero_iff (hspaced : Spaced first period starts ends) :
    lateness starts count = 0 ↔
      ∀ index < count, ∀ start, starts[index]? = some start → start.now = start.due := by
  rw [lateness, List.sum_eq_zero_iff_forall_eq_nat]
  simp only [List.mem_map, forall_exists_index, and_imp]
  constructor
  · intro hzero index hless start hstart
    have htaken : (starts.take count)[index]? = some start := by
      rw [List.getElem?_take_of_lt hless, hstart]
    have hnone := hzero _ start (List.mem_of_getElem? htaken) rfl
    have hle : start.due.nanos ≤ start.now.nanos := hspaced.due_le index start hstart
    exact congrArg Moment.mk (Nat.le_antisymm (Nat.sub_eq_zero_iff_le.mp hnone) hle)
  · rintro hpunctual _ start hmem rfl
    obtain ⟨index, hindex⟩ := List.mem_iff_getElem?.mp hmem
    obtain ⟨hless, -⟩ := List.getElem?_eq_some_iff.mp hindex
    rw [List.length_take] at hless
    rw [List.getElem?_take_of_lt (by omega)] at hindex
    rw [hpunctual index (by omega) start hindex, Nat.sub_self]

/-- All runs start as early as can be if and only if none of them is late. -/
theorem Spaced.earliest_iff (hspaced : Spaced first period starts ends) (last : Nat) :
    (∀ count ≤ last, ∀ start, starts[count]? = some start →
        start.now.nanos = first.nanos + count * period.nanos + elapsed starts ends count) ↔
      ∀ count ≤ last, ∀ start, starts[count]? = some start → start.now = start.due := by
  constructor
  · intro hearliest count hle start hstart
    have hnow := hspaced.now_eq hstart
    rw [hearliest count hle start hstart] at hnow
    have hzero : lateness starts (count + 1) = 0 := by omega
    exact hspaced.lateness_eq_zero_iff.mp hzero count (Nat.lt_succ_self count) start hstart
  · intro hpunctual count hle start hstart
    have hzero : lateness starts (count + 1) = 0 :=
      hspaced.lateness_eq_zero_iff.mpr fun index hless =>
        hpunctual index (Nat.le_trans (Nat.le_of_lt_succ hless) hle)
    rw [hspaced.now_eq hstart, hzero, Nat.add_zero]

/-! ### One start or one end more -/

theorem Spaced.nil (first : Moment) (period : Span) : Spaced first period [] [] :=
  ⟨by simp, by simp, by simp, Nat.zero_le _⟩

/-- The next run starts, and not before it is due. -/
theorem Spaced.started (hspaced : Spaced first period starts ends)
    (hlength : starts.length = ends.length) (hdue : start.due.nanos = dueAfter first period ends)
    (hle : start.due ≤ start.now) : Spaced first period (starts ++ [start]) ends where
  due_eq := by
    intro index found hfound
    rcases getElem?_concat hfound with hold | ⟨rfl, rfl⟩
    · exact hspaced.due_eq index found hold
    · rw [hlength, List.take_length]
      exact hdue
  due_le := by
    intro index found hfound
    rcases getElem?_concat hfound with hold | ⟨rfl, rfl⟩
    · exact hspaced.due_le index found hold
    · exact hle
  now_le := by
    intro index found ended hfound hended
    rcases getElem?_concat hfound with hold | ⟨rfl, rfl⟩
    · exact hspaced.now_le index found ended hold hended
    · obtain ⟨hless, -⟩ := List.getElem?_eq_some_iff.mp hended
      omega
  length_le := Nat.le_of_eq (by rw [List.length_append, List.length_singleton, hlength])

/-- The run that has started last ends. -/
theorem Spaced.finished (hspaced : Spaced first period starts ends)
    (hlength : starts.length = ends.length + 1) (hle : ∀ start ∈ starts, start.now ≤ ended) :
    Spaced first period starts (ends ++ [ended]) where
  due_eq := by
    intro index start hstart
    obtain ⟨hless, -⟩ := List.getElem?_eq_some_iff.mp hstart
    rw [List.take_append_of_le_length (by omega)]
    exact hspaced.due_eq index start hstart
  due_le := hspaced.due_le
  now_le := by
    intro index start found hstart hfound
    rcases getElem?_concat hfound with hold | ⟨rfl, rfl⟩
    · exact hspaced.now_le index start found hstart hold
    · exact hle start (List.mem_of_getElem? hstart)
  length_le := by
    rw [List.length_append, List.length_singleton]
    omega

end Spaced

/-! ## Starts in the history -/

theorem Agenda.length_starts {α : Type} (agenda : Agenda α) (task : TaskId) :
    (agenda.starts task).length = agenda.entries task := by
  rw [starts, List.length_reverse, List.length_filterMap_eq_countP, entries_eq_countP_bodies]
  refine List.countP_congr fun event _ => ?_
  cases event <;> simp [Event.start?]

/-- A body that is entered is the last to have started. -/
theorem Agenda.starts_of_entered {α : Type} {agenda after : Agenda α} {moved : TaskId} {run : Nat}
    {now due : Moment} {worker : Nat}
    (hbodies : after.bodies = .entered moved run now due worker :: agenda.bodies)
    (task : TaskId) :
    after.starts task = agenda.starts task ++ if moved = task then [⟨due, now⟩] else [] := by
  rw [starts, hbodies, List.filterMap_cons]
  by_cases htask : moved = task
  · simp only [Event.start?, if_pos htask, List.reverse_cons, starts]
  · simp only [Event.start?, if_neg htask, List.append_nil, starts]

namespace Scheduler

variable {α : Type} {before after scheduler : Scheduler α} {action : Action α}
variable {past later : List (Scheduler α × Action α)}
variable {config : Config} {cores : Nat} {task : TaskId} {first : Moment} {period : Span}
variable {submission : Submission α} {patient : Bool}

/-! ## The invariant -/

/-- When the runs of a task have been completed, the oldest first. -/
def completions (past : List (Scheduler α × Action α)) (task : TaskId) : List Moment :=
  (past.filterMap fun step =>
    if step.1.completes? step.2 = some task then some step.1.agenda.reading else none).reverse

theorem completions_of_completes (hcompletes : before.completes? action = some task) :
    completions ((before, action) :: past) task =
      completions past task ++ [before.agenda.reading] := by
  simp only [completions, List.filterMap_cons, if_pos hcompletes, List.reverse_cons]

theorem completions_of_not (hnot : before.completes? action ≠ some task) :
    completions ((before, action) :: past) task = completions past task := by
  simp only [completions, List.filterMap_cons, if_neg hnot]

/-- The task is over, because its next run could not be represented as a moment. -/
def RunsOutAt (due : Nat) (task : TaskId) (scheduler : Scheduler α) (record : Record α) : Prop :=
  IsOver task scheduler record ∧ Moment.horizon ≤ due

/-- Where a task with a fixed delay stands that was due at `first` for the first time. -/
structure Gap (first : Moment) (period : Span) (task : TaskId)
    (past : List (Scheduler α × Action α)) (scheduler : Scheduler α) (record : Record α) :
    Prop where
  schedule_eq : record.schedule = .fixedDelay period
  spaced : Spaced first period (scheduler.agenda.starts task) (completions past task)
  balance : (scheduler.agenda.starts task).length =
    (completions past task).length + scheduler.inProgress task
  now_le : ∀ start ∈ scheduler.agenda.starts task, start.now ≤ scheduler.agenda.reading
  due : record.nextRunAt.nanos = dueAfter first period (completions past task) ∨
    RunsOutAt (dueAfter first period (completions past task)) task scheduler record
  failed : record.state = .failed →
    RunsOutAt (dueAfter first period (completions past task)) task scheduler record

/-- A task that is over stays so. -/
theorem IsOver.of_step {record later : Record α} (hover : IsOver task before record)
    (hsound : before.Sound) (hstep : before.step action = some after)
    (hrecord : before.record? task = some record) (hlater : after.record? task = some later) :
    IsOver task after later := by
  have hafter : after.Has task (IsOver task after) := by
    refine Scheduler.of_step (p := fun state => state.Has task (IsOver task state)) hsound hstep
      ⟨record, hrecord, hover⟩ ?_
    rintro current next hcurrent ⟨found, hfound, hover⟩ hmove
    obtain ⟨moved, hmoved, hevolves⟩ := hmove.recordsEvolve hcurrent.custody task found hfound
    exact ⟨moved, hmoved, hover.of_move hmove hcurrent hfound hevolves⟩
  exact hafter.holds hlater

/-- A run ends, and the next one is due a period after it. -/
theorem Gap.of_completes {record : Record α} (hreachable : Reachable config cores before)
    (hpolicy : config.policy = .keepGoing) (hstep : before.step action = some after)
    (hrecord : before.record? task = some record)
    (hgap : Gap first period task past before record)
    (hcompletes : before.completes? action = some task) :
    after.Has task (Gap first period task ((before, action) :: past) after) := by
  have hsound := hreachable.sound
  obtain ⟨hsettling, hmove⟩ := hsound.settling_of_completes hstep hcompletes
  obtain ⟨hbusy, -, error?, hlater⟩ := hsettling.judged hsound hreachable.punctual hrecord
  obtain ⟨found, hfound, hevolves⟩ := hsound.recordsEvolve_of_step hstep task record hrecord
  have hover : found.isDone = true → IsOver task after found :=
    hsettling.isOver hmove hsound ⟨record, hrecord, hbusy⟩
  have hafter : record.schedule.nextRun record.nextRunAt before.agenda.reading =
      Schedule.after before.agenda.reading period := by
    rw [hgap.schedule_eq]
    rfl
  rw [hreachable.policy_eq.trans hpolicy] at hlater
  -- A period after the clock as it is now, or there is no such moment.
  have hcases := hbusy.judged_of_after hafter (Option.some.inj (hlater.symm.trans hfound))
  have hstarts : after.agenda.starts task = before.agenda.starts task := by
    rcases hreachable.enters_of_step hstep with hsame | ⟨_, _, _, _, henters, -⟩
    · rw [Agenda.starts, hsame, Agenda.starts]
    · obtain ⟨position, rfl⟩ := henters.cause
      simp [completes?] at hcompletes
  obtain ⟨-, -, -, -, -, hone, hzero⟩ := hsettling
  have hbalance := hgap.balance
  rw [hone] at hbalance
  have hends : completions ((before, action) :: past) task =
      completions past task ++ [before.agenda.reading] := completions_of_completes hcompletes
  refine ⟨found, hfound, hevolves.schedule_eq.trans hgap.schedule_eq, ?_, ?_, ?_, ?_, ?_⟩
  · rw [hstarts, hends]
    exact hgap.spaced.finished hbalance hgap.now_le
  · rw [hstarts, hends, hbalance, hzero, List.length_append, List.length_singleton]
  · rw [hstarts]
    exact fun start hstart => Nat.le_trans (hgap.now_le start hstart) hmove.reading_le
  · rw [hends, dueAfter_concat]
    exact hcases.imp And.left fun hout => ⟨hover hout.2.1, hout.1⟩
  · intro hfailed
    rw [hends, dueAfter_concat]
    rcases hcases with ⟨-, hlive⟩ | ⟨hhorizon, hdone, -⟩
    · exact absurd hfailed hlive
    · exact ⟨hover hdone, hhorizon⟩

/-- A run starts when it is due or later, and until it ends nothing else is due. -/
theorem Gap.starts_of_step {record : Record α} (hreachable : Reachable config cores before)
    (hstep : before.step action = some after) (hrecord : before.record? task = some record)
    (hgap : Gap first period task past before record) :
    Spaced first period (after.agenda.starts task) (completions past task) ∧
      ∀ start ∈ after.agenda.starts task, start.now ≤ after.agenda.reading := by
  have hnow := reading_le_of_step hreachable.sound hstep
  have hearlier := fun start hstart => Nat.le_trans (hgap.now_le start hstart) hnow
  rcases hreachable.enters_of_step hstep with hsame | ⟨moved, entered, run, worker, henters, hle⟩
  · have hstarts : after.agenda.starts task = before.agenda.starts task := by
      rw [Agenda.starts, hsame, Agenda.starts]
    rw [hstarts]
    exact ⟨hgap.spaced, hearlier⟩
  · rw [Agenda.starts_of_entered henters.bodies_eq task]
    split
    · rename_i htask
      subst htask
      obtain rfl := Option.some.inj (hrecord.symm.trans henters.record_eq)
      have hbacklog : moved ∈ before.tasksAt .backlog := henters.mem
      have hlength := hgap.balance
      rw [hreachable.sound.custody.inProgress_eq_zero hbacklog (by decide) (by decide)]
        at hlength
      have hdue := hgap.due.resolve_right fun hout => hout.1.not_mem henters.mem
      refine ⟨hgap.spaced.started hlength hdue hle, fun start hmem => ?_⟩
      rcases List.mem_append.mp hmem with hold | hnew
      · exact hearlier start hold
      · obtain rfl := List.mem_singleton.mp hnew
        exact hnow
    · rw [List.append_nil]
      exact ⟨hgap.spaced, hearlier⟩

/-- No run ends, and the due time stays. -/
theorem Gap.of_rests {record : Record α} (hreachable : Reachable config cores before)
    (hstep : before.step action = some after) (hrecord : before.record? task = some record)
    (hgap : Gap first period task past before record)
    (hnot : before.completes? action ≠ some task) :
    after.Has task (Gap first period task ((before, action) :: past) after) := by
  have hsound := hreachable.sound
  have hrests := hsound.rests_of_step hstep hnot
  obtain ⟨later, hlater, hsame⟩ := hrests.record record hrecord
  obtain ⟨found, hfound, hevolves⟩ := hsound.recordsEvolve_of_step hstep task record hrecord
  obtain rfl := Option.some.inj (hfound.symm.trans hlater)
  have hover := fun (hover : IsOver task before record) =>
    hover.of_step hsound hstep hrecord hfound
  obtain ⟨hspaced, hnow⟩ := hgap.starts_of_step hreachable hstep hrecord
  have hends : completions ((before, action) :: past) task = completions past task :=
    completions_of_not hnot
  refine ⟨found, hfound, hevolves.schedule_eq.trans hgap.schedule_eq, ?_, ?_, hnow, ?_, ?_⟩
  · rwa [hends]
  · rw [hends]
    have hbefore := hgap.balance
    have hentries := hrests.balance
    rw [Agenda.length_starts] at hbefore ⊢
    omega
  · rw [hends, hsame.due_eq]
    exact hgap.due.imp_right fun hout => ⟨hover hout.1, hout.2⟩
  · intro hfailed
    rw [hends]
    obtain rfl := hsame.finished (Or.inr hfailed)
    obtain ⟨hdone, hhorizon⟩ := hgap.failed hfailed
    exact ⟨hover hdone, hhorizon⟩

/-! ## From the submission on -/

/-- A task that has no record has not been running. -/
theorem Run.completions_eq_nil (hrun : Run config cores past scheduler)
    (hnone : scheduler.record? task = none) : completions past task = [] := by
  induction hrun with
  | start => rfl
  | @step past before after hrun action hstep ih =>
      have hsound := hrun.reachable.sound
      -- No record ever vanishes, so there was none before.
      have hbefore : before.record? task = none := by
        cases hrecord : before.record? task with
        | none => rfl
        | some record =>
            obtain ⟨later, hlater, -⟩ :=
              hsound.recordsEvolve_of_step hstep task record hrecord
            exact absurd (hnone.symm.trans hlater) (by simp)
      rw [completions_of_not, ih hbefore]
      intro hcompletes
      obtain ⟨worker, job, error?, -, hfind, -, -, rfl⟩ := exists_job_of_completes hcompletes
      have hjob := List.mem_of_find?_eq_some hfind
      obtain ⟨record, hrecord⟩ :=
        (hsound.custody.fitsAt_of_mem (mem_tasksAt_place hjob)).exists_record
      exact absurd (hbefore.symm.trans hrecord) (by simp)

/-- A task that has just been submitted has all its runs before it. -/
theorem Run.gap_of_request (hrun : Run config cores past before)
    (hschedule : submission.schedule = .fixedDelay period)
    (hdue : before.firstDue submission = .ok (.ok first))
    (hstep : before.step (.request (.schedule submission patient)) = some after) :
    after.Has before.agenda.records.size (Gap first period before.agenda.records.size
      ((before, .request (.schedule submission patient)) :: past) after) := by
  have hafter : Reachable config cores after := .step hrun.reachable _ hstep
  have hrecord := record?_of_asked hdue hstep
  have hentries : after.agenda.entries before.agenda.records.size = 0 := by
    rw [hafter.tallied, hrecord]
    rfl
  have hzero : after.inProgress before.agenda.records.size = 0 :=
    Nat.le_zero.mp (hentries ▸ hafter.inProgress_le before.agenda.records.size)
  have hnone : before.record? before.agenda.records.size = none := before.record?_size
  have hends : completions ((before, .request (.schedule submission patient)) :: past)
      before.agenda.records.size = [] := by
    rw [completions_of_not (by simp [completes?]), hrun.completions_eq_nil hnone]
  have hstarts : after.agenda.starts before.agenda.records.size = [] :=
    List.length_eq_zero_iff.mp ((Agenda.length_starts ..).trans hentries)
  refine ⟨_, hrecord, hschedule, ?_, ?_, ?_, ?_, fun hfailed => ?_⟩
  · rw [hends, hstarts]
    exact .nil first period
  · rw [hends, hstarts, hzero]
    rfl
  · rw [hstarts]
    exact fun _ hmem => absurd hmem List.not_mem_nil
  · rw [hends]
    exact Or.inl rfl
  · exact absurd hfailed (by simp [Submission.record])

theorem Run.gap (hrun : Run config cores
      (later ++ (before, .request (.schedule submission patient)) :: past) scheduler)
    (hpolicy : config.policy = .keepGoing) (hschedule : submission.schedule = .fixedDelay period)
    (hdue : before.firstDue submission = .ok (.ok first)) :
    scheduler.Has before.agenda.records.size (Gap first period before.agenda.records.size
      (later ++ (before, .request (.schedule submission patient)) :: past) scheduler) := by
  obtain ⟨hbefore, -⟩ := hrun.at_step
  refine hrun.induction_from
    (p := fun past state => state.Has before.agenda.records.size
      (Gap first period before.agenda.records.size past state))
    (fun after hstep => hbefore.gap_of_request hschedule hdue hstep) ?_
  rintro past current action next hrun ⟨record, hrecord, hgap⟩ hstep
  -- The gap only widens when a run is completed.
  by_cases hcompletes : current.completes? action = some before.agenda.records.size
  · exact hgap.of_completes hrun.reachable hpolicy hstep hrecord hcompletes
  · exact hgap.of_rests hrun.reachable hstep hrecord hcompletes

/-- A task with a fixed delay is due a period after its last run has been completed, as long as
it is not settled.  So each run starts a period after the end of the one before, or later; it
starts no earlier than a period for each earlier run, and all the time that these have taken,
after the first due time; and the runs up to some run all start as early as that if and only if
each of them starts when it is due.  A failure settles the task only when the next due time
cannot be represented. -/
theorem Run.fixed_delay_gap (hrun : Run config cores
      (later ++ (before, .request (.schedule submission patient)) :: past) scheduler)
    (hpolicy : config.policy = .keepGoing) (hschedule : submission.schedule = .fixedDelay period)
    (hdue : before.firstDue submission = .ok (.ok first))
    (htask : task = before.agenda.records.size)
    {starts : List Start} {ends : List Moment} (hstarts : scheduler.agenda.starts task = starts)
    (hends : completions (later ++ (before, .request (.schedule submission patient)) :: past)
      task = ends) :
    ∃ record, scheduler.record? task = some record ∧ starts.length = record.runs ∧
      ends.length = scheduler.settledRuns task ∧
      (record.isDone = false → record.nextRunAt.nanos = dueAfter first period ends) ∧
      (record.state = .failed → Moment.horizon ≤ dueAfter first period ends) ∧
      (∀ (count : Nat) (start : Start), starts[count]? = some start →
        start.due.nanos = dueAfter first period (ends.take count) ∧ start.due ≤ start.now ∧
          first.nanos + count * period.nanos + elapsed starts ends count ≤ start.now.nanos) ∧
      (∀ (count : Nat) (next : Start), starts[count + 1]? = some next →
        ∃ start ended, starts[count]? = some start ∧ ends[count]? = some ended ∧
          start.now ≤ ended ∧ ended.nanos + period.nanos ≤ next.now.nanos) ∧
      ∀ last : Nat,
        (∀ count ≤ last, ∀ start, starts[count]? = some start →
          start.now.nanos = first.nanos + count * period.nanos + elapsed starts ends count) ↔
        ∀ count ≤ last, ∀ start, starts[count]? = some start → start.now = start.due := by
  subst htask hstarts hends
  obtain ⟨record, hrecord, hgap⟩ := hrun.gap hpolicy hschedule hdue
  -- All that is said about starts and ends is said of the list of starts that `Gap` keeps.
  have hspaced := hgap.spaced
  have hruns : scheduler.agenda.entries before.agenda.records.size = record.runs := by
    rw [hrun.reachable.tallied, hrecord]
    rfl
  refine ⟨record, hrecord, (Agenda.length_starts ..).trans hruns, ?_, fun hlive => ?_,
    fun hfailed => (hgap.failed hfailed).2, fun count start hstart => ?_,
    fun count next hnext => ?_, hspaced.earliest_iff⟩
  · have hbalance := hgap.balance
    rw [Agenda.length_starts] at hbalance
    rw [settledRuns, hbalance, Nat.add_sub_cancel]
  · exact hgap.due.resolve_right fun hout =>
      absurd (hlive.symm.trans hout.1.isDone) Bool.false_ne_true
  · refine ⟨hspaced.due_eq count start hstart, hspaced.due_le count start hstart, ?_⟩
    rw [hspaced.now_eq hstart]
    exact Nat.le_add_right ..
  · obtain ⟨start, ended, hstart, hended, hle, hdue⟩ := hspaced.exists_end hnext
    refine ⟨start, ended, hstart, hended, hle, ?_⟩
    rw [← hdue]
    exact hspaced.due_le (count + 1) next hnext

/-- The first run starts a second late and takes half a second, and the second one starts a second
after its end. -/
theorem fixed_delay_gap_after_late_run :
    ∃ (past : List (Scheduler Unit × Action Unit)) (scheduler : Scheduler Unit)
      (record : Record Unit), Run {} 1 past scheduler ∧ scheduler.record? 0 = some record ∧
      scheduler.agenda.starts 0 = [⟨⟨1000000000⟩, ⟨2000000000⟩⟩, ⟨⟨3500000000⟩, ⟨3500000000⟩⟩] ∧
      completions past 0 = [⟨2500000000⟩] ∧ record.runs = 2 ∧
      record.nextRunAt.nanos = 2500000000 + 1000000000 ∧
      1000000000 + 1 * 1000000000 + 500000000 ≤ 3500000000 := by
  have hview : (played {} 1 []).bind (fun result =>
      (replay result.1 result.2
        (.request (.schedule (plainTask (.fixedDelay (.ofSeconds 1)) (.ofSeconds 1)) true) ::
          [.proceed 0, .advance (.ofSeconds 2), .announce, .dispatch, .dispatch, .takeUp 0,
            .work 0, .advance ⟨500000000⟩, .work 0, .work 0, .dispatch, .advance (.ofSeconds 1),
            .announce, .dispatch, .dispatch, .takeUp 0])).map fun final =>
          (((result.2.firstDue (plainTask (.fixedDelay (.ofSeconds 1)) (.ofSeconds 1))).toOption,
              result.2.agenda.records.size),
            final.2.agenda.starts 0, completions final.1 0,
            (final.2.record? 0).map Record.isDone)) =
      some ((some (.ok ⟨1000000000⟩), 0),
        [⟨⟨1000000000⟩, ⟨2000000000⟩⟩, ⟨⟨3500000000⟩, ⟨3500000000⟩⟩],
        [⟨2500000000⟩], some false) := by
    decide +kernel
  obtain ⟨⟨past, before⟩, hplayed, hreplayed⟩ := Option.bind_eq_some_iff.mp hview
  obtain ⟨⟨whole, after⟩, hreplay, hparts⟩ := Option.map_eq_some_iff.mp hreplayed
  simp only [Prod.mk.injEq] at hparts
  obtain ⟨⟨hdue, hsize⟩, hstarts, hends, hdone⟩ := hparts
  have hrun := Run.of_replay (Run.of_played hplayed) hreplay
  obtain ⟨later, rfl⟩ := exists_append_of_replay_cons hreplay
  obtain ⟨record, hrecord, hruns, -, hnext, -, hbound, -⟩ :=
    hrun.fixed_delay_gap rfl rfl (eq_ok_of_toOption hdue) hsize.symm hstarts hends
  rw [hrecord] at hdone
  obtain ⟨-, -, hle⟩ := hbound 1 _ rfl
  exact ⟨_, after, record, hrun, hrecord, hstarts, hends, hruns.symm,
    hnext (Option.some.inj hdone), hle⟩

end Scheduler

end TimedTasks
