import TimedTasks.Proofs.Demo.Course
import TimedTasks.Proofs.Demo.Forecast
import TimedTasks.Proofs.Scheduler.Effort
import TimedTasks.Proofs.Scheduler.Retirement

/-!
# Stages of the demonstration

At any time the tasks are the first ones of the plan, in order (`Cast`).  Between two moves of the
clock they are on their way to where the plan has them (`Underway`), and once they are there, until
the clock is moved again, all that changes is that some of them are cancelled (`Evening`).  Both
last until the caller takes a turn, for as many steps as the plan allows for: no task but the
heartbeat ever has more than one run ahead of it (`Cast.rank_lt`).
-/

namespace TimedTasks

/-- A record belongs to a task that its caller has described so. -/
structure Submission.Describes {α : Type} (submission : Submission α) (record : Record α) :
    Prop where
  name_eq : record.name = submission.name
  schedule_eq : record.schedule = submission.schedule
  script_eq : record.script = submission.script

theorem Submission.Describes.of_evolves {α : Type} {submission : Submission α}
    {before after : Record α} (hdescribes : submission.Describes before)
    (hevolves : before.Evolves after) : submission.Describes after :=
  ⟨hevolves.name_eq.trans hdescribes.name_eq, hevolves.schedule_eq.trans hdescribes.schedule_eq,
    hevolves.script_eq.trans hdescribes.script_eq⟩

namespace Demo

open Scheduler (Reachable Interlude Dormant Leaves Same)
open Day (Lasts)

variable {plan : Plan} {count : Nat} {now : Moment} {stands : TaskId → Stand}
variable {before after scheduler : Scheduler Unit} {action : Action Unit} {task : TaskId}
variable {config : Config} {cores : Nat} {record : Record Unit} {starts : Array (Record Unit)}
variable {base : TaskId → Option (Record Unit)}

/-- The moment at which the heartbeat, the poller and the burst are submitted. -/
def dawn : Moment := ⟨answerDelay.nanos⟩

/-! ## The tasks -/

/-- The first `count` tasks of a plan have been submitted. -/
structure Cast (plan : Plan) (count : Nat) (record? : TaskId → Option (Record Unit)) : Prop where
  isSome_iff : ∀ task, (record? task).isSome = true ↔ task < count
  describes : ∀ task record, record? task = some record →
    (plan.submission task).Describes record
  /-- The heartbeat begins at dawn. -/
  dawn_le : ∀ record, record? 1 = some record → dawn ≤ record.nextRunAt

/-- What each task has come to. -/
def Stands (stands : TaskId → Stand) (record? : TaskId → Option (Record Unit)) : Prop :=
  ∀ task record, record? task = some record → record.stand = stands task

namespace Cast

theorem lt_count (hcast : Cast plan count base) (hrecord : base task = some record) :
    task < count :=
  (hcast.isSome_iff task).mp (by rw [hrecord]; rfl)

theorem exists_record (hcast : Cast plan count base) (htask : task < count) :
    ∃ record, base task = some record :=
  Option.isSome_iff_exists.mp ((hcast.isSome_iff task).mpr htask)

theorem size_eq (hcast : Cast plan count scheduler.record?) :
    scheduler.agenda.records.size = count := by
  have hsize : ∀ task, task < scheduler.agenda.records.size ↔ task < count := by
    intro task
    rw [← hcast.isSome_iff, Scheduler.record?, isSome_getElem?]
  exact Nat.le_antisymm (Nat.le_of_not_lt fun hless => Nat.lt_irrefl _ ((hsize _).mp hless))
    (Nat.le_of_not_lt fun hless => Nat.lt_irrefl _ ((hsize _).mpr hless))

theorem named?_eq (hcast : Cast plan count scheduler.record?)
    (haccepted : ∀ other, other ∈ scheduler.accepted ↔ other < count) (htask : task < count)
    (hthree : task < 3) : scheduler.named? (plan.submission task).name = some task := by
  have hname : ∀ other < count,
      scheduler.agenda.nameOf other = (plan.submission other).name := by
    intro other hother
    obtain ⟨record, hrecord⟩ := hcast.exists_record hother
    rw [Agenda.nameOf, (show scheduler.agenda.records[other]? = some record from hrecord)]
    exact (hcast.describes other record hrecord).name_eq
  unfold Scheduler.named?
  cases hfind : scheduler.accepted.find? _ with
  | none =>
      have hnone := List.find?_eq_none.mp hfind task ((haccepted task).mpr htask)
      simp [hname task htask] at hnone
  | some other =>
      have hother := (haccepted other).mp (List.mem_of_find?_eq_some hfind)
      have hsame := List.find?_some hfind
      rw [hname other hother, beq_iff_eq] at hsame
      have hletters := congrArg (fun name => name.toList.head?) hsame
      rw [plan.head?_name, plan.head?_name] at hletters
      rw [initial_inj hthree (Option.some.inj hletters)]

/-- Tasks that are cancelled are still those of the plan. -/
theorem of_leaves (hcast : Cast plan count base) {gone : List TaskId}
    (hleaves : Leaves base gone scheduler) : Cast plan count scheduler.record? := by
  have hrecord : ∀ task record, scheduler.record? task = some record →
      ∃ earlier state, base task = some earlier ∧ record = { earlier with state } := by
    intro task record hrecord
    rw [hleaves task] at hrecord
    split at hrecord
    · obtain ⟨earlier, hearlier, rfl⟩ := Option.map_eq_some_iff.mp hrecord
      obtain ⟨state, hstate⟩ := earlier.withdrawn_eq
      exact ⟨earlier, state, hearlier, hstate⟩
    · exact ⟨record, record.state, hrecord, rfl⟩
  refine ⟨fun task => ?_, fun task record hlater => ?_, fun record hlater => ?_⟩
  · rw [← hcast.isSome_iff, hleaves task]
    split <;> simp
  · obtain ⟨earlier, state, hearlier, rfl⟩ := hrecord task record hlater
    obtain ⟨hname, hschedule, hscript⟩ := hcast.describes task earlier hearlier
    exact ⟨hname, hschedule, hscript⟩
  · obtain ⟨earlier, state, hearlier, rfl⟩ := hrecord 1 record hlater
    exact hcast.dawn_le earlier hearlier

/-- No task but the heartbeat has more than one run ahead of it. -/
theorem allowance_le (hcast : Cast plan count scheduler.record?)
    (hnow : scheduler.agenda.reading.nanos ≤ dawn.nanos + (plan.total + lastAdvance.nanos))
    (task : TaskId) :
    scheduler.allowance task ≤ 1 + if task = 1 then plan.extra else 0 := by
  cases hrecord : scheduler.record? task with
  | none =>
      rw [Scheduler.allowance, hrecord]
      exact Nat.zero_le _
  | some record =>
      rw [Scheduler.allowance_eq hrecord, (hcast.describes task record hrecord).schedule_eq]
      cases task using task_cases with
      | answer | burst index =>
          exact Nat.le_trans (Schedule.runsBy_le_one rfl) (Nat.le_add_right _ _)
      | heartbeat =>
          have hdawn : dawn.nanos ≤ record.nextRunAt.nanos := hcast.dawn_le record hrecord
          have hlate : scheduler.agenda.reading.nanos ≤
              record.nextRunAt.nanos + (plan.total + lastAdvance.nanos) :=
            Nat.le_trans hnow (Nat.add_le_add_right hdawn _)
          rw [if_pos rfl]
          show runsDue record.nextRunAt plan.period _ ≤ _
          rw [runsDue]
          split
          · exact Nat.zero_le _
          · exact Nat.add_le_add_left
              (Nat.div_le_div_right (Nat.sub_le_iff_le_add'.mpr hlate)) 1
      | poller =>
          show (if record.nextRunAt ≤ _ then 1 else 0) ≤ _
          split <;> omega

/-- So there is never more to do than the plan allows for. -/
theorem rank_lt (hcast : Cast plan count scheduler.record?)
    (hreachable : Reachable config cores scheduler) (hcount : count ≤ plan.burst + 3)
    (hnow : scheduler.agenda.reading.nanos ≤ dawn.nanos + (plan.total + lastAdvance.nanos))
    (hcalls : scheduler.calls.length ≤ 1) (hannounced : scheduler.unannounced ≤ 1) :
    scheduler.rank < plan.pace := by
  have hburden := hreachable.sound.custody.burden_le
  have hprices := Scheduler.sum_price_le (hcast.allowance_le hnow) count
  rw [hcast.size_eq] at hburden
  rw [plan.pace_eq]
  refine hreachable.sound.rank_lt_square ?_
  split at hprices <;> omega

end Cast

/-! ## Between two moves of the clock -/

/-- The clock shows `now`, and the first `count` tasks of a plan, which started from `starts`, are
on their way to where `stands` has them. -/
structure Underway (config : Config) (cores : Nat) (plan : Plan) (count : Nat) (now : Moment)
    (stands : TaskId → Stand) (starts : Array (Record Unit)) (scheduler : Scheduler Unit) :
    Prop where
  interlude : Interlude config cores pollerId starts scheduler
  cast : Cast plan count fun task => starts[task]?
  lapse_eq : ∀ (task : TaskId) (start : Record Unit), starts[task]? = some start →
    start.stand.lapse (plan.submission task).schedule now = stands task
  reading_eq : scheduler.agenda.reading = now
  unannounced_le : scheduler.unannounced ≤ 1

namespace Underway

section

variable (hunderway : Underway config cores plan count now stands starts scheduler)

include hunderway

theorem cast_now : Cast plan count scheduler.record? := by
  have hinterlude := hunderway.interlude
  refine ⟨fun task => ?_, fun task record hrecord => ?_, fun record hrecord => ?_⟩
  · have hsize := hinterlude.size_eq
    rw [← hunderway.cast.isSome_iff]
    simp [Scheduler.record?, hsize]
  · obtain ⟨start, hstart, hlapses⟩ := hinterlude.exists_start hrecord
    exact (hunderway.cast.describes task start hstart).of_evolves hlapses.evolves
  · obtain ⟨start, hstart, hlapses⟩ := hinterlude.exists_start hrecord
    obtain ⟨ran, -, -, hdue, -⟩ := hlapses.course
    have hschedule : start.schedule = .fixedRate plan.period :=
      (hunderway.cast.describes 1 start hstart).schedule_eq
    rw [hschedule] at hdue
    have hdawn : dawn.nanos ≤ start.nextRunAt.nanos := hunderway.cast.dawn_le start hstart
    show dawn.nanos ≤ record.nextRunAt.nanos
    rw [hdue]
    exact Nat.le_trans hdawn (Nat.le_add_right _ _)

/-- When nobody calls, all tasks have been accepted. -/
theorem mem_accepted_iff (hcalls : scheduler.calls = []) (task : TaskId) :
    task ∈ scheduler.accepted ↔ task < count := by
  have hinterlude := hunderway.interlude
  constructor
  · intro haccepted
    obtain ⟨record, hrecord⟩ :=
      hinterlude.reachable.sound.custody.exists_record_of_accepted haccepted
    exact hunderway.cast_now.lt_count hrecord
  · intro htask
    obtain ⟨record, hrecord⟩ := hunderway.cast_now.exists_record htask
    exact (hinterlude.complete task record hrecord).resolve_right
      (by simp [Scheduler.tasksAt, hcalls])

theorem stands_now (hdormant : Dormant config cores pollerId scheduler)
    (hcalls : scheduler.calls = []) : Stands stands scheduler.record? := by
  intro task record hrecord
  obtain ⟨start, hstart, -⟩ := hunderway.interlude.exists_start hrecord
  have hlapsed := hunderway.interlude.lapsed hdormant hcalls hstart hrecord
  rw [hlapsed.stand_eq, (hunderway.cast.describes task start hstart).schedule_eq,
    hunderway.reading_eq]
  exact hunderway.lapse_eq task start hstart

end

theorem of_step (hunderway : Underway config cores plan count now stands starts before)
    (hpolicy : config.policy = .keepGoing) (hspontaneous : action.IsSpontaneous)
    (hstep : before.step action = some after) :
    Underway config cores plan count now stands starts after := by
  have hinterlude := hunderway.interlude
  have hsame := hinterlude.unattended.same_of_step hinterlude.reachable hspontaneous hstep
  exact ⟨hinterlude.of_step hpolicy hspontaneous hstep, hunderway.cast, hunderway.lapse_eq,
    hsame.reading_eq.trans hunderway.reading_eq,
    Nat.le_trans hsame.unannounced_le hunderway.unannounced_le⟩

end Underway

/-- Tasks that are underway go on until the caller takes a turn. -/
theorem lasts_underway (hpolicy : config.policy = .keepGoing) (hcount : count ≤ plan.burst + 3)
    (hnow : now.nanos ≤ dawn.nanos + (plan.total + lastAdvance.nanos))
    {rest : Scheduler Unit → Prop}
    (hcalls : ∀ scheduler, rest scheduler → scheduler.calls.length ≤ 1)
    (hrest : ∀ {before after : Scheduler Unit} {action : Action Unit},
      Interlude config cores pollerId starts before → rest before → action.IsSpontaneous →
        before.step action = some after → rest after) :
    Lasts config cores plan.pace fun scheduler =>
      Underway config cores plan count now stands starts scheduler ∧ rest scheduler where
  of_step := by
    rintro before after action ⟨hunderway, hbefore⟩ hspontaneous hstep
    exact ⟨hunderway.of_step hpolicy hspontaneous hstep,
      hrest hunderway.interlude hbefore hspontaneous hstep⟩
  reachable := fun hstage => hstage.1.interlude.reachable
  plain := fun hstage => hstage.1.interlude.unattended.plain
  rank_lt := by
    rintro scheduler ⟨hunderway, hbefore⟩
    exact hunderway.cast_now.rank_lt hunderway.interlude.reachable hcount
      (hunderway.reading_eq ▸ hnow) (hcalls scheduler hbefore) hunderway.unannounced_le

/-! ## Until the clock is moved -/

/-- The clock shows `now`, and no run that has come due is left to be made. -/
structure Evening (config : Config) (cores : Nat) (now : Moment) (scheduler : Scheduler Unit) :
    Prop where
  dormant : Dormant config cores pollerId scheduler
  reading_eq : scheduler.agenda.reading = now
  unannounced_eq : scheduler.unannounced = 0

theorem Evening.of_step (hevening : Evening config cores now before) (hquiet : ¬ action.Disturbs)
    (hkept : before.lifecycle = .running ∨ ∀ call task, (call, .removing task) ∉ before.calls)
    (hstep : before.step action = some after) : Evening config cores now after := by
  have hdormant := hevening.dormant
  obtain ⟨hclock, -, -, -, hannounced, -⟩ := hdormant.dozes_of_step hquiet hstep
  have hnot := hkept.imp_right fun hnobody => hdormant.not_removes hnobody hstep
  exact ⟨hdormant.of_step hquiet hnot hstep,
    (congrArg ManualClock.reading hclock).trans hevening.reading_eq,
    Nat.le_zero.mp (hevening.unannounced_eq ▸ hannounced)⟩

/-- Whatever its callers are about, the scheduler goes on until the caller takes a turn. -/
theorem lasts_evening (hcast : Cast plan (plan.burst + 3) base)
    (hnow : now.nanos ≤ dawn.nanos + (plan.total + lastAdvance.nanos))
    {rest : Scheduler Unit → Prop}
    (hcalls : ∀ scheduler, rest scheduler → scheduler.calls.length ≤ 1)
    (hleaves : ∀ scheduler, rest scheduler → ∃ gone, Leaves base gone scheduler)
    (hkept : ∀ scheduler, rest scheduler → scheduler.lifecycle = .running ∨
      ∀ call task, (call, .removing task) ∉ scheduler.calls)
    (hrest : ∀ {before after : Scheduler Unit} {action : Action Unit},
      Dormant config cores pollerId before → rest before → action.IsSpontaneous →
        before.step action = some after → rest after) :
    Lasts config cores plan.pace fun scheduler =>
      Evening config cores now scheduler ∧ rest scheduler where
  of_step := by
    rintro before after action ⟨hevening, hbefore⟩ hspontaneous hstep
    exact ⟨hevening.of_step hspontaneous.not_disturbs (hkept before hbefore) hstep,
      hrest hevening.dormant hbefore hspontaneous hstep⟩
  reachable := fun hstage => hstage.1.dormant.reachable
  plain := fun hstage => hstage.1.dormant.plain
  rank_lt := by
    rintro scheduler ⟨hevening, hbefore⟩
    obtain ⟨gone, hgone⟩ := hleaves scheduler hbefore
    exact (hcast.of_leaves hgone).rank_lt hevening.dormant.reachable (Nat.le_refl _)
      (hevening.reading_eq ▸ hnow) (hcalls scheduler hbefore)
      (hevening.unannounced_eq ▸ Nat.zero_le 1)

end Demo

end TimedTasks
