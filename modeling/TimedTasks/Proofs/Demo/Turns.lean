import TimedTasks.Proofs.Demo.Stage

/-!
# The caller's turns

Each errand of the demonstration finds the scheduler in some stage and leaves it in another one.  A
theorem here says of one kind of errand that the day ends in time (`InTime`) if it does so from
wherever the errand leads; together they are followed from the last errand to the first.

Errands that wait for no quiet moment may come at any time in a stage.  The clock is moved, and the
heartbeat cancelled, only when everything has settled: then no run is left to be made
(`Underway.evening`).
-/

namespace TimedTasks.Demo

open Scheduler (Reachable Interlude Dormant Leaves Submitting Withdrawing Retiring Sweeps)
open Day (Lasts)
open Queue (SealedBut)

variable {plan : Plan} {count admitted abandoned : Nat} {now : Moment}
variable {stands others : TaskId → Stand} {errand : Errand} {rest : List Errand}
variable {scheduler after : Scheduler Unit} {starts : Array (Record Unit)} {task : TaskId}
variable {config : Config} {cores : Nat} {stage : Scheduler Unit → Prop}

/-! ## Ending in time -/

/-- How many steps some errands take at most. -/
def Plan.span (plan : Plan) (errands : List Errand) : Nat := 2 * errands.length * plan.pace

theorem Plan.span_cons (plan : Plan) (errand : Errand) (rest : List Errand) :
    plan.span (errand :: rest) = plan.span rest + plan.pace + plan.pace := by
  rw [span, span, List.length_cons, Nat.mul_succ, Nat.add_mul, Nat.two_mul plan.pace,
    Nat.add_assoc]

/-- The day ends with a report that tells what the plan amounts to, and its errands take no more
steps than they may. -/
def InTime (plan : Plan) (day : Day) : Prop := day.Ends plan.Tells (plan.span day.errands)

/-- An errand is begun as soon as it can be. -/
theorem inTime_of_begin (hlasts : Lasts config cores plan.pace stage)
    (hbegins : ∀ scheduler, stage scheduler → scheduler.isSettled = true →
      Day.begin { scheduler, errands := errand :: rest, admitted, abandoned } errand ≠ none)
    (hnext : ∀ scheduler next, stage scheduler →
      Day.begin { scheduler, errands := errand :: rest, admitted, abandoned } errand = some next →
        next.Ends plan.Tells (plan.span rest + plan.pace))
    (hstage : stage scheduler) :
    InTime plan { scheduler, errands := errand :: rest, admitted, abandoned } := by
  rw [InTime, plan.span_cons]
  exact Day.Ends.of_stage { scheduler, errands := errand :: rest, admitted, abandoned } hlasts
    hbegins hnext hstage

/-- The caller hears the answer to a call as soon as there is one. -/
theorem ends_of_call (hlasts : Lasts config cores plan.pace stage) {call : CallId}
    (hanswers : ∀ scheduler, stage scheduler → scheduler.isSettled = true →
      scheduler.answer? call ≠ none)
    (hnext : ∀ scheduler answer, stage scheduler → scheduler.answer? call = some answer →
      InTime plan (Day.hear
        { scheduler, errands := errand :: rest, call? := some call, admitted, abandoned }
        errand answer) ∧
      (Day.hear { scheduler, errands := errand :: rest, call? := some call, admitted, abandoned }
        errand answer).errands = rest)
    (hstage : stage scheduler) :
    Day.Ends plan.Tells (plan.span rest + plan.pace)
      { scheduler, errands := errand :: rest, call? := some call, admitted, abandoned } := by
  refine Day.Ends.of_stage
    { scheduler, errands := errand :: rest, call? := some call, admitted, abandoned } hlasts
    (fun state hstate hsettled => ?_) (fun state next hstate hturn => ?_) hstage
  · obtain ⟨answer, hanswer⟩ := Option.ne_none_iff_exists'.mp (hanswers state hstate hsettled)
    simp [Day.turn?, hanswer]
  · obtain ⟨answer, hanswer, rfl⟩ := Option.map_eq_some_iff.mp hturn
    obtain ⟨hends, herrands⟩ := hnext state answer hstate hanswer
    rwa [InTime, herrands] at hends

/-- The clock is moved once all is quiet. -/
theorem inTime_of_advance (hlasts : Lasts config cores plan.pace stage) {move : Span}
    (hmoves : ∀ scheduler, stage scheduler → scheduler.isSettled = true →
      ∃ after, scheduler.step (.advance move) = some after ∧
        InTime plan { scheduler := after, errands := rest, admitted, abandoned })
    (hstage : stage scheduler) :
    InTime plan { scheduler, errands := .advance move :: rest, admitted, abandoned } := by
  refine inTime_of_begin hlasts (fun state hstate hsettled => ?_)
    (fun state next hstate hnext => ?_) hstage
  · obtain ⟨after, hstep, -⟩ := hmoves state hstate hsettled
    simp [Day.begin, Day.act, hsettled, hstep]
  · have hsettled : state.isSettled = true := by
      by_contra hnot
      simp [Day.begin, hnot] at hnext
    obtain ⟨after, hstep, hends⟩ := hmoves state hstate hsettled
    simp only [Day.begin, Day.act, hsettled, hstep, if_true, Option.map_some] at hnext
    obtain rfl := Option.some.inj hnext
    exact hends.mono (Nat.le_add_right _ _)

/-! ## While tasks are submitted -/

/-- The scheduler runs, and its failures are watched. -/
def Watched (scheduler : Scheduler Unit) : Prop :=
  scheduler.lifecycle = .running ∧ scheduler.Observed

theorem Watched.of_step {before : Scheduler Unit} {action : Action Unit} (hwatched : Watched before)
    (hreachable : Reachable config cores before) (hspontaneous : action.IsSpontaneous)
    (hstep : before.step action = some after) : Watched after :=
  ⟨hreachable.running_of_step hspontaneous hstep hwatched.1,
    hwatched.2.of_step hreachable.sound hstep⟩

/-- The next task of a plan can be accepted, and comes to where `stands` has it. -/
structure Plan.Admits (plan : Plan) (count : Nat) (now : Moment) (stands : TaskId → Stand) :
    Prop where
  count_lt : count < plan.burst + 3
  first : now.nanos + (plan.submission count).delay.nanos < Moment.horizon
  second : ∀ period, (plan.submission count).schedule.period? = some period →
    now.nanos + (plan.submission count).delay.nanos + period.nanos < Moment.horizon
  lapse_eq : (plan.fresh now.nanos count).lapse (plan.submission count).schedule now = stands count
  due_lt : (plan.submission count).schedule.isPeriodic = true →
    (stands count).due < Moment.horizon
  dawn_le : count = 1 → dawn ≤ now

theorem Underway.schedule (hunderway : Underway config cores plan count now stands starts scheduler)
    (hpolicy : config.policy = .keepGoing) (hperiod : 0 < plan.period.nanos)
    (hadmits : plan.Admits count now stands) (hcalls : scheduler.calls = [])
    (hwatched : Watched scheduler) (patient : Bool) :
    ∃ due, Underway config cores plan (count + 1) now stands
        (starts.push ((plan.submission count).record due))
        (scheduler.request (.schedule (plan.submission count) patient)) ∧
      Submitting scheduler.nextCall count
        (scheduler.request (.schedule (plan.submission count) patient)) ∧
      Watched (scheduler.request (.schedule (plan.submission count) patient)) := by
  have hinterlude := hunderway.interlude
  have hnow := hunderway.reading_eq
  have hcount : starts.size = count := by
    rw [← hinterlude.size_eq, hunderway.cast_now.size_eq]
  have hdue := Scheduler.firstDue_of_representable hwatched.1 hinterlude.readable
    (Plan.valid hperiod count) (hnow ▸ hadmits.first) (hnow ▸ hadmits.second)
  rw [hnow] at hdue
  generalize hmoment : (⟨now.nanos + (plan.submission count).delay.nanos⟩ : Moment) = due at hdue
  have hstand : ((plan.submission count).record due).stand = plan.fresh now.nanos count := by
    rw [← hmoment]
    rfl
  have hlapse := hadmits.lapse_eq
  rw [← hstand] at hlapse
  have hafter := hinterlude.schedule hpolicy hdue hwatched.1 hwatched.2 (plan.plain count)
    (fun hother => plan.faultless (hcount ▸ hother))
    (Record.staysRepresentable_of_lapse fun hperiodic =>
      hnow ▸ hlapse ▸ hadmits.due_lt hperiodic) patient
  have hdrafts := Scheduler.drafts_request hdue patient
  -- The new task has the next number, so that it is told from the old ones by that.
  have hpush : ∀ {task : TaskId} {start : Record Unit},
      (starts.push ((plan.submission count).record due))[task]? = some start →
      task = count ∧ start = (plan.submission count).record due ∨ starts[task]? = some start := by
    intro task start hstart
    rw [Array.getElem?_push, hcount] at hstart
    split at hstart
    · rename_i htask
      exact Or.inl ⟨htask, (Option.some.inj hstart).symm⟩
    · exact Or.inr hstart
  refine ⟨due, ⟨hafter, ⟨fun task => ?_, fun task start hstart => ?_, fun start hstart => ?_⟩,
    fun task start hstart => ?_, hdrafts.reading_eq.trans hnow, ?_⟩, ?_, ?_, ?_⟩
  · simp [hcount]
  · rcases hpush hstart with ⟨rfl, rfl⟩ | hold
    · exact ⟨rfl, rfl, rfl⟩
    · exact hunderway.cast.describes task start hold
  · rcases hpush hstart with ⟨hone, rfl⟩ | hold
    · show dawn ≤ due
      rw [← hmoment]
      exact Nat.le_trans (hadmits.dawn_le hone.symm) (Nat.le_add_right _ _)
    · exact hunderway.cast.dawn_le start hold
  · rcases hpush hstart with ⟨rfl, rfl⟩ | hold
    · exact hlapse
    · exact hunderway.lapse_eq task start hold
  · rw [hdrafts.unannounced_eq]
    exact hunderway.unannounced_le
  · have hsize := hinterlude.size_eq.trans hcount
    refine Or.inl ⟨patient, ?_⟩
    rw [hdrafts.calls_eq, hcalls, hsize, List.nil_append]
  · exact hdrafts.lifecycle_eq.trans hwatched.1
  · exact hwatched.2.of_step hinterlude.reachable.sound
      (rfl : scheduler.step (.request (.schedule _ patient)) = some _)

section

variable (hpolicy : config.policy = .keepGoing)
variable (hnow : now.nanos ≤ dawn.nanos + (plan.total + lastAdvance.nanos))

include hpolicy hnow

/-- The scheduler may be about anything when nobody calls. -/
theorem lasts_watched (hcount : count ≤ plan.burst + 3) :
    Lasts config cores plan.pace fun scheduler =>
      Underway config cores plan count now stands starts scheduler ∧
        scheduler.calls = [] ∧ Watched scheduler := by
  refine lasts_underway hpolicy hcount hnow (fun scheduler hrest => ?_)
    fun {before after action} hinterlude hbefore hspontaneous hstep => ⟨?_, ?_⟩
  · rw [hrest.1]
    exact Nat.zero_le 1
  · exact hinterlude.unattended.calls_eq_nil_of_step hbefore.1 hspontaneous hstep
  · exact hbefore.2.of_step hinterlude.reachable hspontaneous hstep

theorem lasts_submitting (hcount : count < plan.burst + 3) (call : CallId) :
    Lasts config cores plan.pace fun scheduler =>
      Underway config cores plan (count + 1) now stands starts scheduler ∧
        Submitting call count scheduler ∧ Watched scheduler := by
  refine lasts_underway hpolicy hcount hnow (fun scheduler hrest => ?_)
    fun {before after action} hinterlude hbefore hspontaneous hstep => ⟨?_, ?_⟩
  · rcases hrest.1 with ⟨patient, hcalls⟩ | ⟨hcalls, -⟩ <;> simp [hcalls]
  · exact hinterlude.unattended.submitting_of_step hbefore.1 hspontaneous hstep
  · exact hbefore.2.of_step hinterlude.reachable hspontaneous hstep

theorem inTime_schedule (hperiod : 0 < plan.period.nanos) (hadmits : plan.Admits count now stands)
    {patient : Bool} {gain : Nat}
    (hbegin : ∀ day : Day, day.begin errand =
      some (day.ask (.schedule (plan.submission count) patient)))
    (hhear : ∀ day : Day, day.hear errand (.scheduled (.ok count)) =
      { day.done with admitted := day.admitted + gain })
    (hafter : ∀ starts scheduler,
      Underway config cores plan (count + 1) now stands starts scheduler → scheduler.calls = [] →
        Watched scheduler →
          InTime plan { scheduler, errands := rest, admitted := admitted + gain, abandoned })
    (hunderway : Underway config cores plan count now stands starts scheduler)
    (hcalls : scheduler.calls = []) (hwatched : Watched scheduler) :
    InTime plan { scheduler, errands := errand :: rest, admitted, abandoned } := by
  refine inTime_of_begin
    (lasts_watched hpolicy hnow (Nat.le_of_lt hadmits.count_lt))
    (fun state hstate hsettled => by rw [hbegin]; simp) ?_ ⟨hunderway, hcalls, hwatched⟩
  rintro state next ⟨hunderway, hcalls, hwatched⟩ hnext
  rw [hbegin] at hnext
  obtain rfl := Option.some.inj hnext
  obtain ⟨due, hsubmitted, hsubmitting, hwatched⟩ :=
    hunderway.schedule hpolicy hperiod hadmits hcalls hwatched patient
  refine ends_of_call (lasts_submitting hpolicy hnow hadmits.count_lt _) ?_ ?_
    ⟨hsubmitted, hsubmitting, hwatched⟩
  · rintro last ⟨hlast, hcall, -⟩ hsettled
    rcases hcall with ⟨same, hsome⟩ | ⟨-, hanswer⟩
    · exact absurd ((hlast.interlude.calls_eq_nil hsettled).symm.trans hsome) (by simp)
    · simp [hanswer]
  · rintro last answer ⟨hlast, hcall, hwatched⟩ hanswer
    obtain ⟨hcalls, rfl⟩ := hcall.of_answer hlast.interlude.reachable hanswer
    rw [hhear]
    exact ⟨hafter _ last hlast hcalls hwatched, rfl⟩

theorem inTime_submit (hperiod : 0 < plan.period.nanos) (hadmits : plan.Admits count now stands)
    (hafter : ∀ starts scheduler,
      Underway config cores plan (count + 1) now stands starts scheduler → scheduler.calls = [] →
        Watched scheduler → InTime plan { scheduler, errands := rest, admitted, abandoned })
    (hunderway : Underway config cores plan count now stands starts scheduler)
    (hcalls : scheduler.calls = []) (hwatched : Watched scheduler) :
    InTime plan
      { scheduler, errands := .submit (plan.submission count) :: rest, admitted, abandoned } := by
  have hhear : ∀ day : Day, day.hear (.submit (plan.submission count)) (.scheduled (.ok count)) =
      { day.done with admitted := day.admitted + 0 } := fun _ => rfl
  exact inTime_schedule hpolicy hnow hperiod hadmits (fun _ => rfl) hhear hafter hunderway hcalls
    hwatched

/-- A task that may be rejected is accepted as well. -/
theorem inTime_trySubmit (hperiod : 0 < plan.period.nanos) (hadmits : plan.Admits count now stands)
    (hafter : ∀ starts scheduler,
      Underway config cores plan (count + 1) now stands starts scheduler → scheduler.calls = [] →
        Watched scheduler →
          InTime plan { scheduler, errands := rest, admitted := admitted + 1, abandoned })
    (hunderway : Underway config cores plan count now stands starts scheduler)
    (hcalls : scheduler.calls = []) (hwatched : Watched scheduler) :
    InTime plan
      { scheduler, errands := .trySubmit (plan.submission count) :: rest, admitted, abandoned } :=
  inTime_schedule hpolicy hnow hperiod hadmits (fun _ => rfl) (fun _ => rfl) hafter hunderway hcalls
    hwatched

end

/-! ## Quiet moments -/

/-- Nobody calls, and all tasks are where they were to go. -/
structure Quiet (config : Config) (cores : Nat) (plan : Plan) (count : Nat)
    (stands : TaskId → Stand) (scheduler : Scheduler Unit) : Prop where
  dormant : Dormant config cores pollerId scheduler
  cast : Cast plan count scheduler.record?
  stands : Stands stands scheduler.record?
  calls_eq : scheduler.calls = []

theorem Underway.quiet (hunderway : Underway config cores plan count now stands starts scheduler)
    (hdormant : Dormant config cores pollerId scheduler) (hcalls : scheduler.calls = []) :
    Quiet config cores plan count stands scheduler :=
  ⟨hdormant, hunderway.cast_now, hunderway.stands_now hdormant hcalls, hcalls⟩

theorem Underway.evening (hunderway : Underway config cores plan count now stands starts scheduler)
    (hcores : 0 < cores) (hsettled : scheduler.isSettled = true) :
    Evening config cores now scheduler :=
  ⟨hunderway.interlude.dormant hcores hsettled, hunderway.reading_eq,
    Scheduler.unannounced_eq_zero_of_settled hsettled⟩

namespace Quiet

variable (hquiet : Quiet config cores plan count stands scheduler)

include hquiet

theorem exists_record (htask : task < count) :
    ∃ record, scheduler.record? task = some record ∧ (plan.submission task).Describes record ∧
      record.stand = stands task := by
  obtain ⟨record, hrecord⟩ := hquiet.cast.exists_record htask
  exact ⟨record, hrecord, hquiet.cast.describes task record hrecord,
    hquiet.stands task record hrecord⟩

theorem mem_accepted_iff (task : TaskId) : task ∈ scheduler.accepted ↔ task < count := by
  have hdormant := hquiet.dormant
  constructor
  · intro haccepted
    obtain ⟨record, hrecord⟩ :=
      hdormant.reachable.sound.custody.exists_record_of_accepted haccepted
    exact hquiet.cast.lt_count hrecord
  · intro htask
    obtain ⟨record, hrecord⟩ := hquiet.cast.exists_record htask
    exact hdormant.complete task record hrecord

theorem isLive_iff (task : TaskId) :
    scheduler.IsLive task ↔ task < count ∧ (stands task).isOver = false := by
  constructor
  · rintro ⟨record, hrecord, hlive⟩
    exact ⟨hquiet.cast.lt_count hrecord, hquiet.stands task record hrecord ▸ hlive⟩
  · rintro ⟨htask, hlive⟩
    obtain ⟨record, hrecord, -, hstand⟩ := hquiet.exists_record htask
    exact ⟨record, hrecord, by rwa [← hstand] at hlive⟩

/-- When all is quiet, the clock can be moved, and the tasks are on their way again. -/
theorem advance (hevening : Evening config cores now scheduler) {move : Span}
    (hclock : now.nanos + move.nanos < Moment.horizon)
    (hsteady : scheduler.lifecycle = .running ∨ ∀ task < count, (stands task).isOver = false →
      (plan.submission task).schedule.isPeriodic = false)
    (hlapse : ∀ task < count, (stands task).lapse (plan.submission task).schedule
      ⟨now.nanos + move.nanos⟩ = others task)
    (hreach : ∀ task < count, (plan.submission task).schedule.isPeriodic = true →
      (others task).due < Moment.horizon) :
    ∃ clock, scheduler.step (.advance move) =
        some { scheduler with
          agenda := { scheduler.agenda with clock }
          unannounced := 1 } ∧
      Underway config cores plan count ⟨now.nanos + move.nanos⟩ others scheduler.agenda.records
        { scheduler with agenda := { scheduler.agenda with clock }, unannounced := 1 } := by
  have hnow : scheduler.agenda.clock.elapsed.nanos = now.nanos :=
    congrArg Moment.nanos hevening.reading_eq
  have hadvance := ManualClock.advance_of_representable (hnow ▸ hclock)
  rw [hnow] at hadvance
  have hstep : scheduler.step (.advance move) =
      some { scheduler with
        agenda := { scheduler.agenda with clock := ⟨⟨now.nanos + move.nanos⟩⟩ }
        unannounced := 1 } := by
    simp only [Scheduler.step, hadvance, hevening.unannounced_eq]
  -- In a quiet moment the records are as the plan has them.
  have hfits : ∀ task record, scheduler.record? task = some record →
      task < count ∧ record.schedule = (plan.submission task).schedule ∧
        record.stand = stands task := by
    intro task record hrecord
    exact ⟨hquiet.cast.lt_count hrecord, (hquiet.cast.describes task record hrecord).schedule_eq,
      hquiet.stands task record hrecord⟩
  have hreadable : (⟨⟨now.nanos + move.nanos⟩⟩ : ManualClock).isReadable = true :=
    decide_eq_true hclock
  refine ⟨_, hstep, ?_, hquiet.cast, fun task start hstart => ?_, rfl, Nat.le_refl 1⟩
  · refine hquiet.dormant.interlude_of_advance hquiet.calls_eq hstep hreadable ?_ ?_
    · refine hsteady.imp_right fun honce task record hrecord hlive => ?_
      obtain ⟨htask, hschedule, hstand⟩ := hfits task record hrecord
      rw [Record.isPeriodic, hschedule]
      exact honce task htask (hstand ▸ hlive)
    · intro task record hrecord
      obtain ⟨htask, hschedule, hstand⟩ := hfits task record hrecord
      refine Record.staysRepresentable_of_lapse fun hperiodic => ?_
      rw [Record.isPeriodic, hschedule] at hperiodic
      rw [hstand, hschedule]
      exact hlapse task htask ▸ hreach task htask hperiodic
  · obtain ⟨htask, hschedule, hstand⟩ := hfits task start hstart
    rw [hstand]
    exact hlapse task htask

end Quiet

section

variable (hcores : 0 < cores) (hpolicy : config.policy = .keepGoing)
variable (hnow : now.nanos ≤ dawn.nanos + (plan.total + lastAdvance.nanos))

include hpolicy hnow

theorem inTime_watch (hcount : count ≤ plan.burst + 3)
    (hafter : ∀ scheduler, Underway config cores plan count now stands starts scheduler →
      scheduler.calls = [] → Watched scheduler →
        InTime plan { scheduler, errands := rest, admitted, abandoned })
    (hunderway : Underway config cores plan count now stands starts scheduler)
    (hcalls : scheduler.calls = []) (hrunning : scheduler.lifecycle = .running) :
    InTime plan { scheduler, errands := .watch :: rest, admitted, abandoned } := by
  have hlasts : Lasts config cores plan.pace fun scheduler =>
      Underway config cores plan count now stands starts scheduler ∧
        scheduler.calls = [] ∧ scheduler.lifecycle = .running := by
    refine lasts_underway hpolicy hcount hnow (fun scheduler hrest => ?_)
      fun {before after action} hinterlude hbefore hspontaneous hstep => ⟨?_, ?_⟩
    · rw [hrest.1]
      exact Nat.zero_le 1
    · exact hinterlude.unattended.calls_eq_nil_of_step hbefore.1 hspontaneous hstep
    · exact hinterlude.reachable.running_of_step hspontaneous hstep hbefore.2
  refine inTime_of_begin hlasts (fun state _ _ => by simp [Day.begin, Day.act, Scheduler.step]) ?_
    ⟨hunderway, hcalls, hrunning⟩
  rintro state next ⟨hunderway, hcalls, hrunning⟩ hnext
  rw [Day.begin, Day.act] at hnext
  obtain ⟨after, hstep, rfl⟩ := Option.map_eq_some_iff.mp hnext
  obtain ⟨hinterlude, hobserved⟩ := hunderway.interlude.observe hpolicy hstep
  obtain rfl := Option.some.inj hstep
  refine (hafter _ ⟨hinterlude, hunderway.cast, hunderway.lapse_eq, hunderway.reading_eq,
    hunderway.unannounced_le⟩ hcalls ⟨hrunning, hobserved⟩).mono ?_
  exact Nat.le_add_right _ _

include hcores

theorem inTime_advance {move : Span} (hcount : count ≤ plan.burst + 3)
    (hclock : now.nanos + move.nanos < Moment.horizon)
    (hlapse : ∀ task < count, (stands task).lapse (plan.submission task).schedule
      ⟨now.nanos + move.nanos⟩ = others task)
    (hreach : ∀ task < count, (plan.submission task).schedule.isPeriodic = true →
      (others task).due < Moment.horizon)
    (hafter : ∀ starts scheduler,
      Underway config cores plan count ⟨now.nanos + move.nanos⟩ others starts scheduler →
        Stands stands (fun task => starts[task]?) → scheduler.calls = [] → Watched scheduler →
          InTime plan { scheduler, errands := rest, admitted, abandoned })
    (hunderway : Underway config cores plan count now stands starts scheduler)
    (hcalls : scheduler.calls = []) (hwatched : Watched scheduler) :
    InTime plan { scheduler, errands := .advance move :: rest, admitted, abandoned } := by
  refine inTime_of_advance (lasts_watched hpolicy hnow hcount) ?_ ⟨hunderway, hcalls, hwatched⟩
  rintro state ⟨hunderway, hcalls, hwatched⟩ hsettled
  have hevening := hunderway.evening hcores hsettled
  have hquiet := hunderway.quiet hevening.dormant hcalls
  obtain ⟨clock, hstep, hmoved⟩ :=
    hquiet.advance hevening hclock (Or.inl hwatched.1) hlapse hreach
  exact ⟨_, hstep, hafter _ _ hmoved hquiet.stands hcalls hwatched⟩

/-- The value of a task is there when its run is over. -/
theorem inTime_get (hcount : count ≤ plan.burst + 3) (htask : task < count) (hthree : task < 3)
    (honce : (plan.submission task).schedule.isPeriodic = false)
    (hover : (stands task).isOver = true)
    (hlive : ∀ start, starts[task]? = some start → start.isDone = false)
    (hafter : ∀ scheduler, Underway config cores plan count now stands starts scheduler →
      scheduler.calls = [] → Watched scheduler →
        InTime plan { scheduler, errands := rest, admitted, abandoned })
    (hunderway : Underway config cores plan count now stands starts scheduler)
    (hcalls : scheduler.calls = []) (hwatched : Watched scheduler) :
    InTime plan
      { scheduler, errands := .get (plan.submission task).name :: rest, admitted, abandoned } := by
  -- There may be no value yet, but then something is still to be done.
  have hgets : ∀ scheduler, Underway config cores plan count now stands starts scheduler →
      scheduler.calls = [] →
        (scheduler.named? (plan.submission task).name).bind scheduler.get? = none ∧
            scheduler.isSettled ≠ true ∨
          (scheduler.named? (plan.submission task).name).bind scheduler.get? = some (.ok ()) := by
    intro scheduler hunderway hcalls
    have hinterlude := hunderway.interlude
    rw [hunderway.cast_now.named?_eq (hunderway.mem_accepted_iff hcalls) htask hthree,
      Option.bind_some]
    obtain ⟨start, hstart⟩ := hunderway.cast.exists_record htask
    have hother : task ≠ pollerId := by
      rintro rfl
      exact absurd honce (by simp [Plan.submission, pollerId, poller, Schedule.isPeriodic,
        Schedule.mode, TaskMode.isPeriodic])
    have hperiodic : start.isPeriodic = false := by
      rw [Record.isPeriodic, (hunderway.cast.describes task start hstart).schedule_eq]
      exact honce
    obtain ⟨record, hrecord, ⟨hopen, hnone⟩ | ⟨value, hvalue⟩⟩ :=
      hinterlude.get?_cases hstart hperiodic (hlive start hstart) hother
    · refine Or.inl ⟨hnone, fun hsettled => ?_⟩
      have hdone := hunderway.stands_now (hinterlude.dormant hcores hsettled) hcalls task record
        hrecord
      have hrecordOver : record.stand.isOver = true := hdone ▸ hover
      exact Bool.false_ne_true (hopen.symm.trans hrecordOver)
    · exact Or.inr hvalue
  refine inTime_of_begin (lasts_watched hpolicy hnow hcount) ?_ ?_ ⟨hunderway, hcalls, hwatched⟩
  · rintro state ⟨hunderway, hcalls, -⟩ hsettled
    rcases hgets state hunderway hcalls with ⟨-, hnot⟩ | hvalue
    · exact absurd hsettled hnot
    · simp [Day.begin, hvalue]
  · rintro state next ⟨hunderway, hcalls, hwatched⟩ hnext
    rcases hgets state hunderway hcalls with ⟨hnone, -⟩ | hvalue
    · simp [Day.begin, hnone] at hnext
    · simp only [Day.begin, hvalue] at hnext
      obtain rfl := Option.some.inj hnext
      exact (hafter state hunderway hcalls hwatched).mono (Nat.le_add_right _ _)

end

/-! ## The end of the day -/

/-- The scheduler has been told to stop, and lets nobody in any more. -/
def Closed (scheduler : Scheduler Unit) : Prop := SealedBut [] scheduler.agenda.queue

/-- When nobody calls, nothing happens to the tasks. -/
theorem Quiet.of_step {before : Scheduler Unit} {action : Action Unit}
    (hquiet : Quiet config cores plan count stands before) (hspontaneous : action.IsSpontaneous)
    (hstep : before.step action = some after) : Quiet config cores plan count stands after := by
  have hdormant := hquiet.dormant
  have hproceed : ∀ call, action ≠ .proceed call := by
    rintro call rfl
    simp [Scheduler.step, hquiet.calls_eq] at hstep
  obtain ⟨hcalls, -, -, hrecord⟩ := hdormant.keeps_of_step hspontaneous hproceed hstep
  have hnobody : ∀ call task, (call, .removing task) ∉ before.calls := by simp [hquiet.calls_eq]
  have hsame : after.record? = before.record? := funext hrecord
  exact ⟨hdormant.of_step hspontaneous.not_disturbs
    (Or.inr (hdormant.not_removes hnobody hstep)) hstep, hsame ▸ hquiet.cast,
    hsame ▸ hquiet.stands, hcalls.trans hquiet.calls_eq⟩

/-- Tasks have been cancelled, and the call has been answered. -/
theorem Evening.quiet {base : TaskId → Option (Record Unit)} {gone : List TaskId}
    (hevening : Evening config cores now scheduler) (hcast : Cast plan count base)
    (hstands : Stands stands base) (hleaves : Leaves base gone scheduler)
    (hcalls : scheduler.calls = []) :
    Quiet config cores plan count
      (fun task => (stands task).cancelIf (decide (task ∈ gone))) scheduler where
  dormant := hevening.dormant
  cast := hcast.of_leaves hleaves
  calls_eq := hcalls
  stands := by
    intro task record hrecord
    rw [hleaves task] at hrecord
    dsimp only
    split at hrecord
    · rename_i hgone
      obtain ⟨earlier, hearlier, rfl⟩ := Option.map_eq_some_iff.mp hrecord
      rw [earlier.stand_withdrawn, hstands task earlier hearlier, decide_eq_true hgone]
    · rename_i hleft
      rw [hstands task record hrecord, decide_eq_false hleft, Stand.cancelIf_false]

theorem lasts_quiet (hnow : now.nanos ≤ dawn.nanos + (plan.total + lastAdvance.nanos))
    (hcount : count ≤ plan.burst + 3) {kept : Scheduler Unit → Prop}
    (hkept : ∀ {before after : Scheduler Unit} {action : Action Unit},
      Dormant config cores pollerId before → kept before → action.IsSpontaneous →
        before.step action = some after → kept after) :
    Lasts config cores plan.pace fun scheduler =>
      Quiet config cores plan count stands scheduler ∧ Evening config cores now scheduler ∧
        kept scheduler where
  of_step := by
    rintro before after action ⟨hquiet, hevening, hbefore⟩ hspontaneous hstep
    have hnobody : ∀ call task, (call, .removing task) ∉ before.calls := by simp [hquiet.calls_eq]
    exact ⟨hquiet.of_step hspontaneous hstep,
      hevening.of_step hspontaneous.not_disturbs (Or.inr hnobody) hstep,
      hkept hquiet.dormant hbefore hspontaneous hstep⟩
  reachable := fun hstage => hstage.1.dormant.reachable
  plain := fun hstage => hstage.1.dormant.plain
  rank_lt := by
    rintro scheduler ⟨hquiet, hevening, -⟩
    exact hquiet.cast.rank_lt hquiet.dormant.reachable hcount (hevening.reading_eq ▸ hnow)
      (hquiet.calls_eq ▸ Nat.zero_le 1) (hevening.unannounced_eq ▸ Nat.zero_le 1)

section

variable (hnow : now.nanos ≤ dawn.nanos + (plan.total + lastAdvance.nanos))

include hnow

theorem lasts_withdrawing {base : TaskId → Option (Record Unit)}
    (hcast : Cast plan (plan.burst + 3) base) (call : CallId) :
    Lasts config cores plan.pace fun scheduler =>
      Evening config cores now scheduler ∧ Withdrawing base task call scheduler ∧
        scheduler.lifecycle = .running := by
  refine lasts_evening hcast hnow (fun scheduler hrest => ?_)
    (fun scheduler hrest => ⟨_, hrest.1.leaves⟩) (fun scheduler hrest => Or.inl hrest.2)
    fun {before after action} hdormant hbefore hspontaneous hstep => ⟨?_, ?_⟩
  · rcases hrest.1.call with hcalls | ⟨hcalls, -⟩ <;> simp [hcalls]
  · exact hbefore.1.of_step hdormant hspontaneous hstep
  · exact hdormant.reachable.running_of_step hspontaneous hstep hbefore.2

/-- The heartbeat is cancelled once all is quiet. -/
theorem inTime_cancel (hcores : 0 < cores) (hpolicy : config.policy = .keepGoing)
    (htask : task < plan.burst + 3) (hthree : task < 3) (hlive : (stands task).isOver = false)
    (hafter : ∀ scheduler,
      Quiet config cores plan (plan.burst + 3)
        (fun other => (stands other).cancelIf (decide (other ∈ [task]))) scheduler →
      Evening config cores now scheduler → scheduler.lifecycle = .running →
        InTime plan { scheduler, errands := rest, admitted, abandoned })
    (hunderway : Underway config cores plan (plan.burst + 3) now stands starts scheduler)
    (hcalls : scheduler.calls = []) (hwatched : Watched scheduler) :
    InTime plan
      { scheduler
        errands := .cancel (plan.submission task).name :: rest
        admitted, abandoned } := by
  have hnamed : ∀ scheduler,
      Underway config cores plan (plan.burst + 3) now stands starts scheduler →
        scheduler.calls = [] → scheduler.named? (plan.submission task).name = some task :=
    fun scheduler hunderway hcalls =>
      hunderway.cast_now.named?_eq (hunderway.mem_accepted_iff hcalls) htask hthree
  refine inTime_of_begin (lasts_watched hpolicy hnow (Nat.le_refl _)) ?_ ?_
    ⟨hunderway, hcalls, hwatched⟩
  · rintro state ⟨hunderway, hcalls, -⟩ hsettled
    simp [Day.begin, hsettled, hnamed state hunderway hcalls]
  rintro state next ⟨hunderway, hcalls, hwatched⟩ hnext
  have hsettled : state.isSettled = true := by
    by_contra hnot
    simp [Day.begin, hnot] at hnext
  simp only [Day.begin, hsettled, hnamed state hunderway hcalls, if_true, Option.map_some] at hnext
  obtain rfl := Option.some.inj hnext
  have hbefore := hunderway.evening hcores hsettled
  have hquiet := hunderway.quiet hbefore.dormant hcalls
  have hstep : state.step (.request (.cancel task)) = some (state.request (.cancel task)) := rfl
  have hevening : Evening config cores now (state.request (.cancel task)) :=
    hbefore.of_step id (Or.inl hwatched.1) hstep
  have hrunning : (state.request (.cancel task)).lifecycle = .running :=
    hquiet.dormant.reachable.running_of_not_shutdown (by simp) hstep hwatched.1
  have hwithdrawing := Scheduler.withdrawing_request hcalls
    ((hquiet.mem_accepted_iff task).mpr htask) ((hquiet.isLive_iff task).mpr ⟨htask, hlive⟩)
  refine ends_of_call (lasts_withdrawing hnow hquiet.cast _) ?_ ?_
    ⟨hevening, hwithdrawing, hrunning⟩
  · rintro last ⟨hevening, hcall, -⟩ hsettled
    rcases hcall.call with hsome | ⟨-, hanswer⟩
    · exact absurd ((hevening.dormant.calls_eq_nil hsettled).symm.trans hsome) (by simp)
    · simp [hanswer]
  · rintro last answer ⟨hevening, hcall, hrunning⟩ hanswer
    obtain ⟨hcalls, rfl⟩ := hcall.of_answer hevening.dormant.reachable hanswer
    exact ⟨hafter last (hevening.quiet hquiet.cast hquiet.stands hcall.leaves hcalls) hevening
      hrunning, rfl⟩

theorem lasts_retiring {base : TaskId → Option (Record Unit)}
    (hcast : Cast plan (plan.burst + 3) base) (drain : Bool) (call : CallId) :
    Lasts config cores plan.pace fun scheduler =>
      Evening config cores now scheduler ∧ Retiring drain call base scheduler :=
  lasts_evening hcast hnow (fun _ hretiring => hretiring.calls_le_one)
    (fun _ hretiring => hretiring.exists_leaves) (fun _ hretiring => Or.inr hretiring.not_removing)
    fun {_ _ _} hdormant hretiring hspontaneous hstep =>
      hretiring.of_step hdormant hspontaneous hstep

/-- The scheduler is shut down, and cancels what it sweeps out. -/
theorem inTime_shutdown (hcount : count = plan.burst + 3) {drain : Bool} {swept : List TaskId}
    (hnodup : swept.Nodup)
    (hswept : ∀ task, task ∈ swept ↔ task < count ∧ (stands task).isOver = false ∧
      (drain = true → (plan.submission task).schedule.isPeriodic = true))
    (hafter : ∀ scheduler,
      Quiet config cores plan count
        (fun task => (stands task).cancelIf (decide (task ∈ swept))) scheduler →
      Evening config cores now scheduler → Closed scheduler →
        InTime plan { scheduler, errands := rest, admitted, abandoned := swept.length })
    (hquiet : Quiet config cores plan count stands scheduler)
    (hevening : Evening config cores now scheduler) (hrunning : scheduler.lifecycle = .running) :
    InTime plan { scheduler, errands := .shutdown drain :: rest, admitted, abandoned } := by
  subst hcount
  refine inTime_of_begin (lasts_quiet hnow (Nat.le_refl _)
    fun {before after action} hdormant hbefore hspontaneous hstep =>
      hdormant.reachable.running_of_step hspontaneous hstep hbefore)
    (fun state hstate hsettled => by simp [Day.begin]) ?_ ⟨hquiet, hevening, hrunning⟩
  rintro state next ⟨hquiet, hbefore, hrunning⟩ hnext
  obtain rfl := Option.some.inj hnext
  have hstep : state.step (.request (.shutdown drain)) =
      some (state.request (.shutdown drain)) := rfl
  have hevening : Evening config cores now (state.request (.shutdown drain)) :=
    hbefore.of_step id (Or.inl hrunning) hstep
  have hretiring := Scheduler.retiring_request hquiet.dormant.reachable hquiet.calls_eq hrunning
    drain
  -- The call lists what it has cancelled in the order of the queue, the plan knows it as a set.
  have hsame : ∀ {done : List TaskId}, Sweeps drain state.record? done → done.Perm swept := by
    intro done hsweeps
    refine (List.perm_ext_iff_of_nodup hsweeps.nodup hnodup).mpr fun task => ?_
    rw [hsweeps.mem_iff, hswept]
    constructor
    · rintro ⟨record, hrecord, hlive, hperiodic⟩
      rw [← (hquiet.cast.describes task record hrecord).schedule_eq,
        ← hquiet.stands task record hrecord]
      exact ⟨hquiet.cast.lt_count hrecord, hlive, hperiodic⟩
    · rintro ⟨htask, hlive, hperiodic⟩
      obtain ⟨record, hrecord, hdescribes, hstand⟩ := hquiet.exists_record htask
      rw [← hdescribes.schedule_eq] at hperiodic
      rw [← hstand] at hlive
      exact ⟨record, hrecord, hlive, hperiodic⟩
  refine ends_of_call (lasts_retiring hnow hquiet.cast drain _) ?_ ?_ ⟨hevening, hretiring⟩
  · rintro last ⟨hevening, hretiring⟩ hsettled
    exact hretiring.exists_answer (hevening.dormant.calls_eq_nil hsettled)
  · rintro last answer ⟨hevening, hretiring⟩ hanswer
    obtain ⟨done, rfl, hcalls, hsweeps, hleaves, hsealed⟩ :=
      hretiring.of_answer hevening.dormant.reachable hanswer
    have hperm := hsame hsweeps
    have hlast := hevening.quiet hquiet.cast hquiet.stands hleaves hcalls
    simp only [hperm.mem_iff] at hlast
    have hends := hafter last hlast hevening hsealed
    rw [← hperm.length_eq] at hends
    exact ⟨hends, rfl⟩

/-- The clock is moved on as soon as the scheduler has been shut down. -/
theorem inTime_forward {move : Span} (hcount : count ≤ plan.burst + 3)
    (hclock : now.nanos + move.nanos < Moment.horizon)
    (hsteady : ∀ task < count, (stands task).isOver = false →
      (plan.submission task).schedule.isPeriodic = false)
    (hlapse : ∀ task < count, (stands task).lapse (plan.submission task).schedule
      ⟨now.nanos + move.nanos⟩ = others task)
    (hreach : ∀ task < count, (plan.submission task).schedule.isPeriodic = true →
      (others task).due < Moment.horizon)
    (hafter : ∀ starts scheduler,
      Underway config cores plan count ⟨now.nanos + move.nanos⟩ others starts scheduler →
        scheduler.calls = [] → scheduler.agenda.queue.admission ≠ .accepting →
          InTime plan { scheduler, errands := rest, admitted, abandoned })
    (hquiet : Quiet config cores plan count stands scheduler)
    (hevening : Evening config cores now scheduler) (hclosed : Closed scheduler) :
    InTime plan { scheduler, errands := .forward move :: rest, admitted, abandoned } := by
  have hmoves : ∀ state, Quiet config cores plan count stands state →
      Evening config cores now state → Closed state →
        ∃ after, state.step (.advance move) = some after ∧
          InTime plan { scheduler := after, errands := rest, admitted, abandoned } := by
    intro state hquiet hevening hclosed
    obtain ⟨clock, hstep, hmoved⟩ :=
      hquiet.advance hevening hclock (Or.inr hsteady) hlapse hreach
    exact ⟨_, hstep, hafter _ _ hmoved hquiet.calls_eq hclosed.not_accepting⟩
  refine inTime_of_begin (lasts_quiet hnow hcount
    fun {_ _ _} hdormant hclosed _ hstep => hdormant.sealedBut_of_step hclosed hstep) ?_ ?_
    ⟨hquiet, hevening, hclosed⟩
  · rintro state ⟨hquiet, hevening, hclosed⟩ -
    obtain ⟨after, hstep, -⟩ := hmoves state hquiet hevening hclosed
    simp [Day.begin, Day.act, hstep]
  · rintro state next ⟨hquiet, hevening, hclosed⟩ hnext
    obtain ⟨after, hstep, hends⟩ := hmoves state hquiet hevening hclosed
    simp only [Day.begin, Day.act, hstep, Option.map_some] at hnext
    obtain rfl := Option.some.inj hnext
    exact hends.mono (Nat.le_add_right _ _)

/-- When all that was left has run, the scheduler has stopped. -/
theorem inTime_await (hcores : 0 < cores) (hpolicy : config.policy = .keepGoing)
    (hcount : count ≤ plan.burst + 3) (hover : ∀ task < count, (stands task).isOver = true)
    (htells : ∀ scheduler, Quiet config cores plan count stands scheduler →
      scheduler.lifecycle = .stopped →
        plan.Tells (Day.report { scheduler, errands := [.await], admitted, abandoned }))
    (hunderway : Underway config cores plan count now stands starts scheduler)
    (hcalls : scheduler.calls = []) (hadmission : scheduler.agenda.queue.admission ≠ .accepting) :
    InTime plan { scheduler, errands := [.await], admitted, abandoned } := by
  have hlasts : Lasts config cores plan.pace fun scheduler =>
      Underway config cores plan count now stands starts scheduler ∧
        scheduler.calls = [] ∧ scheduler.agenda.queue.admission ≠ .accepting := by
    refine lasts_underway hpolicy hcount hnow (fun scheduler hrest => ?_)
      fun {before after action} hinterlude hbefore hspontaneous hstep => ⟨?_, ?_⟩
    · rw [hrest.1]
      exact Nat.zero_le 1
    · exact hinterlude.unattended.calls_eq_nil_of_step hbefore.1 hspontaneous hstep
    · rw [(hinterlude.unattended.same_of_step hinterlude.reachable hspontaneous hstep).admission_eq]
      exact hbefore.2
  refine inTime_of_begin hlasts ?_ ?_ ⟨hunderway, hcalls, hadmission⟩
  · rintro state ⟨hunderway, hcalls, hadmission⟩ hsettled
    have hdormant := hunderway.interlude.dormant hcores hsettled
    have hquiet := hunderway.quiet hdormant hcalls
    have hempty := hdormant.entries_eq_nil hcalls fun task hlive => by
      obtain ⟨htask, hopen⟩ := (hquiet.isLive_iff task).mp hlive
      exact Bool.false_ne_true (hopen.symm.trans (hover task htask))
    have hstopped := hdormant.stopped hsettled hadmission hempty
    simp [Day.begin, Scheduler.isTerminated, hstopped]
  · rintro state next ⟨hunderway, hcalls, -⟩ hnext
    have hstopped : state.lifecycle = .stopped := by
      by_contra hnot
      simp [Day.begin, Scheduler.isTerminated, hnot] at hnext
    have hquiet := hunderway.quiet (hunderway.interlude.dormant_of_stopped hcalls hstopped) hcalls
    simp only [Day.begin, Scheduler.isTerminated, hstopped, beq_self_eq_true, if_true] at hnext
    obtain rfl := Option.some.inj hnext
    exact Day.ends_told rfl (htells state hquiet hstopped)

end

end TimedTasks.Demo
