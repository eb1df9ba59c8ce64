import Mathlib.Algebra.Order.BigOperators.Group.Multiset
import Mathlib.Algebra.Order.Group.Nat
import Mathlib.Data.Multiset.Bind
import TimedTasks.Proofs.Scheduler.CatchUp
import TimedTasks.Proofs.Scheduler.Duties

/-!
# How many runs are still to come

At a given time every task has an allowance: how many of its runs have come due
(`Schedule.runsBy`).  For a task with a fixed rate these are all its periods that have begun, and
for any other task one run at most, since a fixed delay is counted from the completion of the run
before.

While the clock stands still, only a run that is settled changes the allowance of its task, and it
takes one run away from it, because periods are not zero.  So the runs that have still to be taken
from the queue (`outstanding`) become fewer by one with each task that the dispatcher takes, and
never more: a task that is re-armed has less to come than when it was taken.

The bodies must not get in the way of this, and `Tame` says of which bodies that is asked: those
that are being run, and the later runs of tasks that may come to run.
-/

namespace TimedTasks

variable {α : Type}

/-! ## Runs that have come due -/

/-- How many runs of a task that is due next at `due` have come due. -/
def Schedule.runsBy (schedule : Schedule) (due now : Moment) : Nat :=
  match schedule with
  | .fixedRate period => runsDue due period now
  | .oneShot | .fixedDelay _ => if due ≤ now then 1 else 0

namespace Schedule

variable {schedule : Schedule} {due now next : Moment}

theorem runsBy_pos (schedule : Schedule) (hdue : due ≤ now) : 0 < schedule.runsBy due now := by
  have hbegun : ¬ now < due := Nat.not_lt.mpr hdue
  cases schedule with
  | fixedRate period =>
      rw [runsBy, runsDue, if_neg hbegun]
      exact Nat.lt_add_right _ Nat.one_pos
  | oneShot | fixedDelay =>
      rw [runsBy, if_pos hdue]
      exact Nat.one_pos

/-- A period later there is one run less to come. -/
theorem runsDue_succ_le {period : Span} (hperiod : 0 < period.nanos) (hdue : due ≤ now)
    (hnext : next.nanos = due.nanos + period.nanos) :
    runsDue next period now + 1 ≤ runsDue due period now := by
  have hbegun : ¬ now < due := Nat.not_lt.mpr hdue
  have hle : due.nanos ≤ now.nanos := hdue
  rw [runsDue, runsDue, if_neg hbegun]
  split
  · exact Nat.le_add_right _ _
  · rename_i hreached
    have hreached : next.nanos ≤ now.nanos := Nat.not_lt.mp hreached
    have hsince : now.nanos - due.nanos = now.nanos - next.nanos + period.nanos := by omega
    rw [hsince, Nat.add_div_right _ hperiod]
    exact Nat.le_of_eq (Nat.add_assoc _ _ _)

/-- A run takes itself away from what has come due, and brings nothing. -/
theorem runsBy_of_rearm {policy : FailurePolicy} {error? : Option TaskError}
    (hperiod : schedule.period?.any Span.isZero = false) (hdue : due ≤ now)
    (hverdict : schedule.verdict policy due now error? = .rearm next) :
    schedule.runsBy next now + 1 ≤ schedule.runsBy due now := by
  have hnext := nextRun_of_verdict_rearm hverdict
  cases schedule with
  | oneShot => simp [nextRun] at hnext
  | fixedRate period =>
      have hpositive : 0 < period.nanos := by
        simpa [period?, Span.isZero, Nat.pos_iff_ne_zero] using hperiod
      refine runsDue_succ_le hpositive hdue ?_
      simp only [nextRun, after] at hnext
      split at hnext
      · rename_i later hadd
        obtain rfl := Option.some.inj (Except.ok.inj hnext)
        exact (Moment.add?_eq_some_iff.mp hadd).1
      · simp at hnext
  | fixedDelay period =>
      have hpositive : 0 < period.nanos := by
        simpa [period?, Span.isZero, Nat.pos_iff_ne_zero] using hperiod
      simp only [nextRun, after] at hnext
      split at hnext
      · rename_i later hadd
        obtain rfl := Option.some.inj (Except.ok.inj hnext)
        have hlater := (Moment.add?_eq_some_iff.mp hadd).1
        have hearly : ¬ later ≤ now := by
          rw [Moment.le_def]
          omega
        rw [runsBy, runsBy, if_neg hearly, if_pos hdue]
      · simp at hnext

end Schedule

/-! ## Prospects and bodies -/

/-- How many runs a prospect is good for. -/
def Prospect.price (owed : TaskId → Nat) : Prospect → Nat
  | .ahead task => owed task
  | .taken task => owed task - 1

def Prospect.task : Prospect → TaskId
  | .ahead task | .taken task => task

theorem Prospect.price_mono {less more : TaskId → Nat} (hle : ∀ task, less task ≤ more task)
    (prospect : Prospect) : prospect.price less ≤ prospect.price more := by
  cases prospect with
  | ahead task => exact hle task
  | taken task => exact Nat.sub_le_sub_right (hle task) 1

/-- A turn waits at no gate, leaves the clock alone and submits nothing. -/
structure Turn.IsTame (turn : Turn α) : Prop where
  gate_eq : turn.gate? = none
  advance_eq : turn.advance? = none
  submit_eq : turn.submit? = none

namespace Scheduler

variable {origin before after scheduler : Scheduler α} {action : Action α} {task : TaskId}
variable {config : Config} {cores : Nat} {past later : List (Scheduler α × Action α)}

/-- How many runs of a task have come due, the one that its record is due for included. -/
def allowance (scheduler : Scheduler α) (task : TaskId) : Nat :=
  match scheduler.record? task with
  | some record => record.schedule.runsBy record.nextRunAt scheduler.agenda.reading
  | none => 0

theorem allowance_eq {record : Record α} (hrecord : scheduler.record? task = some record) :
    scheduler.allowance task =
      record.schedule.runsBy record.nextRunAt scheduler.agenda.reading := by
  rw [allowance, hrecord]

/-! ## What becomes of allowances -/

theorem Move.reading_eq (hmove : Move origin action before after) (hcalm : origin.Calm action) :
    after.agenda.reading = before.agenda.reading := by
  cases hmove with
  | @clockMoved move _ _ hasked => exact absurd hasked (hcalm.unmoved move)
  | timePassed hclock hcause hbody =>
      obtain ⟨worker, rfl⟩ := hbody
      exact absurd hcause hcalm.not_rouses
  | @tookUp _ task worker =>
      obtain ⟨records, history, henter⟩ := before.agenda.enter_fst task worker before.agenda.reading
      rw [henter]
      rfl
  | settled _ _ hsettle | rearmed _ _ hsettle =>
      exact congrArg ManualClock.reading (Agenda.kept_settle hsettle).clock_eq
  | _ => rfl

theorem Move.record?_eq_none (hmove : Move origin action before after) (hsound : before.Sound)
    (hcalm : origin.Calm action) (hnone : before.record? task = none) :
    after.record? task = none := by
  cases hafter : after.record? task with
  | none => rfl
  | some later =>
      obtain ⟨submission, due, hcause, -⟩ :=
        (hmove.fate hsound.custody task).submitted hnone hafter
      exact absurd hcause (hcalm.nothingNew _ _)

/-- A run that is settled takes nothing but itself away from what its task is owed, and a task
that is pending again has had it. -/
theorem Settling.allowance_le (hsettling : Settling before after task) (hsound : before.Sound)
    (hpunctual : before.Punctual) (hnow : after.agenda.reading = before.agenda.reading) :
    after.allowance task ≤ before.allowance task ∧
      ((after.Has task fun record => record.state = .pending) →
        after.allowance task + 1 ≤ before.allowance task) := by
  have hmem : task ∈ before.tasksAt .running := by
    obtain @⟨job, error?, hjob, hstage, htask, -⟩ := hsettling
    have hplace : job.place = .running := by rw [Job.place, hstage]
    exact htask ▸ hplace ▸ mem_tasksAt_place hjob
  obtain ⟨record, hrecord⟩ := (hsound.custody.fitsAt_of_mem hmem).exists_record
  obtain ⟨hbusy, hdue, error?, hafter⟩ := hsettling.judged hsound hpunctual hrecord
  have hperiod := hpunctual.period task record hrecord
  generalize hverdict : record.schedule.verdict before.agenda.policy record.nextRunAt
    before.agenda.reading error? = verdict at hafter
  rw [allowance_eq hrecord, allowance_eq hafter, hnow, record.judged_schedule,
    record.judged_nextRunAt]
  cases verdict with
  | rearm next =>
      have hless := Schedule.runsBy_of_rearm hperiod hdue hverdict
      exact ⟨Nat.le_of_succ_le hless, fun _ => hless⟩
  | giveUp error =>
      refine ⟨Nat.le_refl _, fun hpending => ?_⟩
      have hstate := hpending.holds hafter
      rw [record.judged_state] at hstate
      rcases hbusy with hbusy | hbusy <;> simp [hbusy, Verdict.outcome] at hstate
  | finish outcome =>
      refine ⟨Nat.le_refl _, fun hpending => ?_⟩
      have hstate := hpending.holds hafter
      rw [record.judged_state] at hstate
      rcases Schedule.eq_or_eq_of_verdict_finish hverdict with rfl | rfl <;>
        rcases hbusy with hbusy | hbusy <;> simp [hbusy, Verdict.outcome] at hstate

theorem Move.allowance_le (hmove : Move origin action before after) (hsound : before.Sound)
    (hpunctual : before.Punctual) (hcalm : origin.Calm action) (task : TaskId) :
    after.allowance task ≤ before.allowance task := by
  have hnow := hmove.reading_eq hcalm
  cases hrecord : before.record? task with
  | none =>
      rw [allowance, hmove.record?_eq_none hsound hcalm hrecord]
      exact Nat.zero_le _
  | some record =>
      rcases hmove.settling_or_rests hsound task with hsettling | hrests
      · exact (hsettling.allowance_le hsound hpunctual hnow).1
      · obtain ⟨later, hlater, hrest⟩ := hrests.record record hrecord
        obtain ⟨same, hsame, hevolves⟩ := hmove.recordsEvolve hsound.custody task record hrecord
        obtain rfl := Option.some.inj (hsame.symm.trans hlater)
        rw [allowance_eq hrecord, allowance_eq hlater, hnow, hrest.due_eq, hevolves.schedule_eq]

/-! ## Runs that have still to be taken -/

/-- The tasks that may come to run. -/
def prospects (scheduler : Scheduler α) : Multiset Prospect := scheduler.weigh Duty.prospects

/-- How many runs have still to be taken from the queue. -/
def outstanding (scheduler : Scheduler α) : Nat :=
  (scheduler.prospects.map (Prospect.price scheduler.allowance)).sum

/-- How an exchange changes what may come to run. -/
theorem Exchange.prospects_cases {old new : Multiset Duty} {taken : Nat}
    (hexchange : Exchange action before after old new taken)
    (htrades : Trades before after old new) :
    (taken = 0 ∧ after.prospects ≤ before.prospects) ∨
      ∃ task rest,
        (taken = 1 ∧ (∃ first ∈ before.agenda.queue.entries, first.task = task ∧
            first.key.due ≤ before.agenda.reading) ∧
          before.prospects = .ahead task ::ₘ rest ∧ after.prospects = .taken task ::ₘ rest) ∨
        (taken = 0 ∧ Settling before after task ∧
          (after.Has task fun record => record.state = .pending) ∧
          before.prospects = .taken task ::ₘ rest ∧ after.prospects = .ahead task ::ₘ rest) := by
  have hsum : after.prospects + (old.map Duty.prospects).sum =
      before.prospects + (new.map Duty.prospects).sum := htrades.weigh Duty.prospects
  -- A prospect that another one takes the place of had been there.
  have hswap : ∀ {gone come : Prospect}, gone ≠ come →
      after.prospects + {gone} = before.prospects + {come} →
      ∃ rest, before.prospects = gone ::ₘ rest ∧ after.prospects = come ::ₘ rest := by
    intro gone come hne heq
    have hmem : gone ∈ before.prospects + {come} :=
      heq ▸ Multiset.mem_add.mpr (Or.inr (Multiset.mem_singleton_self gone))
    have hgone : gone ∈ before.prospects :=
      (Multiset.mem_add.mp hmem).resolve_right fun hcome => hne (Multiset.mem_singleton.mp hcome)
    obtain ⟨rest, hrest⟩ := Multiset.exists_cons_of_mem hgone
    refine ⟨rest, hrest, ?_⟩
    rw [hrest, ← Multiset.singleton_add, add_comm, add_assoc] at heq
    rw [add_left_cancel heq, ← Multiset.singleton_add, add_comm]
  cases hexchange with
  | lowered hprospects =>
      refine Or.inl ⟨rfl, ?_⟩
      obtain ⟨rest, hrest⟩ := Multiset.le_iff_exists_add.mp hprospects
      rw [hrest, add_comm (Multiset.sum _), ← add_assoc] at hsum
      exact Multiset.le_iff_exists_add.mpr ⟨rest, (add_right_cancel hsum).symm⟩
  | @taken first hentry hdue =>
      have htraded : after.prospects + {.ahead first.task} =
          before.prospects + {.taken first.task} := by
        simpa [Duty.prospects, Dispatcher.hand] using hsum
      obtain ⟨rest, hbefore, hafter⟩ := hswap (by simp) htraded
      exact Or.inr ⟨first.task, rest, Or.inl ⟨rfl, ⟨first, hentry, rfl, hdue⟩, hbefore, hafter⟩⟩
  | @rearmed task hsettling hpending =>
      have htraded : after.prospects + {.taken task} = before.prospects + {.ahead task} := by
        simpa [Duty.prospects] using hsum
      obtain ⟨rest, hbefore, hafter⟩ := hswap (by simp) htraded
      exact Or.inr ⟨task, rest, Or.inr ⟨rfl, hsettling, hpending, hbefore, hafter⟩⟩
  | rested | aside => exact Or.inl ⟨rfl, le_of_eq (by simpa using hsum)⟩
  | asked hdrafts => exact Or.inl ⟨rfl, le_of_eq (by simpa [Duty.prospects, hdrafts] using hsum)⟩

/-- Each task that the dispatcher takes was outstanding, and nothing else makes more of them. -/
theorem Move.outstanding_le (hmove : Move origin action before after) (hsound : before.Sound)
    (hpunctual : before.Punctual) (hcalm : origin.Calm action) :
    after.handled + after.outstanding ≤ before.handled + before.outstanding := by
  obtain ⟨old, new, taken, hexchange, htrades, hhandled⟩ := hmove.exchanges hsound hcalm
  have hallowance := hmove.allowance_le hsound hpunctual hcalm
  have hprices : ∀ prospects : Multiset Prospect,
      (prospects.map (Prospect.price after.allowance)).sum ≤
        (prospects.map (Prospect.price before.allowance)).sum := fun prospects =>
    Multiset.sum_map_le_sum_map _ _ fun prospect _ => prospect.price_mono hallowance
  rcases hexchange.prospects_cases htrades with ⟨rfl, hle⟩ | ⟨task, rest, htaken | hrearmed⟩
  · obtain ⟨lost, hlost⟩ := Multiset.le_iff_exists_add.mp hle
    have hfewer := hprices after.prospects
    rw [hhandled, outstanding, outstanding, hlost, Multiset.map_add, Multiset.sum_add]
    omega
  · obtain ⟨rfl, ⟨first, hentry, rfl, hdue⟩, hbefore, hafter⟩ := htaken
    have hfewer := hprices rest
    have htask := hallowance first.task
    have hpos : 0 < before.allowance first.task := by
      obtain ⟨record, hrecord⟩ := hsound.exists_record_of_queued hentry
      rw [hpunctual.entry first hentry, dueOf_eq_nextRunAt hrecord] at hdue
      rw [allowance_eq hrecord]
      exact record.schedule.runsBy_pos hdue
    rw [hhandled, outstanding, outstanding, hbefore, hafter, Multiset.map_cons, Multiset.sum_cons,
      Multiset.map_cons, Multiset.sum_cons, Prospect.price, Prospect.price]
    omega
  · obtain ⟨rfl, hsettling, hpending, hbefore, hafter⟩ := hrearmed
    have hfewer := hprices rest
    have hless := (hsettling.allowance_le hsound hpunctual (hmove.reading_eq hcalm)).2 hpending
    rw [hhandled, outstanding, outstanding, hbefore, hafter, Multiset.map_cons, Multiset.sum_cons,
      Multiset.map_cons, Multiset.sum_cons, Prospect.price, Prospect.price]
    omega

/-! ## Bodies that keep to themselves -/

/-- The bodies that are being run, and those of later runs of all tasks that may come to run,
wait at no gate, leave the clock alone and submit nothing. -/
structure Tame (scheduler : Scheduler α) : Prop where
  later : ∀ prospect ∈ scheduler.prospects, ∀ record,
    scheduler.record? prospect.task = some record →
    ∀ run, record.runs < run → (record.script run).IsTame
  inside : ∀ job ∈ scheduler.jobs, ∀ turn, job.stage = .inside (some turn) → turn.IsTame

theorem Tame.of_plays (htame : scheduler.Tame) {worker : Nat} {turn : Turn α}
    (hplays : scheduler.Plays worker turn) : turn.IsTame := by
  obtain ⟨job, hfind, hstage, -⟩ := hplays
  exact htame.inside job (List.mem_of_find?_eq_some hfind) turn hstage

/-- Bodies do not disturb the calm. -/
theorem Tame.calm (htame : scheduler.Tame) (hquiet : ¬ action.Disturbs) :
    scheduler.Calm action where
  unmoved := by
    rintro move rfl
    exact hquiet trivial
  nothingNew := by
    intro now submission hsubmits
    cases action with
    | request asked =>
        cases asked with
        | schedule => exact hquiet trivial
        | cancel | shutdown => exact hsubmits
    | work worker =>
        obtain ⟨turn, agenda, name, delay, script, hplays, -, -, hsubmit, -⟩ := hsubmits
        exact absurd ((htame.of_plays hplays).submit_eq.symm.trans hsubmit) (by simp)
    | _ => exact hsubmits
  timeless := by
    rintro worker turn rfl hplays
    exact (htame.of_plays hplays).advance_eq

theorem mem_prospects_of_backlog (hbacklog : task ∈ scheduler.backlog) :
    .taken task ∈ scheduler.prospects := by
  refine Multiset.mem_bind.mpr ⟨.backlog task, ?_, Multiset.mem_singleton_self _⟩
  have hmem : Duty.backlog task ∈ scheduler.backlog.map Duty.backlog := List.mem_map_of_mem hbacklog
  simp [duties, hmem]

/-- What may come to run has been there before. -/
theorem Move.exists_prospect (hmove : Move origin action before after) (hsound : before.Sound)
    (hcalm : origin.Calm action) {prospect : Prospect} (hprospect : prospect ∈ after.prospects) :
    ∃ old ∈ before.prospects, old.task = prospect.task := by
  obtain ⟨old, new, taken, hexchange, htrades, -⟩ := hmove.exchanges hsound hcalm
  have hswap : ∀ {gone come : Prospect} {rest : Multiset Prospect},
      before.prospects = gone ::ₘ rest → after.prospects = come ::ₘ rest →
      gone.task = come.task → ∃ old ∈ before.prospects, old.task = prospect.task := by
    intro gone come rest hbefore hafter hsame
    rw [hafter] at hprospect
    rcases Multiset.mem_cons.mp hprospect with rfl | hrest
    · exact ⟨gone, hbefore ▸ Multiset.mem_cons_self _ _, hsame⟩
    · exact ⟨prospect, hbefore ▸ Multiset.mem_cons_of_mem hrest, rfl⟩
  rcases hexchange.prospects_cases htrades with ⟨-, hle⟩ | ⟨task, rest, htaken | hrearmed⟩
  · exact ⟨prospect, Multiset.mem_of_le hle hprospect, rfl⟩
  · obtain ⟨-, -, hbefore, hafter⟩ := htaken
    exact hswap hbefore hafter rfl
  · obtain ⟨-, -, -, hbefore, hafter⟩ := hrearmed
    exact hswap hbefore hafter rfl

theorem Move.tame (hmove : Move origin action before after) (hsound : before.Sound)
    (hcalm : origin.Calm action) (htame : before.Tame) : after.Tame where
  later := by
    intro prospect hprospect record hrecord run hrun
    obtain ⟨old, hold, htask⟩ := hmove.exists_prospect hsound hcalm hprospect
    cases hbefore : before.record? prospect.task with
    | none =>
        have hnone := hmove.record?_eq_none hsound hcalm hbefore
        exact absurd (hnone.symm.trans hrecord) (by simp)
    | some earlier =>
        obtain ⟨found, hfound, hevolves⟩ :=
          hmove.recordsEvolve hsound.custody _ earlier hbefore
        obtain rfl := Option.some.inj (hfound.symm.trans hrecord)
        rw [hevolves.script_eq]
        exact htame.later old hold earlier (htask ▸ hbefore) run
          (Nat.lt_of_le_of_lt hevolves.runs_le hrun)
  inside := by
    intro job hjob turn hstage
    rcases hmove.inside_cases hjob hstage with hold | ⟨position, worker, hbacklog, hentered⟩
    · exact htame.inside job hold turn hstage
    · obtain ⟨record, run, entered, hrecord, hbody⟩ := hsound.custody.exists_body hbacklog
      have hmem : job.task ∈ before.tasksAt .backlog := List.mem_of_getElem? hbacklog
      obtain ⟨-, hfits⟩ := hsound.custody.fitsAt_of_mem hmem
      obtain ⟨-, hfresh⟩ := hfits.holds hrecord
      rw [Agenda.enter_eq hrecord hbody worker] at hentered
      have hsame : Stage.inside (some entered) = .inside (some turn) :=
        (congrArg Job.stage (Prod.mk.inj hentered).2).trans hstage
      obtain rfl := Option.some.inj (Stage.inside.inj hsame)
      rw [← Record.script_of_enter hbody]
      refine htame.later _ (mem_prospects_of_backlog hmem) record hrecord run ?_
      rw [Record.run_of_enter hbody fun honce => (hfresh honce).1]
      exact Nat.lt_succ_self _

/-- If no body that has been submitted gets in the way, none ever will. -/
theorem Run.tame (hrun : Run config cores past scheduler)
    (hsubmitted : ∀ step ∈ past, ∀ now submission, step.1.Submits step.2 now submission →
      ∀ run, (submission.script run).IsTame) : scheduler.Tame := by
  -- Records keep their scripts, so that all scripts there are have been submitted.
  have hscripts : ∀ task record, scheduler.record? task = some record →
      ∀ run, (record.script run).IsTame := by
    induction hrun with
    | start hcreated =>
        intro task record hrecord
        obtain ⟨hnone, -⟩ := Prod.mk.inj (standing_new hcreated task)
        exact absurd (hnone.symm.trans hrecord) (by simp)
    | @step past before after hrun action hstep ih =>
        obtain ⟨hlast, hearlier⟩ := List.forall_mem_cons.mp hsubmitted
        refine of_step (p := fun state => ∀ task record, state.record? task = some record →
          ∀ run, (record.script run).IsTame) hrun.reachable.sound hstep (ih hearlier) ?_
        intro first second hsound hfirst hmove task later hlater
        cases hrecord : first.record? task with
        | none =>
            obtain ⟨submission, due, hcause, -, rfl⟩ :=
              (hmove.fate hsound.custody task).submitted hrecord hlater
            exact hlast _ submission hcause
        | some record =>
            obtain ⟨found, hfound, hevolves⟩ :=
              hmove.recordsEvolve hsound.custody task record hrecord
            obtain rfl := Option.some.inj (hfound.symm.trans hlater)
            rw [hevolves.script_eq]
            exact hfirst task record hrecord
  constructor
  · exact fun prospect _ record hrecord run _ => hscripts _ record hrecord run
  · intro job hjob turn hstage
    obtain ⟨record, hrecord, hrun⟩ := hrun.reachable.scripted job hjob _ hstage
    rw [Option.some.inj hrun]
    exact hscripts _ record hrecord record.runs

/-! ## Steps and runs -/

theorem Tame.of_step (htame : before.Tame) (hsound : before.Sound) (hquiet : ¬ action.Disturbs)
    (hstep : before.step action = some after) : after.Tame :=
  Scheduler.of_step (p := Tame) hsound hstep htame fun _ _ hfirst hkept hmove =>
    hmove.tame hfirst (htame.calm hquiet) hkept

theorem Reachable.outstanding_le_of_step (hreachable : Reachable config cores before)
    (hcalm : before.Calm action) (hstep : before.step action = some after) :
    after.handled + after.outstanding ≤ before.handled + before.outstanding := by
  suffices hboth : after.Punctual ∧
      after.handled + after.outstanding ≤ before.handled + before.outstanding from hboth.2
  refine of_step (p := fun state => state.Punctual ∧
      state.handled + state.outstanding ≤ before.handled + before.outstanding)
    hreachable.sound hstep ⟨hreachable.punctual, Nat.le_refl _⟩
    fun first second hsound hfirst hmove => ?_
  obtain ⟨hpunctual, hle⟩ := hfirst
  exact ⟨hmove.punctual hsound hpunctual,
    Nat.le_trans (hmove.outstanding_le hsound hpunctual hcalm) hle⟩

/-- However a scheduler is left to itself, the dispatcher takes no more tasks than there were
outstanding. -/
theorem Run.timesPopped_le {final : Scheduler α} (hrun : Run config cores past scheduler)
    (htame : scheduler.Tame) (hlater : Run config cores (later ++ past) final)
    (hquiet : ∀ step ∈ later, ¬ step.2.Disturbs) :
    timesPopped later ≤ scheduler.outstanding := by
  -- What has been taken has been handled, so it is enough that there are never more tasks handled
  -- and outstanding together.
  suffices hkept : final.Tame ∧
      final.handled + final.outstanding ≤ scheduler.handled + scheduler.outstanding by
    have hall := hlater.timesPopped_eq
    rw [timesPopped, List.countP_append] at hall
    have hpast := hrun.timesPopped_eq
    unfold timesPopped at hpast ⊢
    omega
  refine hrun.induction_later (p := fun later state => (∀ step ∈ later, ¬ step.2.Disturbs) →
      state.Tame ∧
        state.handled + state.outstanding ≤ scheduler.handled + scheduler.outstanding)
    hlater (fun _ => ⟨htame, Nat.le_refl _⟩) (fun later first action second hrun ih hstep => ?_)
    hquiet
  intro hquiet
  obtain ⟨hlast, hearlier⟩ := List.forall_mem_cons.mp hquiet
  obtain ⟨htame, hle⟩ := ih hearlier
  have hreachable := hrun.reachable
  exact ⟨htame.of_step hreachable.sound hlast hstep,
    Nat.le_trans (hreachable.outstanding_le_of_step (htame.calm hlast) hstep) hle⟩

end Scheduler

end TimedTasks
