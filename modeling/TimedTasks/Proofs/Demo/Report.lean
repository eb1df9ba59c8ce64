import TimedTasks.Proofs.Demo.Turns
import TimedTasks.Proofs.Scheduler.Accounts

/-!
# What the demonstration reports

The day is followed from its end to its beginning: from the last quiet moment the caller comes to
its report (`inTime_closing`), and so from the moment at which the burst has been submitted, through
all moves of the clock (`inTime_advances`), through the burst (`inTime_burst`), and from the first
call.  Whatever the order of steps, the report tells what the plan amounts to (`run_tells`).

The counters need not be followed through the day.  When the scheduler has stopped, each run has
been counted once, as failed if its script has it so; so what the tasks have come to in the end
settles what the report tells (`Quiet.tells`).
-/

namespace TimedTasks.Demo

open Scheduler (Reachable)

variable {plan : Plan} {now : Moment} {scheduler : Scheduler Unit} {starts : Array (Record Unit)}
variable {config : Config} {cores count : Nat} {stands : TaskId → Stand} {task : TaskId}

/-! ## The report -/

namespace Quiet

variable (hquiet : Quiet config cores plan count stands scheduler)

include hquiet

theorem accepted_perm : scheduler.accepted.Perm (List.range count) := by
  have hnodup := hquiet.dormant.reachable.accepted_nodup
  exact (List.perm_ext_iff_of_nodup hnodup List.nodup_range).mpr fun task =>
    (hquiet.mem_accepted_iff task).trans List.mem_range.symm

theorem runsOf_eq {day : Day} (hday : day.scheduler = scheduler) (htask : task < count)
    (hthree : task < 3) : day.runsOf (plan.submission task).name = (stands task).runs := by
  obtain ⟨record, hrecord, -, hstand⟩ := hquiet.exists_record htask
  rw [Day.runsOf, hday, hquiet.cast.named?_eq hquiet.mem_accepted_iff htask hthree,
    Option.bind_some, hrecord, ← hstand]
  rfl

theorem totalRuns_eq_sum :
    scheduler.totalRuns = ((List.range count).map fun task => (stands task).runs).sum := by
  rw [Scheduler.totalRuns, (hquiet.accepted_perm.map _).sum_eq]
  refine congrArg List.sum (List.map_congr_left fun task htask => ?_)
  obtain ⟨record, hrecord, -, hstand⟩ := hquiet.exists_record (List.mem_range.mp htask)
  rw [Scheduler.runCount, hrecord, ← hstand]
  rfl

/-- Each run has been counted as completed or failed. -/
theorem totalRuns_eq :
    scheduler.totalRuns =
      scheduler.agenda.metrics.completed + scheduler.agenda.metrics.failed := by
  have hdormant := hquiet.dormant
  have hlost := (hdormant.reachable.sound.intact hdormant.readable).1
  have huncounted : scheduler.uncounted = [] := by rw [Scheduler.uncounted, hlost]; rfl
  have hprogressing : scheduler.progressing = 0 := by
    rw [Scheduler.progressing, Scheduler.tasksAt, hdormant.jobs_eq]
    rfl
  rw [hdormant.reachable.totalRuns_eq, hdormant.reachable.balanced.bodies_eq, hprogressing,
    huncounted]
  rfl

theorem failed_eq (hthird : pollerId < count) :
    scheduler.agenda.metrics.failed = (stands pollerId).runs / 3 := by
  have hdormant := hquiet.dormant
  obtain ⟨record, hrecord, hdescribes, hstand⟩ := hquiet.exists_record hthird
  have hsettled : scheduler.settledRuns pollerId = record.runs := by
    rw [Scheduler.settledRuns, hdormant.inProgress_eq, hdormant.reachable.tallied, hrecord]
    rfl
  have hscript : record.script = (poller plan).script := hdescribes.script_eq
  rw [hdormant.blamed.failed_eq, Scheduler.faultsOf, hrecord, Option.elim_some, hsettled,
    faults_poller hscript, ← hstand]
  rfl

end Quiet

/-- What there is to see in the end is what the plan amounts to. -/
theorem Quiet.tells (hquiet : Quiet config cores plan (plan.burst + 3) plan.night scheduler)
    (hstopped : scheduler.lifecycle = .stopped) {errands : List Errand} :
    plan.Tells (Day.report
      { scheduler, errands, admitted := plan.burst, abandoned := plan.swept.length }) := by
  have hthird : pollerId < plan.burst + 3 :=
    Nat.lt_of_lt_of_le (by decide : 2 < 3) (Nat.le_add_left ..)
  have hbeats : Day.runsOf
      { scheduler, errands, admitted := plan.burst, abandoned := plan.swept.length } "heartbeat" =
        1 + plan.total / plan.period.nanos :=
    hquiet.runsOf_eq rfl (Nat.succ_lt_succ (Nat.succ_pos _)) (by decide : 1 < 3)
  have hpolls : Day.runsOf
      { scheduler, errands, admitted := plan.burst, abandoned := plan.swept.length } "poller" =
        plan.polling.polls :=
    hquiet.runsOf_eq rfl hthird (by decide : 2 < 3)
  have hfailed : scheduler.agenda.metrics.failed = plan.polling.polls / 3 :=
    hquiet.failed_eq hthird
  have hfailures : (scheduler.agenda.failureLines scheduler.agenda.history).length =
      scheduler.agenda.metrics.failed := by
    rw [Agenda.length_failureLines, hquiet.dormant.blamed.heard_eq]
  have hscheduled : scheduler.agenda.metrics.scheduled = plan.burst + 3 := by
    rw [hquiet.dormant.reachable.balanced.scheduled_eq, hquiet.accepted_perm.length_eq,
      List.length_range]
  have hcompleted := hquiet.totalRuns_eq_sum.symm.trans hquiet.totalRuns_eq
  rw [show (fun task => (plan.night task).runs) = plan.runs from rfl, plan.sum_runs] at hcompleted
  refine ⟨hbeats, hpolls, hfailures.trans hfailed, rfl, rfl, plan.length_swept, hstopped,
    hscheduled, hfailures.symm, ?_⟩
  show scheduler.agenda.metrics.completed = 1 + Day.runsOf _ "heartbeat" + Day.runsOf _ "poller" -
    (scheduler.agenda.failureLines scheduler.agenda.history).length + _
  rw [hbeats, hpolls, hfailures]
  omega

/-! ## The day, from its end to its beginning -/

/-- The first task is accepted when the clock has not been moved yet. -/
theorem Plan.admits_answer (plan : Plan) : plan.Admits 0 ⟨0⟩ (plan.fresh 0) where
  count_lt := Nat.succ_pos _
  first := (by decide : 0 + answerDelay.nanos < Moment.horizon)
  second := by rintro period ⟨⟩
  lapse_eq := Stand.lapse_of_early _ fun _ => (by decide : 0 < 0 + answerDelay.nanos)
  due_lt := fun hperiodic => absurd hperiodic Bool.false_ne_true
  dawn_le := fun hone => absurd hone (by decide)

theorem Plan.lapse_answer (plan : Plan) :
    (plan.fresh 0 0).lapse (plan.submission 0).schedule ⟨0 + answerDelay.nanos⟩ =
      plan.stand 0 plan.firstPolling 0 := by
  have hfresh : plan.fresh 0 0 = ⟨false, 0, answerDelay.nanos⟩ := by
    rw [Plan.fresh, Nat.zero_add]
    rfl
  rw [hfresh, Nat.zero_add]
  exact lapse_once (Nat.le_refl _)

theorem Plan.Representable.admits (htimes : plan.Representable) (hperiod : 0 < plan.period.nanos)
    (hfirst : 0 < count) (hcount : count < plan.burst + 3) :
    plan.Admits count dawn (plan.stand 0 plan.firstPolling) where
  count_lt := hcount
  first := (htimes.first hfirst).1
  second := (htimes.first hfirst).2
  lapse_eq := Plan.lapse_fresh hperiod hfirst
  due_lt := htimes.due_lt (Nat.zero_le _) plan.firstPolling_due_le
  dawn_le := fun _ => Nat.le_refl _

section

variable (hcores : 0 < cores) (hpolicy : config.policy = .keepGoing)
variable (htimes : plan.Representable)

include hcores hpolicy htimes

/-- From the last quiet moment, the caller comes to its report. -/
theorem inTime_closing
    (hunderway : Underway config cores plan (plan.burst + 3) ⟨answerDelay.nanos + plan.total⟩
      (plan.stand plan.total plan.polling) starts scheduler)
    (hcalls : scheduler.calls = []) (hwatched : Watched scheduler) :
    InTime plan { scheduler, errands := plan.closing, admitted := plan.burst } := by
  have hbefore : answerDelay.nanos + plan.total ≤
      dawn.nanos + (plan.total + lastAdvance.nanos) :=
    Nat.add_le_add_left (Nat.le_add_right _ _) _
  refine inTime_cancel hbefore hcores hpolicy (Nat.succ_lt_succ (Nat.succ_pos _))
    (by decide : 1 < 3) rfl (fun dusk hcancelled hlater hrunning => ?_) hunderway hcalls hwatched
  have hdusk : Quiet config cores plan (plan.burst + 3) plan.dusk dusk := hcancelled
  refine inTime_shutdown hbefore rfl plan.nodup_swept plan.mem_swept
    (fun closed hquiet hevening hclosed => ?_) hdusk hlater hrunning
  have hswept : ∀ task < plan.burst + 3,
      (decide (task ∈ plan.swept) = true ↔ plan.IsSwept task) := by
    intro task htask
    rw [decide_eq_true_iff, plan.mem_swept, and_iff_right htask]
  refine inTime_forward hbefore (Nat.le_refl _) htimes.clock (fun task htask hlive => ?_)
    (fun task htask => plan.lapse_dusk task (hswept task htask))
    (fun task _ hperiodic => htimes.due_lt (Nat.le_refl _) (Nat.le_refl _) hperiodic)
    (fun starts night hnight hcalls hadmission => ?_) hquiet hevening hclosed
  · -- Whatever repeats has been swept out.
    obtain ⟨hopen, hstays⟩ := Bool.or_eq_false_iff.mp hlive
    refine Bool.eq_false_iff.mpr fun hperiodic => ?_
    have hleaves := (hswept task htask).mpr ⟨hopen, fun _ => hperiodic⟩
    exact Bool.false_ne_true (hstays.symm.trans hleaves)
  · refine inTime_await ?_ hcores hpolicy (Nat.le_refl _) (fun _ _ => rfl)
      (fun _ hquiet hstopped => hquiet.tells hstopped) hnight hcalls hadmission
    show answerDelay.nanos + plan.total + lastAdvance.nanos ≤ _
    rw [Nat.add_assoc]
    exact Nat.le_refl _

variable (hperiod : 0 < plan.period.nanos)

include hperiod

theorem inTime_advances {moves : List Span} {elapsed : Nat} {polling : Polling}
    (htotal : elapsed + (moves.map Span.nanos).sum = plan.total)
    (hpolling : (moves.scanl (fun moment move => moment + move.nanos) elapsed).foldl
      (Polling.look plan.period.nanos) polling = plan.polling)
    (hunderway : Underway config cores plan (plan.burst + 3) ⟨answerDelay.nanos + elapsed⟩
      (plan.stand elapsed (polling.look plan.period.nanos elapsed)) starts scheduler)
    (hcalls : scheduler.calls = []) (hwatched : Watched scheduler) :
    InTime plan
      { scheduler, errands := moves.map .advance ++ plan.closing, admitted := plan.burst } := by
  -- Each move begins a new interlude, which starts from other records and other polls.
  induction moves generalizing scheduler starts elapsed polling with
  | nil =>
      rw [List.map_nil, List.sum_nil, Nat.add_zero] at htotal
      subst htotal
      have hpolled : polling.look plan.period.nanos plan.total = plan.polling := hpolling
      rw [hpolled] at hunderway
      exact inTime_closing hcores hpolicy htimes hunderway hcalls hwatched
  | cons move rest ih =>
      rw [List.map_cons, List.sum_cons, ← Nat.add_assoc] at htotal
      rw [List.scanl_cons, List.foldl_cons] at hpolling
      have hreach : ((polling.look plan.period.nanos elapsed).look plan.period.nanos
          (elapsed + move.nanos)).due ≤ plan.polling.due := by
        rw [← hpolling]
        exact Polling.due_le_walk ..
      have hle : elapsed + move.nanos ≤ plan.total := htotal ▸ Nat.le_add_right _ _
      have hlast := htimes.clock
      have hnow : answerDelay.nanos + elapsed ≤ dawn.nanos + (plan.total + lastAdvance.nanos) :=
        Nat.add_le_add_left (by omega) _
      have hclock : answerDelay.nanos + elapsed + move.nanos < Moment.horizon := by omega
      refine inTime_advance hcores hpolicy hnow (Nat.le_refl _) hclock
        (fun task _ => by rw [Nat.add_assoc]; exact Plan.lapse_stand hperiod _ task)
        (fun task _ => htimes.due_lt hle hreach)
        (fun starts later hlater _ hcalls hwatched => ?_) hunderway hcalls hwatched
      rw [Nat.add_assoc] at hlater
      exact ih htotal hpolling hlater hcalls hwatched

theorem inTime_burst {index left : Nat} (hleft : index + left = plan.burst)
    (hunderway : Underway config cores plan (index + 3) dawn (plan.stand 0 plan.firstPolling)
      starts scheduler)
    (hcalls : scheduler.calls = []) (hwatched : Watched scheduler) :
    InTime plan
      { scheduler
        errands := (List.range' index left).map (fun index => .trySubmit (burstTask index)) ++
          (plan.advances.map .advance ++ plan.closing)
        admitted := index } := by
  -- The tasks are numbered as they are submitted, so one count grows while the other shrinks.
  induction left generalizing scheduler starts index with
  | zero =>
      obtain rfl : index = plan.burst := hleft
      exact inTime_advances hcores hpolicy htimes hperiod (Nat.zero_add _) rfl hunderway hcalls
        hwatched
  | succ left ih =>
      have hadmits := htimes.admits hperiod (Nat.succ_pos (index + 2)) (by omega)
      refine inTime_trySubmit hpolicy (Nat.le_add_right _ _) hperiod hadmits
        (fun starts later hlater hcalls hwatched => ?_) hunderway hcalls hwatched
      exact ih (by omega) hlater hcalls hwatched

theorem inTime_day (hunbounded : config.capacity = 0)
    (hcreated : Scheduler.new config cores = .ok scheduler) : InTime plan (plan.day scheduler) := by
  have hdawn : dawn.nanos ≤ dawn.nanos + (plan.total + lastAdvance.nanos) := Nat.le_add_right _ _
  have hfirst : (0 : Nat) ≤ dawn.nanos + (plan.total + lastAdvance.nanos) := Nat.zero_le _
  have hrunning : scheduler.lifecycle = .running ∧ scheduler.calls = [] ∧
      scheduler.unannounced = 0 ∧ scheduler.agenda.reading = ⟨0⟩ := by
    rw [Scheduler.new_eq_ok hcreated]
    exact ⟨rfl, rfl, rfl, rfl⟩
  obtain ⟨hrunning, hcalls, hannounced, hreading⟩ := hrunning
  have hnew : Underway config cores plan 0 ⟨0⟩ (plan.fresh 0) #[] scheduler :=
    { interlude := Scheduler.interlude_new hcreated hunbounded pollerId
      cast := ⟨fun task => by simp, fun task record hrecord => absurd hrecord (by simp),
        fun record hrecord => absurd hrecord (by simp)⟩
      lapse_eq := fun task start hstart => absurd hstart (by simp)
      reading_eq := hreading
      unannounced_le := hannounced ▸ Nat.zero_le 1 }
  have herrands : plan.errands =
      .watch :: .submit answer :: .advance answerDelay :: .get "answer" ::
        .submit (heartbeat plan) :: .submit (poller plan) ::
        ((List.range' 0 plan.burst).map (fun index => .trySubmit (burstTask index)) ++
          (plan.advances.map .advance ++ plan.closing)) := by
    rw [Plan.errands, List.range_eq_range', List.append_assoc, List.append_assoc]
    rfl
  rw [Plan.day, herrands]
  -- From here on one errand after the other, each in the state that the last one has left.
  refine inTime_watch hpolicy hfirst (Nat.zero_le _) (fun watched hunderway hcalls hwatched => ?_)
    hnew hcalls hrunning
  refine inTime_submit hpolicy hfirst hperiod plan.admits_answer
    (fun _ submitted hunderway hcalls hwatched => ?_) hunderway hcalls hwatched
  -- So far there is one task, and it runs when the clock comes to dawn.
  have hlapse : ∀ task < 1, (plan.fresh 0 task).lapse (plan.submission task).schedule
      ⟨0 + answerDelay.nanos⟩ = plan.stand 0 plan.firstPolling task := by
    intro task htask
    obtain rfl := Nat.lt_one_iff.mp htask
    exact plan.lapse_answer
  have hreach : ∀ task < 1, (plan.submission task).schedule.isPeriodic = true →
      (plan.stand 0 plan.firstPolling task).due < Moment.horizon := by
    intro task htask hperiodic
    obtain rfl := Nat.lt_one_iff.mp htask
    exact absurd hperiodic Bool.false_ne_true
  refine inTime_advance hcores hpolicy hfirst (Nat.succ_le_succ (Nat.zero_le _))
    (by decide : 0 + answerDelay.nanos < Moment.horizon) hlapse hreach
    (fun starts advanced hunderway hstarts hcalls hwatched => ?_) hunderway hcalls hwatched
  rw [Nat.zero_add] at hunderway
  have hlive : ∀ start, starts[0]? = some start → start.isDone = false := fun start hstart =>
    congrArg Stand.isOver (hstarts 0 start hstart)
  refine inTime_get hcores hpolicy hdawn (Nat.succ_le_succ (Nat.zero_le _)) Nat.one_pos
    (by decide : 0 < 3) rfl rfl hlive (fun answered hunderway hcalls hwatched => ?_) hunderway
    hcalls hwatched
  refine inTime_submit hpolicy hdawn hperiod (htimes.admits hperiod Nat.one_pos (by omega))
    (fun _ beating hunderway hcalls hwatched => ?_) hunderway hcalls hwatched
  refine inTime_submit hpolicy hdawn hperiod (htimes.admits hperiod Nat.two_pos (by omega))
    (fun _ polling hunderway hcalls hwatched => ?_) hunderway hcalls hwatched
  exact inTime_burst hcores hpolicy htimes hperiod (Nat.zero_add _) hunderway hcalls hwatched

end

/-- A demonstration with an unbounded queue whose schedule goes on after failures, and whose times
can all be represented, comes to its end in whatever order its steps are made, and reports what its
plan amounts to. -/
theorem run_tells (hcreated : Scheduler.new config cores = .ok scheduler) (hcores : 0 < cores)
    (hunbounded : config.capacity = 0) (hpolicy : config.policy = .keepGoing)
    (hperiod : 0 < plan.period.nanos) (htimes : plan.Representable) :
    (∀ later, (plan.day scheduler).Course later → later.EndsWithin plan.Tells plan.budget) ∧
      ∃ report, run scheduler plan = .ok report ∧ plan.Tells report := by
  have hends := inTime_day hcores hpolicy htimes hperiod hunbounded hcreated
  obtain ⟨report, houtcome, htells⟩ := (hends _ .begins).playWithin
  refine ⟨hends, report, ?_, htells⟩
  unfold run
  rw [show ((plan.day scheduler).playWithin plan.budget).outcome? = _ from houtcome]

/-- Every move of the clock ends where the next poll is due, or past it. -/
theorem run_tells_on_time :
    ∃ scheduler report, Scheduler.new {} 4 = .ok scheduler ∧
      run scheduler ⟨.ofSeconds 10, 5, false, [.ofSeconds 5, .ofSeconds 10, .ofSeconds 40]⟩ =
        .ok report ∧
      report.heartbeats = 6 ∧ report.polls = 3 ∧ report.failures = 1 ∧ report.abandoned = 1 ∧
      report.snapshot.lifecycle = .stopped ∧ report.snapshot.metrics.completed = 14 := by
  obtain ⟨scheduler, hcreated⟩ : ∃ scheduler : Scheduler Unit,
      Scheduler.new {} 4 = .ok scheduler := ⟨_, rfl⟩
  have htimes : Plan.Representable
      ⟨.ofSeconds 10, 5, false, [.ofSeconds 5, .ofSeconds 10, .ofSeconds 40]⟩ :=
    ⟨by decide, by decide, by decide, by decide⟩
  obtain ⟨-, report, hreport, htells⟩ :=
    run_tells hcreated (by decide) rfl rfl (by decide) htimes
  refine ⟨scheduler, report, hcreated, hreport, ?_, ?_, ?_, ?_, htells.stopped, ?_⟩
  · exact htells.heartbeats_eq
  · exact htells.polls_eq
  · exact htells.failures_eq
  · exact htells.abandoned_eq
  · rw [htells.completed_eq, htells.heartbeats_eq, htells.polls_eq, htells.failures_eq]
    decide

end TimedTasks.Demo
