import TimedTasks.Proofs.Scheduler.Failures
import TimedTasks.Proofs.Scheduler.Observers
import TimedTasks.Proofs.Scheduler.Repose

/-!
# What an observer hears

The error of a body is counted when the body ends, and reported when the run is settled.  So whoever
observes from the beginning has heard, of every task, of all that has been counted against it but
the error of a body whose run has not been settled yet (`Run.heard`).  In a settled state there is
no such run, unless it has been lost: everything that has been counted has been reported, in the
order in which it has been counted.

Nobody learns whether the observer has borne the reports (`Run.comesTo`).
-/

namespace TimedTasks

/-- The error of a body that has ended, before its run is settled. -/
def Stage.owed {α : Type} : Stage α → List TaskError
  | .left error? => error?.toList
  | .inside _ | .rearmed | .refused => []

namespace Scheduler

variable {α : Type} {first before after scheduler : Scheduler α} {action : Action α}
variable {config : Config} {cores : Nat} {past later : List (Scheduler α × Action α)}
variable {task : TaskId}

/-! ## Counted and reported -/

/-- The failures of a task that have been counted and are still to be reported. -/
def owed (scheduler : Scheduler α) (task : TaskId) : List Failure :=
  ((scheduler.phase? task).elim [] Stage.owed).map ((scheduler.account task).failure task)

theorem owed_eq {stage : Stage α} (hphase : scheduler.phase? task = some stage) :
    scheduler.owed task = stage.owed.map ((scheduler.account task).failure task) := by
  rw [owed, hphase]
  rfl

theorem owed_eq_nil (hphase : scheduler.phase? task = none) : scheduler.owed task = [] := by
  rw [owed, hphase]
  rfl

/-- What has been counted against a task has been reported, or is about to be. -/
def Heard (past : List (Scheduler α × Action α)) (task : TaskId) (scheduler : Scheduler α) : Prop :=
  charges past scheduler task = scheduler.agenda.reports task ++ scheduler.owed task

theorem Heard.of_episode (hheard : Heard past task before) (hledger : Ledger past task before)
    (hobserved : before.Observed) (hepisode : Episode before action task after) :
    Heard ((before, action) :: past) task after := by
  unfold Heard at hheard ⊢
  unfold Observed at hobserved
  cases hepisode with
  | begun hends hsettles hbacklog hbefore hafter haccount hreports =>
      rw [charges_of_eq (by rw [haccount]; rfl), hheard, hreports, owed_eq_nil hbefore,
        owed_eq hafter]
      rfl
  | ended hends hsettles hbefore hafter haccount hreports =>
      rw [charges_of_charged haccount, hheard, hreports, owed_eq hbefore, owed_eq hafter, haccount,
        Account.charged_failure]
      simp [Stage.owed]
  | settled hends hsettles hbefore hafter haccount hreports =>
      rw [charges_of_charged haccount, hheard, hreports, owed_eq hbefore, owed_eq_nil hafter,
        if_pos hobserved]
      simp [Stage.owed]
  | quiet hends hsettles hphase haccount hreports =>
      rw [charges_of_eq (Account.counts_eq haccount).2.1, hheard, hreports]
      rcases haccount with hsame | ⟨hblank, -⟩
      · rw [owed, owed, hphase, hsame]
      · -- Nothing has been counted yet, so there is nothing to be reported.
        have hnil := (hledger.eq_nil_of_isBlank hblank).2.1
        rw [hheard] at hnil
        have howed := (List.append_eq_nil_iff.mp hnil).2
        rw [howed, owed, hphase, List.map_eq_nil_iff.mp howed]
        rfl

/-- Whoever observes from the beginning hears of everything that is counted. -/
theorem Run.heard {observer : Observer}
    (hrun : Run config cores (later ++ [(first, .observe observer)]) scheduler) (task : TaskId) :
    Heard (later ++ [(first, .observe observer)]) task scheduler := by
  refine (hrun.induction_from (p := fun past state => state.Observed ∧ Heard past task state)
    (fun after hstep => ?_) fun past before action after hbefore ih hstep => ?_).2
  · obtain ⟨hstart, -⟩ := hrun.at_step
    cases hstart with
    | start hcreated =>
        obtain rfl := new_eq_ok hcreated
        obtain rfl := Option.some.inj hstep
        exact ⟨rfl, rfl⟩
  · obtain ⟨hobserved, hheard⟩ := ih
    exact ⟨hobserved.of_step hbefore.reachable.sound hstep,
      hheard.of_episode (hbefore.ledger task) hobserved (hbefore.reachable.episode hstep task)⟩

/-- In a settled state every run whose body has ended has been settled or lost. -/
theorem Sound.owed_of_settled (hsound : scheduler.Sound) (hsettled : scheduler.isSettled = true)
    (task : TaskId) : scheduler.owed task = [] ∨
      ∃ error, .uncounted task (some error) ∈ scheduler.lost ∧
        scheduler.owed task = [(scheduler.account task).failure task error] := by
  cases hphase : scheduler.phase? task with
  | none => exact Or.inl (owed_eq_nil hphase)
  | some stage =>
      rw [owed_eq hphase]
      rcases mem_phases.mp (hsound.phase?_eq_some_iff.mp hphase) with
        ⟨job, hjob, -, -, hstage⟩ | ⟨error?, hlost, rfl⟩
      · obtain ⟨turn, hinside, -⟩ := hsound.waits_of_settled hsettled hjob
        rw [← hstage, hinside]
        exact Or.inl rfl
      · cases error? with
        | none => exact Or.inl rfl
        | some error => exact Or.inr ⟨error, hlost, rfl⟩

/-! ## The order of failures -/

theorem Ledger.run_of_mem_charges (hledger : Ledger past task scheduler) {failure : Failure}
    (hmem : failure ∈ charges past scheduler task) :
    1 ≤ failure.run ∧ failure.run ≤ (scheduler.account task).runs ∧
      failure.mode = (scheduler.account task).mode := by
  rcases hledger.open_or_givenUp with ⟨hcharges, -⟩ | ⟨earlier, ending, period, hgiven⟩
  · rw [hcharges] at hmem
    obtain ⟨hone, hle, hmode⟩ := run_of_mem_faults hmem
    refine ⟨hone, Nat.le_trans hle ?_, hmode⟩
    rw [hledger.runs_eq]
    exact Nat.le_add_right ..
  · rw [hgiven.charges_eq] at hmem
    rw [hgiven.runs_eq]
    rcases List.mem_append.mp hmem with hold | hnew
    · obtain ⟨hone, hle, hmode⟩ := run_of_mem_faults hold
      exact ⟨hone, Nat.le_succ_of_le hle, hmode⟩
    · obtain ⟨error, -, rfl⟩ := List.mem_map.mp hnew
      rw [Account.failure, hgiven.runs_eq]
      exact ⟨Nat.le_add_left .., Nat.le_refl _, rfl⟩

theorem Ledger.pairwise_charges (hledger : Ledger past task scheduler) :
    (charges past scheduler task).Pairwise fun first second => first.run ≤ second.run := by
  rcases hledger.open_or_givenUp with ⟨hcharges, -⟩ | ⟨earlier, ending, period, hgiven⟩
  · rw [hcharges]
    exact (pairwise_faults ..).imp Nat.le_of_lt
  · rw [hgiven.charges_eq, List.pairwise_append]
    refine ⟨(pairwise_faults ..).imp Nat.le_of_lt, ?_, fun first hfirst second hsecond => ?_⟩
    · rw [List.pairwise_map]
      exact List.pairwise_of_forall fun _ _ => Nat.le_refl _
    · obtain ⟨error, -, rfl⟩ := List.mem_map.mp hsecond
      rw [Account.failure, hgiven.runs_eq]
      exact Nat.le_succ_of_le (run_of_mem_faults hfirst).2.1

/-! ## Nothing goes unreported -/

/-- Every failure of a task has been reported. -/
structure AllReported (past : List (Scheduler α × Action α)) (task : TaskId)
    (scheduler : Scheduler α) (record : Record α) : Prop where
  /-- What has been counted against the task has been reported in the same order. -/
  reports_eq : scheduler.agenda.reports task = charges past scheduler task
  length_eq : (scheduler.agenda.reports task).length = record.failures
  lastError?_eq : (scheduler.agenda.reports task).getLast?.map Failure.error = record.lastError?
  in_order : (scheduler.agenda.reports task).Pairwise fun first second => first.run ≤ second.run
  report : ∀ report ∈ scheduler.agenda.reports task,
    1 ≤ report.run ∧ report.run ≤ record.runs ∧ report.mode = record.mode

/-- Every failure of a task has been reported but the last one, which is the error of a run that has
been lost. -/
structure AllButLost (past : List (Scheduler α × Action α)) (task : TaskId)
    (scheduler : Scheduler α) (record : Record α) (error : TaskError) : Prop where
  unreadable : scheduler.agenda.clock.isReadable = false
  lost : .uncounted task (some error) ∈ scheduler.lost
  charges_eq : charges past scheduler task =
    scheduler.agenda.reports task ++ [record.account.failure task error]
  failures_eq : record.failures = (scheduler.agenda.reports task).length + 1

theorem Ledger.allReported (hledger : Ledger past task scheduler) {record : Record α}
    (hrecord : scheduler.record? task = some record)
    (hreports : scheduler.agenda.reports task = charges past scheduler task) :
    AllReported past task scheduler record := by
  have haccount := account_eq hrecord
  refine ⟨hreports, ?_, ?_, ?_, fun report hreport => ?_⟩
  · rw [hreports, ← hledger.failures_eq, haccount]
    rfl
  · rw [hreports, ← hledger.lastError?_eq, haccount]
    rfl
  · rw [hreports]
    exact hledger.pairwise_charges
  · rw [hreports] at hreport
    have hbounds := hledger.run_of_mem_charges hreport
    rw [haccount] at hbounds
    exact hbounds

/-- In a run with an observer from the beginning, every failure that has been counted against a task
has been reported once the scheduler is settled, in order, with the number of the run and the mode
of the task, unless the clock cannot be read and the last run of the task has been lost.  It does
not matter who observes, and on which reports he panics: with any other observers, whenever they
take over, the same steps can be made and lead to a state that differs in nothing but its observer
and the panics that have been caught. -/
theorem Run.all_failures_reported {observer : Observer}
    (hrun : Run config cores (later ++ [(first, .observe observer)]) scheduler) :
    (scheduler.isSettled = true → ∀ task record, scheduler.record? task = some record →
      AllReported (later ++ [(first, .observe observer)]) task scheduler record ∨
        ∃ error, AllButLost (later ++ [(first, .observe observer)]) task scheduler record error) ∧
    ∀ replacement actions, unobserved actions = unobserved (later.map Prod.snd) →
      ∃ past other, Run config cores past other ∧
        past.map Prod.snd = actions ++ [.observe replacement] ∧
        other = { scheduler with
          agenda := { scheduler.agenda with
            observer? := other.agenda.observer?, caught := other.agenda.caught } } := by
  refine ⟨fun hsettled task record hrecord => ?_, fun replacement actions hactions => ?_⟩
  · have hledger := hrun.ledger task
    have hsound := hrun.reachable.sound
    have hheard := hrun.heard task
    rw [Heard] at hheard
    rcases hsound.owed_of_settled hsettled task with hnone | ⟨error, hlost, howed⟩
    · rw [hnone, List.append_nil] at hheard
      exact Or.inl (hledger.allReported hrecord hheard.symm)
    · rw [howed, account_eq hrecord] at hheard
      refine Or.inr ⟨error, ?_, hlost, hheard, ?_⟩
      · by_contra hreadable
        rw [(hsound.intact (Bool.not_eq_false _ ▸ hreadable)).1] at hlost
        exact List.not_mem_nil hlost
      · have hfailures := hledger.failures_eq
        rw [account_eq hrecord, hheard, List.length_append, List.length_singleton] at hfailures
        exact hfailures
  · obtain ⟨past, other, hother, hpast, hsame⟩ := hrun.comesTo replacement hactions
    exact ⟨past, other, hother, hpast, eq_of_calmed hsame⟩

/-- Both runs of a task fail, and during the second one the task is cancelled.  An observer that has
been replaced in between is told of both failures; so is one that panics each time. -/
theorem all_failures_reported_of_cancelled :
    ∃ (past other : List (Scheduler Unit × Action Unit)) (scheduler next : Scheduler Unit)
      (record : Record Unit), Run {} 1 past scheduler ∧ scheduler.isSettled = true ∧
      scheduler.record? 0 = some record ∧ record.state = .cancelled ∧ record.failures = 2 ∧
      AllReported past 0 scheduler record ∧ Run {} 1 other next ∧
      (other.map Prod.snd).getLast? = some (.observe .panicking) ∧
      next.agenda.reports 0 = scheduler.agenda.reports 0 ∧
      next.agenda.records = scheduler.agenda.records := by
  have hview : (played {} 1
      [.observe .calm,
        .request (.schedule { plainTask (.fixedRate (.ofSeconds 1)) .zero with
          script := fun _ => { ending := (.error "refused" : Ending Unit) } } true),
        .proceed 0, .dispatch, .dispatch, .takeUp 0, .work 0, .work 0, .work 0,
        .observe .panicking, .advance (.ofSeconds 1), .announce, .dispatch, .dispatch, .takeUp 0,
        .request (.cancel 0), .proceed 1, .work 0, .dispatch, .work 0]).map (fun result =>
          ((result.2.isSettled, result.2.agenda.clock.isReadable),
            (result.2.record? 0).map fun record => (record.state, record.failures))) =
      some ((true, true), some (.cancelled, 2)) := by
    decide +kernel
  obtain ⟨⟨past, scheduler⟩, hplayed, hparts⟩ := Option.map_eq_some_iff.mp hview
  simp only [Prod.mk.injEq, Option.map_eq_some_iff] at hparts
  obtain ⟨⟨hsettled, hreadable⟩, record, hrecord, hstate, hfailures⟩ := hparts
  have hrun := Run.of_played hplayed
  obtain ⟨start, -, hreplay⟩ := Option.bind_eq_some_iff.mp hplayed
  obtain ⟨later, rfl⟩ := exists_append_of_replay_cons hreplay
  obtain ⟨hreported, hreplaced⟩ := hrun.all_failures_reported
  obtain ⟨other, next, hother, hactions, hsame⟩ := hreplaced .panicking (later.map Prod.snd) rfl
  have hall := (hreported hsettled 0 record hrecord).resolve_right fun ⟨error, hlost⟩ =>
    Bool.false_ne_true (hlost.unreadable.symm.trans hreadable)
  refine ⟨_, other, scheduler, next, record, hrun, hsettled, hrecord, hstate, hfailures, hall,
    hother, ?_, ?_, ?_⟩
  · rw [hactions, List.getLast?_concat]
  · rw [hsame]
    rfl
  · rw [hsame]

end Scheduler

end TimedTasks
