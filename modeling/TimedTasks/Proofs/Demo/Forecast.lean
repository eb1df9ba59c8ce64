import TimedTasks.Proofs.Demo.Plan

/-!
# What each task has come to, as the plan has it

`Plan.stand` says of each task what it has come to at a quiet moment, `elapsed` after the burst was
queued:

```text
0      answer      over after one run
1      heartbeat   one run, and one for each period in `elapsed`
2      poller      as many runs as the walk has counted
3 ...  burst       over after one run, if 50 ms have passed
```

Whatever a task may be owed after a move of the clock, it gets; `Plan.lapse_stand` says that this
takes it from what it has come to at one quiet moment to what it has come to at the next.

At the end the heartbeat is cancelled (`Plan.dusk`), the shutdown sweeps out what it does not wait
for (`Plan.swept`), and what is left has an hour to run (`Plan.night`).
-/

namespace TimedTasks.Demo

variable {plan : Plan} {elapsed move : Nat} {task : TaskId}

/-! ## From one quiet moment to the next -/

/-- What a task has come to at a quiet moment `elapsed` after the burst was queued, when the walk
has come to `polling`. -/
def Plan.stand (plan : Plan) (elapsed : Nat) (polling : Polling) : TaskId → Stand
  | 0 => ⟨true, 1, answerDelay.nanos⟩
  | 1 =>
    let beats := 1 + elapsed / plan.period.nanos
    ⟨false, beats, answerDelay.nanos + beats * plan.period.nanos⟩
  | 2 => ⟨false, polling.polls, answerDelay.nanos + polling.due⟩
  | _ + 3 =>
    let waits : Bool := elapsed < (Span.ofMillis 50).nanos
    ⟨!waits, if waits then 0 else 1, answerDelay.nanos + (Span.ofMillis 50).nanos⟩

/-- What a task has come to when it has just been accepted. -/
def Plan.fresh (plan : Plan) (now : Nat) (task : TaskId) : Stand :=
  ⟨false, 0, now + (plan.submission task).delay.nanos⟩

/-- A heartbeat that has not missed a period keeps up with the clock. -/
theorem lapse_heartbeat {period start beats : Nat} (hperiod : 0 < period)
    (hbeats : beats ≤ 1 + elapsed / period) :
    (⟨false, beats, start + beats * period⟩ : Stand).lapse (.fixedRate ⟨period⟩)
        ⟨start + elapsed⟩ =
      ⟨false, 1 + elapsed / period, start + (1 + elapsed / period) * period⟩ := by
  have hbegun : (elapsed / period) * period ≤ elapsed := Nat.div_mul_le_self ..
  have hnext : elapsed < (1 + elapsed / period) * period := by
    rw [Nat.add_comm, ← Nat.div_lt_iff_lt_mul hperiod]
    exact Nat.lt_succ_self _
  generalize elapsed / period = begun at *
  obtain ⟨count, hcount⟩ := Nat.exists_eq_add_of_le hbeats
  have hahead : runsDue ⟨start + beats * period⟩ ⟨period⟩ ⟨start + elapsed⟩ = count := by
    apply Nat.le_antisymm
    · refine runsDue_le hperiod ?_
      show start + elapsed < start + beats * period + count * period
      rw [Nat.add_assoc, ← Nat.add_mul, ← hcount]
      exact Nat.add_lt_add_left hnext start
    · refine le_runsDue hperiod fun hpositive => ?_
      show start + beats * period + (count - 1) * period ≤ start + elapsed
      have hlast : beats + (count - 1) = begun := by omega
      rw [Nat.add_assoc, ← Nat.add_mul, hlast]
      exact Nat.add_le_add_left hbegun start
  simp only [Stand.lapse, Stand.ahead, Schedule.runsBy, hahead, Schedule.nextDue]
  rw [hcount, Nat.add_assoc, ← Nat.add_mul]
  rfl

/-- At a quiet moment a poll that is due is made. -/
theorem lapse_poller {period start now : Nat} (polling : Polling) :
    (⟨false, polling.polls, start + polling.due⟩ : Stand).lapse (.fixedDelay ⟨period⟩)
        ⟨start + now⟩ =
      ⟨false, (polling.look period now).polls, start + (polling.look period now).due⟩ := by
  rw [Polling.look]
  split
  · rename_i hdue
    have hcome : (⟨start + polling.due⟩ : Moment) ≤ ⟨start + now⟩ := Nat.add_le_add_left hdue start
    simp [Stand.lapse, Stand.ahead, Schedule.runsBy, Schedule.nextDue, Schedule.isPeriodic,
      Schedule.mode, TaskMode.isPeriodic, hcome, Nat.add_assoc]
  · rename_i hearly
    exact Stand.lapse_of_early _ fun _ => Nat.add_lt_add_left (Nat.not_le.mp hearly) start

theorem lapse_once {due now : Nat} (hdue : due ≤ now) :
    (⟨false, 0, due⟩ : Stand).lapse .oneShot ⟨now⟩ = ⟨true, 1, due⟩ := by
  have hcome : (⟨due⟩ : Moment) ≤ ⟨now⟩ := hdue
  simp [Stand.lapse, Stand.ahead, Schedule.runsBy, Schedule.nextDue, Schedule.isPeriodic,
    Schedule.mode, TaskMode.isPeriodic, hcome]

/-- The first quiet moment is the one at which the burst is queued. -/
def Plan.firstPolling (plan : Plan) : Polling :=
  Polling.look plan.period.nanos ⟨plan.period.nanos / 2, 0⟩ 0

theorem Plan.firstPolling_due_le (plan : Plan) : plan.firstPolling.due ≤ plan.polling.due :=
  Polling.due_le_walk ..

/-- Representable times are due times of the tasks that repeat. -/
theorem Plan.Representable.due_lt (htimes : plan.Representable) {polling : Polling}
    (helapsed : elapsed ≤ plan.total) (hpolling : polling.due ≤ plan.polling.due)
    (hperiodic : (plan.submission task).schedule.isPeriodic = true) :
    (plan.stand elapsed polling task).due < Moment.horizon := by
  cases task using task_cases with
  | answer | burst index => exact absurd hperiodic Bool.false_ne_true
  | heartbeat =>
      have hbeats : 1 + elapsed / plan.period.nanos ≤ 1 + plan.total / plan.period.nanos :=
        Nat.add_le_add_left (Nat.div_le_div_right helapsed) 1
      calc answerDelay.nanos + (1 + elapsed / plan.period.nanos) * plan.period.nanos
          ≤ answerDelay.nanos + (1 + plan.total / plan.period.nanos) * plan.period.nanos :=
            Nat.add_le_add_left (Nat.mul_le_mul_right _ hbeats) _
        _ < Moment.horizon := htimes.heartbeat
  | poller =>
      calc answerDelay.nanos + polling.due
          ≤ answerDelay.nanos + plan.polling.due := Nat.add_le_add_left hpolling _
        _ < Moment.horizon := htimes.polls

/-- The first two due times of all tasks that are accepted when the answer is there. -/
theorem Plan.Representable.first (htimes : plan.Representable) (hnext : 0 < task) :
    answerDelay.nanos + (plan.submission task).delay.nanos < Moment.horizon ∧
      ∀ period, (plan.submission task).schedule.period? = some period →
        answerDelay.nanos + (plan.submission task).delay.nanos + period.nanos <
          Moment.horizon := by
  cases task using task_cases with
  | answer => exact absurd hnext (Nat.lt_irrefl 0)
  | heartbeat =>
      have hbeat : answerDelay.nanos + plan.period.nanos < Moment.horizon :=
        calc answerDelay.nanos + plan.period.nanos
            ≤ answerDelay.nanos + (1 + plan.total / plan.period.nanos) * plan.period.nanos :=
              Nat.add_le_add_left (Nat.le_mul_of_pos_left _ (Nat.add_pos_left Nat.one_pos _)) _
          _ < Moment.horizon := htimes.heartbeat
      have hdelay : (plan.submission 1).delay.nanos = 0 := rfl
      rw [hdelay, Nat.add_zero]
      refine ⟨Nat.lt_of_le_of_lt (Nat.le_add_right _ _) hbeat, ?_⟩
      rintro period ⟨⟩
      exact hbeat
  | poller =>
      refine ⟨Nat.lt_of_le_of_lt (Nat.le_add_right _ _) htimes.firstPolls, ?_⟩
      rintro period ⟨⟩
      exact htimes.firstPolls
  | burst index =>
      refine ⟨?_, ?_⟩
      · show answerDelay.nanos + (Span.ofMillis 50).nanos < Moment.horizon
        decide
      · rintro period ⟨⟩

theorem Plan.lapse_stand (hperiod : 0 < plan.period.nanos) (polling : Polling) (task : TaskId) :
    (plan.stand elapsed polling task).lapse (plan.submission task).schedule
        ⟨answerDelay.nanos + (elapsed + move)⟩ =
      plan.stand (elapsed + move) (polling.look plan.period.nanos (elapsed + move)) task := by
  cases task using task_cases with
  | answer => exact Stand.lapse_of_over _ _ rfl
  | heartbeat =>
      exact lapse_heartbeat hperiod
        (Nat.add_le_add_left (Nat.div_le_div_right (Nat.le_add_right _ _)) 1)
  | poller => exact lapse_poller polling
  | burst index =>
      by_cases hlater : elapsed + move < (Span.ofMillis 50).nanos
      · have hearlier : elapsed < (Span.ofMillis 50).nanos := by omega
        simp only [stand, hearlier, hlater]
        exact Stand.lapse_of_early _ fun _ => Nat.add_lt_add_left hlater _
      · by_cases hearlier : elapsed < (Span.ofMillis 50).nanos
        · simp only [stand, hearlier, hlater]
          exact lapse_once (by omega)
        · simp only [stand, hearlier, hlater]
          exact Stand.lapse_of_over _ _ rfl

theorem Plan.lapse_fresh (hperiod : 0 < plan.period.nanos) (hnext : 0 < task) :
    (plan.fresh answerDelay.nanos task).lapse (plan.submission task).schedule
        ⟨answerDelay.nanos⟩ =
      plan.stand 0 (Polling.look plan.period.nanos ⟨plan.period.nanos / 2, 0⟩ 0) task := by
  cases task using task_cases with
  | answer => exact absurd hnext (Nat.lt_irrefl 0)
  | heartbeat =>
      have hlapse : (⟨false, 0, answerDelay.nanos + 0 * plan.period.nanos⟩ : Stand).lapse
          (.fixedRate plan.period) ⟨answerDelay.nanos + 0⟩ = _ :=
        lapse_heartbeat hperiod (Nat.zero_le _)
      rwa [Nat.zero_mul] at hlapse
  | poller =>
      have hlapse : (⟨false, 0, answerDelay.nanos + plan.period.nanos / 2⟩ : Stand).lapse
          (.fixedDelay plan.period) ⟨answerDelay.nanos + 0⟩ = _ :=
        lapse_poller ⟨plan.period.nanos / 2, 0⟩
      exact hlapse
  | burst index =>
      refine Stand.lapse_of_early _ fun _ => ?_
      exact Nat.lt_add_of_pos_right (by decide : 0 < (Span.ofMillis 50).nanos)

/-! ## The end -/

/-- How often each task runs. -/
def Plan.runs (plan : Plan) : TaskId → Nat
  | 0 => 1
  | 1 => 1 + plan.total / plan.period.nanos
  | 2 => plan.polling.polls
  | _ + 3 => if plan.abandonsBurst then 0 else 1

/-- What the tasks come to before the end: the heartbeat has been cancelled. -/
def Plan.dusk (plan : Plan) (task : TaskId) : Stand :=
  (plan.stand plan.total plan.polling task).cancelIf (decide (task ∈ [1]))

/-- Whether a task is swept out of the queue in the end. -/
def Plan.IsSwept (plan : Plan) (task : TaskId) : Prop :=
  (plan.dusk task).isOver = false ∧
    (plan.drain = true → (plan.submission task).schedule.isPeriodic = true)

theorem Plan.dusk_burst (plan : Plan) (index : Nat) :
    plan.dusk (index + 3) = plan.stand plan.total plan.polling (index + 3) := by
  simp [dusk]

/-- The burst is swept out if it is still waiting, and need not be drained. -/
theorem Plan.isSwept_burst (plan : Plan) (index : Nat) :
    plan.IsSwept (index + 3) ↔ plan.abandonsBurst = true := by
  simp [IsSwept, dusk_burst, stand, abandonsBurst, submission, burstTask, Schedule.isPeriodic,
    Schedule.mode, TaskMode.isPeriodic, and_comm]

/-- The tasks that are swept out, in order. -/
def Plan.swept (plan : Plan) : List TaskId :=
  2 :: if plan.abandonsBurst then (List.range plan.burst).map (· + 3) else []

theorem Plan.nodup_swept (plan : Plan) : plan.swept.Nodup := by
  rw [swept]
  split
  · refine List.nodup_cons.mpr ⟨by simp, ?_⟩
    exact List.nodup_range.map fun first second hsame => Nat.add_right_cancel hsame
  · exact List.nodup_singleton 2

theorem Plan.mem_swept (plan : Plan) (task : TaskId) :
    task ∈ plan.swept ↔ task < plan.burst + 3 ∧ plan.IsSwept task := by
  cases task using task_cases with
  | answer | heartbeat => simp [swept, IsSwept, dusk, stand]
  | poller =>
      have hleaves : plan.IsSwept 2 := ⟨rfl, fun _ => rfl⟩
      simp [swept, hleaves]
  | burst index => simp [isSwept_burst, swept, and_comm]

theorem Plan.length_swept (plan : Plan) :
    plan.swept.length = if plan.abandonsBurst then 1 + plan.burst else 1 := by
  rw [swept, List.length_cons]
  split
  · rw [List.length_map, List.length_range, Nat.add_comm]
  · rfl

/-- What the tasks come to in the end. -/
def Plan.night (plan : Plan) (task : TaskId) : Stand :=
  ⟨true, plan.runs task, (plan.dusk task).due⟩

/-- Whatever is not swept out has an hour to run. -/
theorem Plan.lapse_dusk (plan : Plan) (task : TaskId) {swept : Bool}
    (hswept : swept = true ↔ plan.IsSwept task) :
    ((plan.dusk task).cancelIf swept).lapse (plan.submission task).schedule
        ⟨answerDelay.nanos + plan.total + lastAdvance.nanos⟩ = plan.night task := by
  have hover : (plan.dusk task).isOver = true ∨ swept = true →
      (plan.dusk task).runs = plan.runs task →
      ((plan.dusk task).cancelIf swept).lapse (plan.submission task).schedule
        ⟨answerDelay.nanos + plan.total + lastAdvance.nanos⟩ = plan.night task := by
    intro hover hruns
    have hover := Bool.or_eq_true_iff.mpr hover
    rw [Stand.lapse_of_over _ _ hover, Stand.cancelIf, hover, night, ← hruns]
  cases task using task_cases with
  | answer => exact hover (Or.inl rfl) rfl
  | heartbeat => exact hover (Or.inl rfl) rfl
  | poller => exact hover (Or.inr (hswept.mpr ⟨rfl, fun _ => rfl⟩)) rfl
  | burst index =>
      have hdusk := plan.dusk_burst index
      rw [isSwept_burst] at hswept
      by_cases hwaits : plan.total < (Span.ofMillis 50).nanos
      · cases hdrain : plan.drain with
        | true =>
            have hstays : swept = false := by
              simpa [abandonsBurst, hdrain] using hswept
            have hhour : (Span.ofMillis 50).nanos ≤ plan.total + lastAdvance.nanos :=
              Nat.le_trans (by decide) (Nat.le_add_left lastAdvance.nanos plan.total)
            rw [hstays, Stand.cancelIf_false, Nat.add_assoc]
            simp only [night, runs, hdusk, stand, abandonsBurst, hdrain, hwaits]
            exact lapse_once (Nat.add_le_add_left hhour _)
        | false =>
            refine hover (Or.inr (hswept.mpr ?_)) ?_
            · simp [abandonsBurst, hdrain, hwaits]
            · simp [runs, hdusk, stand, abandonsBurst, hdrain, hwaits]
      · refine hover (Or.inl ?_) ?_
        · simp [hdusk, stand, hwaits]
        · simp [runs, hdusk, stand, abandonsBurst, hwaits]

theorem Plan.sum_runs (plan : Plan) :
    ((List.range (plan.burst + 3)).map plan.runs).sum =
      1 + (1 + plan.total / plan.period.nanos) + plan.polling.polls +
        if plan.abandonsBurst then 0 else plan.burst := by
  rw [Nat.add_comm plan.burst, List.range_add, List.map_append, List.sum_append, List.map_map]
  have hburst : plan.runs ∘ (3 + ·) = fun _ => if plan.abandonsBurst then 0 else 1 := by
    funext index
    rw [Function.comp_apply, Nat.add_comm]
    rfl
  rw [hburst, List.map_const', List.sum_replicate, List.length_range]
  have hfirst : ((List.range 3).map plan.runs).sum =
      1 + (1 + plan.total / plan.period.nanos) + plan.polling.polls := by
    simp [List.range_succ, runs, Nat.add_assoc]
  rw [hfirst]
  split <;> simp

end TimedTasks.Demo
