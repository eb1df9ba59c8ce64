import Mathlib.Tactic.Ring
import TimedTasks.Proofs.Scheduler.Allowance

/-!
# Left to itself, a scheduler settles

A scheduler is left to itself when nobody asks anything of it and the clock stands still; all that
happens then is that callers, dispatcher and workers go on (`Action.IsOwn`).  If the bodies do not
disturb this, it comes to an end.

How long the queue is says nothing about that, since a task that is re-armed goes back into it and
may be due at once.  What goes down is the `burden`, which counts six for each run that has still
to be taken from the queue, and otherwise the toil of all duties: taking a task adds five to the
toil and takes away one such run.

Two moves leave the burden as it is: a producer that finds no room falls asleep again, and so does
the dispatcher when it finds nothing that is due.  Somebody has been awake for that, and there are
not more who may be than the burden and one.  So the `rank`, which puts the burden first and those
who are awake second, goes down with every step (`Reachable.rank_lt_of_step`).
-/

namespace TimedTasks

namespace Scheduler

variable {α : Type} {origin before after scheduler final : Scheduler α} {action : Action α}
variable {config : Config} {cores : Nat} {past later : List (Scheduler α × Action α)}

/-! ## The rank -/

def burden (scheduler : Scheduler α) : Nat :=
  scheduler.weigh Duty.toil + 6 * scheduler.outstanding

def rank (scheduler : Scheduler α) : Nat :=
  scheduler.burden * (scheduler.burden + 2) + scheduler.waking

theorem length_waits_le (calls : List (CallId × Call)) :
    (calls.flatMap fun call => call.2.waits call.1).length ≤
      (((calls.map fun call => Duty.call call.2 : List Duty) : Multiset Duty).map
        Duty.toil).sum := by
  induction calls with
  | nil => exact Nat.le_refl _
  | cons call rest ih =>
      have hcall : (call.2.waits call.1).length ≤ call.2.toil := by
        cases call.2 <;> simp [Call.waits, Call.toil]
      rw [List.flatMap_cons, List.length_append, List.map_cons, ← Multiset.cons_coe,
        Multiset.map_cons, Multiset.sum_cons]
      exact Nat.add_le_add hcall ih

/-- Only the dispatcher and callers that wait for room can be awake. -/
theorem Sound.waking_le (hsound : scheduler.Sound) : scheduler.waking ≤ scheduler.burden + 1 := by
  have hwaits : scheduler.agenda.queue.producers.everyone.length ≤
      (((scheduler.calls.map fun call => Duty.call call.2 : List Duty) : Multiset Duty).map
        Duty.toil).sum := by
    have hlength := List.Perm.length_eq hsound.matched
    rw [List.length_map] at hlength
    exact hlength ▸ length_waits_le scheduler.calls
  have hwoken : scheduler.agenda.queue.producers.woken.length ≤
      scheduler.agenda.queue.producers.everyone.length := by
    rw [Parking.everyone, List.length_append]
    exact Nat.le_add_left _ _
  have htoil : (((scheduler.calls.map fun call => Duty.call call.2 : List Duty) :
      Multiset Duty).map Duty.toil).sum ≤ scheduler.weigh Duty.toil := by
    simp only [weigh, duties, Multiset.map_add, Multiset.sum_add]
    omega
  have hdispatcher : (if scheduler.dispatcher = .seeking ∧
      scheduler.agenda.queue.isAsleep dispatcherCaller = false then 1 else 0) ≤ 1 := by
    split <;> omega
  rw [waking, burden]
  omega

theorem Sound.rank_lt (hsound : after.Sound) (hless : after.burden < before.burden) :
    after.rank < before.rank := by
  have hwaking := hsound.waking_le
  calc after.rank
      ≤ after.burden * (after.burden + 2) + (after.burden + 1) := Nat.add_le_add_left hwaking _
    _ < after.burden * (after.burden + 2) + after.burden + (after.burden + 3) := by omega
    _ = (after.burden + 1) * (after.burden + 1 + 2) := by ring
    _ ≤ before.burden * (before.burden + 2) :=
        Nat.mul_le_mul hless (Nat.add_le_add_right hless 2)
    _ ≤ before.rank := Nat.le_add_right _ _

/-- Where the burden is no greater, the rank goes by those who are awake. -/
theorem rank_le (hburden : after.burden ≤ before.burden) (hwaking : after.waking ≤ before.waking) :
    after.rank ≤ before.rank :=
  Nat.add_le_add (Nat.mul_le_mul hburden (Nat.add_le_add_right hburden 2)) hwaking

theorem rank_lt_of_waking_lt (hburden : after.burden ≤ before.burden)
    (hwaking : after.waking < before.waking) : after.rank < before.rank :=
  Nat.add_lt_add_of_le_of_lt (Nat.mul_le_mul hburden (Nat.add_le_add_right hburden 2)) hwaking

/-- A move lowers the rank, or it is something that a body does on the side. -/
theorem Move.rank_cases (hmove : Move origin action before after) (hsound : before.Sound)
    (hpunctual : before.Punctual) (hcalm : origin.Calm action) (hown : action.IsOwn) :
    after.rank < before.rank ∨ after.rank ≤ before.rank ∧ after.jobs = before.jobs ∧
      ∃ worker, action = .work worker := by
  have hfewer := hmove.outstanding_le hsound hpunctual hcalm
  have hafter := hmove.sound hsound
  obtain ⟨old, new, taken, hexchange, htrades, hhandled⟩ := hmove.exchanges hsound hcalm
  have htoil := htrades.weigh Duty.toil
  -- Five more toil for a task that is taken is less than the six that its run had counted for.
  have hburden : after.weigh Duty.toil ≤ before.weigh Duty.toil + 6 * taken →
      after.burden ≤ before.burden := by
    intro hle
    unfold burden
    omega
  have hlower : after.weigh Duty.toil < before.weigh Duty.toil + 6 * taken →
      after.burden < before.burden := by
    intro hlt
    unfold burden
    omega
  cases hexchange with
  | lowered _ hless => exact Or.inl (hafter.rank_lt (hlower (by omega)))
  | taken =>
      simp only [Multiset.map_add, Multiset.sum_add, Multiset.map_singleton,
        Multiset.sum_singleton, Duty.toil, Dispatcher.toil] at htoil
      exact Or.inl (hafter.rank_lt (hlower (by omega)))
  | rearmed =>
      simp only [Multiset.map_singleton, Multiset.sum_singleton, Duty.toil] at htoil
      exact Or.inl (hafter.rank_lt (hlower (by omega)))
  | rested hwaking =>
      exact Or.inl (rank_lt_of_waking_lt (hburden (by omega)) hwaking)
  | aside hside =>
      obtain ⟨hbody, hjobs, hwaking⟩ := hside hown
      exact Or.inr ⟨rank_le (hburden (by omega)) hwaking, hjobs, hbody⟩
  | asked _ hasked =>
      obtain ⟨asked, rfl⟩ := hasked
      exact hown.elim

/-! ## Steps -/

/-- A worker that goes on with its job leaves it in another stage, or lets go of it. -/
theorem not_mem_jobs_of_work {job : Job α} (hwork : before.work job = some after) :
    job ∉ after.jobs := by
  have hgoOn : ∀ {scheduler : Scheduler α} {stage : Stage α}, stage ≠ job.stage →
      job ∉ (scheduler.goOnWith job stage).jobs := by
    intro scheduler stage hne hmem
    obtain ⟨other, -, heq⟩ := List.mem_map.mp hmem
    by_cases hworker : other.worker = job.worker
    · rw [if_pos hworker] at heq
      exact hne (congrArg Job.stage heq)
    · rw [if_neg hworker] at heq
      exact hworker (congrArg Job.worker heq)
  have hrelease : ∀ {scheduler : Scheduler α}, job ∉ (scheduler.release job.worker).jobs := by
    intro scheduler hmem
    simpa using (List.mem_filter.mp hmem).2
  unfold work at hwork
  split at hwork
  · rename_i hstage
    obtain rfl := Option.some.inj hwork
    exact hgoOn (by simp [hstage])
  · rename_i turn hstage
    split at hwork
    · obtain rfl := Option.some.inj hwork
      exact hgoOn (by simp [hstage])
    · simp at hwork
  · rename_i error? hstage
    split at hwork
    · obtain rfl := Option.some.inj hwork
      exact hrelease
    · split at hwork
      · obtain rfl := Option.some.inj hwork
        exact hgoOn (by simp [hstage])
      · obtain rfl := Option.some.inj hwork
        exact hrelease
  · rename_i hstage
    split at hwork
    · obtain rfl := Option.some.inj hwork
      exact hrelease
    · obtain rfl := Option.some.inj hwork
      exact hgoOn (by simp [hstage])
  · obtain rfl := Option.some.inj hwork
    exact hrelease

theorem Reachable.rank_lt_of_step (hreachable : Reachable config cores before)
    (htame : before.Tame) (hown : action.IsOwn) (hstep : before.step action = some after) :
    after.rank < before.rank := by
  have hsound := hreachable.sound
  have hcalm := htame.calm hown.not_disturbs
  cases action with
  | work worker =>
      -- What a body does on the side comes before the move in which it ends.
      suffices hall : after.Punctual ∧ (after.rank < before.rank ∨
          after.rank ≤ before.rank ∧ after.jobs = before.jobs) by
        refine hall.2.resolve_right fun hsame => ?_
        simp only [Scheduler.step] at hstep
        split at hstep
        · rename_i job hfind
          exact not_mem_jobs_of_work hstep (hsame.2 ▸ List.mem_of_find?_eq_some hfind)
        · simp at hstep
      refine of_step (p := fun state => state.Punctual ∧ (state.rank < before.rank ∨
          state.rank ≤ before.rank ∧ state.jobs = before.jobs)) hsound hstep
        ⟨hreachable.punctual, Or.inr ⟨Nat.le_refl _, rfl⟩⟩ fun first second hfirst hkept hmove => ?_
      obtain ⟨hpunctual, hearlier⟩ := hkept
      refine ⟨hmove.punctual hfirst hpunctual, ?_⟩
      rcases hmove.rank_cases hfirst hpunctual hcalm hown with hless | ⟨hle, hjobs, -⟩
      · refine Or.inl (Nat.lt_of_lt_of_le hless ?_)
        exact hearlier.elim Nat.le_of_lt And.left
      · rcases hearlier with hearlier | ⟨hearlier, hsame⟩
        · exact Or.inl (Nat.lt_of_le_of_lt hle hearlier)
        · exact Or.inr ⟨Nat.le_trans hle hearlier, hjobs.trans hsame⟩
  | _ =>
      have hmove := move_of_step (by simp) hstep
      refine (hmove.rank_cases hsound hreachable.punctual hcalm hown).resolve_right ?_
      rintro ⟨-, -, worker, hwork⟩
      exact absurd hwork (by simp)

/-! ## Settling -/

theorem isOwn_of_candidate (hcandidate : action ∈ scheduler.candidates) : action.IsOwn := by
  rcases List.mem_append.mp hcandidate with hfirst | hjob
  · rcases List.mem_append.mp hfirst with hcall | hlast
    · rcases List.mem_cons.mp hcall with rfl | hcall
      · trivial
      · obtain ⟨call, -, rfl⟩ := List.mem_map.mp hcall
        trivial
    · rcases List.mem_pair.mp hlast with rfl | rfl <;> trivial
  · obtain ⟨job, -, rfl⟩ := List.mem_map.mp hjob
    trivial

theorem step_eq_none_of_own (hsettled : scheduler.isSettled = true) (hown : action.IsOwn) :
    scheduler.step action = none := by
  cases action with
  | announce => exact step_eq_none_of_settled hsettled (List.mem_cons_self ..)
  | dispatch => exact step_eq_none_of_settled hsettled (by simp [candidates])
  | proceed call =>
      cases hlookup : scheduler.calls.lookup call with
      | none => simp only [step, hlookup]
      | some stage =>
          refine step_eq_none_of_settled hsettled ?_
          have hcall := List.mem_map_of_mem (f := fun call => Action.proceed (α := α) call.1)
            (mem_calls_of_lookup hlookup)
          simp [candidates, hcall]
  | takeUp position =>
      have hfirst : scheduler.takeUp 0 = none :=
        step_eq_none_of_settled hsettled (by simp [candidates] : .takeUp 0 ∈ scheduler.candidates)
      show scheduler.takeUp position = none
      cases hbacklog : scheduler.backlog with
      | nil => simp [takeUp, hbacklog]
      | cons task rest =>
          cases hfree : scheduler.freeWorkers with
          | nil => simp [takeUp, hfree]
          | cons worker others =>
              cases hnow : scheduler.agenda.now <;> simp [takeUp, hbacklog, hfree, hnow] at hfirst
  | work worker =>
      cases hfind : scheduler.jobs.find? fun job => job.worker == worker with
      | none => simp only [step, hfind]
      | some job =>
          obtain rfl : job.worker = worker := by simpa using List.find?_some hfind
          refine step_eq_none_of_settled hsettled (List.mem_append_right _ ?_)
          exact List.mem_map_of_mem (List.mem_of_find?_eq_some hfind)
  | request | advance | expire | release | observe => exact hown.elim

/-- Settling is a run of steps that are taken without being asked, as many as were allowed or
until nobody can go on. -/
theorem Run.exists_settling (hrun : Run config cores past scheduler) (fuel : Nat) :
    ∃ later, Run config cores (later ++ past) (settleWithin fuel scheduler) ∧
      (∀ step ∈ later, step.2.IsOwn) ∧
      ((settleWithin fuel scheduler).isSettled = true ∨ later.length = fuel) := by
  -- The past grows by each step that is made, so it has to vary.
  induction fuel generalizing past scheduler with
  | zero => exact ⟨[], hrun, by simp, Or.inr rfl⟩
  | succ fuel ih =>
      rw [settleWithin]
      cases hnext : scheduler.next? with
      | none => exact ⟨[], hrun, by simp, Or.inl (by rw [isSettled, hnext]; rfl)⟩
      | some after =>
          obtain ⟨action, hcandidate, hstep⟩ := List.exists_of_findSome?_eq_some hnext
          obtain ⟨later, hlater, hown, hend⟩ := ih (hrun.step action hstep)
          refine ⟨later ++ [(scheduler, action)], ?_, fun step hmem => ?_, ?_⟩
          · rw [List.append_assoc]
            exact hlater
          · rcases List.mem_append.mp hmem with hearlier | hlast
            · exact hown step hearlier
            · rw [List.mem_singleton.mp hlast]
              exact isOwn_of_candidate hcandidate
          · rw [List.length_append, List.length_singleton]
            exact hend.imp_right (congrArg (· + 1))

/-- No run of steps that are taken without being asked is longer than the rank. -/
theorem Run.length_add_rank_le (hrun : Run config cores past scheduler) (htame : scheduler.Tame)
    (hlater : Run config cores (later ++ past) final) (hown : ∀ step ∈ later, step.2.IsOwn) :
    final.Tame ∧ later.length + final.rank ≤ scheduler.rank := by
  refine hrun.induction_later (p := fun later state => (∀ step ∈ later, step.2.IsOwn) →
      state.Tame ∧ later.length + state.rank ≤ scheduler.rank) hlater
    (fun _ => ⟨htame, Nat.le_of_eq (Nat.zero_add _)⟩)
    (fun later first action second hrun ih hstep hown => ?_) hown
  obtain ⟨hlast, hearlier⟩ := List.forall_mem_cons.mp hown
  obtain ⟨htame, hle⟩ := ih hearlier
  have hless := hrun.reachable.rank_lt_of_step htame hlast hstep
  refine ⟨htame.of_step hrun.reachable.sound hlast.not_disturbs hstep, ?_⟩
  rw [List.length_cons]
  omega

/-! ## How many tasks are taken -/

/-- How many tasks can still be taken from the queue while nothing is in flight: for each task
that is queued, or that a caller is bringing, all runs that have come due; and for one in the
dispatcher's hand, which has been taken, those that come after. -/
def popsDue (scheduler : Scheduler α) : Nat :=
  ((scheduler.tasksAt .queued ++ scheduler.tasksAt .drafted).map scheduler.allowance).sum +
    (scheduler.dispatcher.hand.map fun task => scheduler.allowance task - 1).sum

theorem prospects_calls (calls : List (CallId × Call)) :
    (((calls.map fun call => Duty.call call.2 : List Duty) : Multiset Duty).map
      Duty.prospects).sum =
        ((calls.flatMap fun call => call.2.drafts).map Prospect.ahead : List Prospect) := by
  induction calls with
  | nil => rfl
  | cons call rest ih =>
      rw [List.map_cons, ← Multiset.cons_coe, Multiset.map_cons, Multiset.sum_cons, ih,
        List.flatMap_cons, List.map_append, ← Multiset.coe_add]
      rfl

theorem prospects_queued (tasks : List TaskId) :
    (((tasks.map Duty.queued : List Duty) : Multiset Duty).map Duty.prospects).sum =
      (tasks.map Prospect.ahead : List Prospect) := by
  induction tasks with
  | nil => rfl
  | cons task rest ih =>
      rw [List.map_cons, ← Multiset.cons_coe, Multiset.map_cons, Multiset.sum_cons, ih]
      rfl

theorem outstanding_of_idle (hidle : scheduler.active = 0) :
    scheduler.outstanding = scheduler.popsDue := by
  obtain ⟨hbacklog, hjobs⟩ := Nat.add_eq_zero_iff.mp hidle
  have hprospects : scheduler.prospects =
      ((scheduler.tasksAt .queued ++ scheduler.tasksAt .drafted).map Prospect.ahead :
        List Prospect) + (scheduler.dispatcher.hand.map Prospect.taken : List Prospect) := by
    rw [prospects, weigh, duties, List.length_eq_zero_iff.mp hbacklog,
      List.length_eq_zero_iff.mp hjobs, List.map_append, ← Multiset.coe_add, add_comm
        (List.map Prospect.ahead (scheduler.tasksAt .queued) : Multiset Prospect)]
    simp only [Multiset.map_add, Multiset.sum_add, prospects_calls, prospects_queued,
      Multiset.map_replicate, Multiset.sum_replicate, Multiset.map_singleton,
      Multiset.sum_singleton, Duty.prospects, nsmul_zero, add_zero, List.map_nil,
      Multiset.coe_nil]
    rfl
  rw [outstanding, hprospects, Multiset.map_add, Multiset.sum_add]
  simp only [Multiset.map_coe, Multiset.sum_coe, List.map_map]
  rfl

/-- While nothing is in flight, and the bodies that may still be run wait at no gate, leave the
clock alone and submit nothing, the dispatcher takes no more tasks than have come due, unless the
clock is moved or something is scheduled; and callers, dispatcher and workers come to an end after
finitely many steps, in a state in which none of them can go on and nothing is in flight. -/
theorem Run.settles (hrun : Run config cores past scheduler) (hidle : scheduler.active = 0)
    (htame : scheduler.Tame) :
    (∀ later final, Run config cores (later ++ past) final →
        (∀ step ∈ later, ¬ step.2.Disturbs) → timesPopped later ≤ scheduler.popsDue) ∧
      ∃ bound,
        (∀ later final, Run config cores (later ++ past) final →
          (∀ step ∈ later, step.2.IsOwn) → later.length ≤ bound) ∧
        (∃ later, Run config cores (later ++ past) (settleWithin bound scheduler) ∧
          ∀ step ∈ later, step.2.IsOwn) ∧
        (∀ action, action.IsOwn → (settleWithin bound scheduler).step action = none) ∧
        (0 < cores → (settleWithin bound scheduler).active = 0) := by
  constructor
  · intro later final hlater hquiet
    rw [← outstanding_of_idle hidle]
    exact hrun.timesPopped_le htame hlater hquiet
  · -- With one step more than the rank allows, settling stops because nobody can go on.
    obtain ⟨settling, hsettling, hown, hend⟩ := hrun.exists_settling (scheduler.rank + 1)
    obtain ⟨hlast, hlength⟩ := hrun.length_add_rank_le htame hsettling hown
    have hsettled := hend.resolve_right (by omega)
    refine ⟨scheduler.rank + 1, fun later final hlater hown => ?_, ⟨settling, hsettling, hown⟩,
      fun action => step_eq_none_of_own hsettled, fun hcores => ?_⟩
    · have hle := (hrun.length_add_rank_le htame hlater hown).2
      omega
    · have hjobs := jobs_of_settled (fun job hjob turn hstage => by
        rw [passesGate, (hlast.inside job hjob turn hstage).gate_eq]) hsettled
      have hworkers := hsettling.reachable.workers_pos hcores
      rw [active, backlog_of_settled hsettled hjobs hworkers, hjobs]
      rfl

/-- A task with a fixed rate that is three periods late and a single run for which a caller waits
at the full queue: four tasks are taken, and not more. -/
theorem settles_with_parked_producer :
    ∃ (past : List (Scheduler Unit × Action Unit)) (scheduler : Scheduler Unit),
      Run { capacity := 1 } 1 past scheduler ∧ scheduler.active = 0 ∧
        scheduler.tasksAt .queued = [0] ∧ scheduler.tasksAt .drafted = [1] ∧
        (∀ later final, Run { capacity := 1 } 1 (later ++ past) final →
          (∀ step ∈ later, ¬ step.2.Disturbs) → timesPopped later ≤ 4) ∧
        (∃ later final, Run { capacity := 1 } 1 (later ++ past) final ∧
          (∀ step ∈ later, step.2.IsOwn) ∧ timesPopped later = 4) ∧
        ∃ bound, (settleWithin bound scheduler).active = 0 ∧
          ∀ action, action.IsOwn → (settleWithin bound scheduler).step action = none := by
  have hview : (played { capacity := 1 } 1
      [.request (.schedule (plainTask (.fixedRate (.ofSeconds 1)) (.ofSeconds 1)) true),
        .proceed 0, .request (.schedule (plainTask .oneShot (.ofSeconds 1)) true), .proceed 1,
        .advance ⟨3500000000⟩]).map
      (fun result => ((result.2.tasksAt .queued, result.2.tasksAt .drafted, result.2.active),
        result.2.popsDue, (result.2.handled, (settleWithin 60 result.2).handled))) =
      some (([0], [1], 0), 4, (0, 4)) := by
    decide +kernel
  obtain ⟨⟨past, scheduler⟩, hplayed, hparts⟩ := Option.map_eq_some_iff.mp hview
  simp only [Prod.mk.injEq] at hparts
  obtain ⟨⟨hqueued, hdrafted, hidle⟩, hdue, hbefore, hafter⟩ := hparts
  have hrun := Run.of_played hplayed
  have htame : scheduler.Tame := by
    refine hrun.tame fun step hmem now submission hsubmits run => ?_
    obtain ⟨first, -, hreplay⟩ := Option.bind_eq_some_iff.mp hplayed
    have haction := (action_mem_of_replay hreplay hmem).resolve_left List.not_mem_nil
    generalize step.2 = action at hsubmits haction
    simp only [List.mem_cons, List.not_mem_nil, or_false] at haction
    rcases haction with rfl | rfl | rfl | rfl | rfl
    · obtain ⟨rfl, -⟩ := hsubmits
      exact ⟨rfl, rfl, rfl⟩
    · exact hsubmits.elim
    · obtain ⟨rfl, -⟩ := hsubmits
      exact ⟨rfl, rfl, rfl⟩
    · exact hsubmits.elim
    · exact hsubmits.elim
  obtain ⟨hpops, bound, -, -, hnone, hover⟩ := hrun.settles hidle htame
  obtain ⟨later, hlater, hown, -⟩ := hrun.exists_settling 60
  refine ⟨past, scheduler, hrun, hidle, hqueued, hdrafted, hdue ▸ hpops, ?_, bound,
    hover Nat.one_pos, hnone⟩
  refine ⟨later, _, hlater, hown, ?_⟩
  have hall := hlater.timesPopped_eq
  have hpast := hrun.timesPopped_eq
  rw [hafter, timesPopped, List.countP_append] at hall
  rw [hbefore, timesPopped] at hpast
  rw [timesPopped]
  omega

end Scheduler

end TimedTasks
