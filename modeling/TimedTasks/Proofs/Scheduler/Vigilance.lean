import TimedTasks.Proofs.Queue.Vigil
import TimedTasks.Proofs.Scheduler.Punctuality

/-!
# The dispatcher does not oversleep

The dispatcher is the one taker of a scheduler's queue, so it sleeps only for a good reason, and
its timer has not run out unless a move of the clock is still to be announced
(`Vigilant`).  A scheduler that is settled has announced all moves and its dispatcher has
nothing to do: either it sleeps, and then nothing is due, or it has left off, and then nothing
is queued.  The exception is a dispatcher that has panicked, as it could not read the clock.
-/

namespace TimedTasks

namespace Scheduler

variable {α : Type} {origin before after scheduler : Scheduler α} {action : Action α}
variable {config : Config} {cores : Nat}

/-- If all moves of the clock have been announced, no timer of the dispatcher has run out. -/
def Vigilant (scheduler : Scheduler α) : Prop :=
  scheduler.unannounced = 0 → ∀ taker ∈ scheduler.agenda.queue.takers.asleep,
    ∀ due, taker.timer? = some due → scheduler.agenda.reading < due

theorem Move.vigilant (hmove : Move origin action before after) (hsound : before.Sound)
    (hvigilant : before.Vigilant) : after.Vigilant := by
  intro hannounced taker htaker due hdue
  have hasleep : after.agenda.queue.takers.asleep ≠ [] := List.ne_nil_of_mem htaker
  rcases hmove.clock_cases with ⟨hclock, hsame⟩ | ⟨-, hmoved⟩
  · have hnow : after.agenda.reading = before.agenda.reading := congrArg ManualClock.reading hclock
    have hbefore : before.unannounced = 0 := (hsame.resolve_right hasleep).symm.trans hannounced
    rw [hnow]
    rcases hmove.change hsound with heq | ⟨operation, hchange, hcause⟩
    · exact hvigilant hbefore taker (heq ▸ htaker) due hdue
    · rcases hchange.asleep_cases htaker with hold | ⟨read, rfl, hearly⟩
      · exact hvigilant hbefore taker hold due hdue
      · -- Whoever falls asleep has read the clock in the same move.
        have hread : read = before.agenda.reading := hcause
        exact hread ▸ hearly due hdue
  · rcases hmoved with hnot | hnone
    · exact absurd hannounced hnot
    · exact absurd hnone hasleep

theorem Reachable.vigilant (hreachable : Reachable config cores scheduler) :
    scheduler.Vigilant := by
  refine hreachable.induction_on_moves (fun first hcreated => ?_)
    fun _ _ _ _ hsound hvigilant hmove => hmove.vigilant hsound hvigilant
  obtain rfl := new_eq_ok hcreated
  exact fun _ taker htaker => absurd htaker List.not_mem_nil

/-! ## Settled schedulers -/

theorem step_eq_none_of_settled (hsettled : scheduler.isSettled = true)
    (hcandidate : action ∈ scheduler.candidates) : scheduler.step action = none := by
  have hnone : scheduler.next? = none := Option.isNone_iff_eq_none.mp hsettled
  exact List.findSome?_eq_none_iff.mp hnone action hcandidate

theorem unannounced_eq_zero_of_settled (hsettled : scheduler.isSettled = true) :
    scheduler.unannounced = 0 := by
  have hnone := step_eq_none_of_settled hsettled (List.mem_cons_self .. :
    .announce ∈ scheduler.candidates)
  by_contra hnot
  simp [step, hnot] at hnone

/-- The dispatcher of a settled scheduler sleeps or has left off, unless it has panicked. -/
theorem dispatcher_of_settled (hsettled : scheduler.isSettled = true)
    (hbroken : scheduler.dispatcher ≠ .broken) :
    scheduler.agenda.queue.isAsleep dispatcherCaller = true ∨
      scheduler.dispatcher.HasCeased := by
  have hnone : scheduler.dispatch = none :=
    step_eq_none_of_settled hsettled (by simp [candidates] : .dispatch ∈ scheduler.candidates)
  cases hdispatcher : scheduler.dispatcher with
  | seeking =>
      left
      by_contra hawake
      simp [dispatch, hdispatcher, hawake] at hnone
  | holding task =>
      obtain ⟨after, hstep, -⟩ := dispatch_of_holding hdispatcher
      exact absurd (hnone.symm.trans hstep) (by simp)
  | winding | idle | gone => exact Or.inr trivial
  | broken => exact absurd hdispatcher hbroken

/-- Nothing that is queued is due in a settled scheduler whose dispatcher has not panicked. -/
theorem Reachable.lt_due_of_settled (hreachable : Reachable config cores scheduler)
    (hsettled : scheduler.isSettled = true) (hbroken : scheduler.dispatcher ≠ .broken)
    {entry : Entry} (hentry : entry ∈ scheduler.agenda.queue.entries) :
    scheduler.agenda.reading < entry.key.due := by
  have hqueue := hreachable.sound.queue
  rcases dispatcher_of_settled hsettled hbroken with hasleep | hceased
  · obtain ⟨taker, htaker, -⟩ := List.any_eq_true.mp hasleep
    obtain ⟨-, hsleep⟩ := hqueue.watchful taker htaker
    have hannounced := unannounced_eq_zero_of_settled hsettled
    exact hsleep.nothingBefore.lt_due (hreachable.vigilant hannounced taker htaker) hentry
  · have hempty : scheduler.agenda.queue.entries = [] := by
      rcases hreachable.concluded.isOver hceased with hclosed | ⟨-, hnone, -⟩
      · exact hqueue.closed_empty hclosed
      · exact hnone
    exact absurd hentry (hempty ▸ List.not_mem_nil)

/-- A taker that sleeps has been neither overtaken by an entry nor by the clock: the queue is not
closed, nothing is due before its timer runs out, and once all moves of the clock have been
announced nothing is due at all.  So no task that is queued is due in a settled scheduler, unless
its dispatcher has panicked, which it has not if the clock can be read. -/
theorem never_oversleeps :
    (∀ caller capacity vigil, Vigil.Reached caller capacity vigil →
      ∀ taker ∈ vigil.queue.takers.asleep,
        vigil.queue.admission ≠ .closed ∧ vigil.queue.NothingBefore taker.timer? ∧
          (vigil.unannounced = 0 →
            ∀ entry ∈ vigil.queue.entries, vigil.clock.reading < entry.key.due)) ∧
    ∀ config cores (scheduler : Scheduler α), Reachable config cores scheduler →
      scheduler.isSettled = true →
        (scheduler.agenda.clock.isReadable = true → scheduler.dispatcher ≠ .broken) ∧
        (scheduler.dispatcher ≠ .broken → ∀ entry ∈ scheduler.agenda.queue.entries,
          scheduler.agenda.reading < entry.key.due ∧
            scheduler.agenda.reading < scheduler.agenda.dueOf entry.task) := by
  constructor
  · intro caller capacity vigil hreached taker htaker
    exact hreached.attentive.good_reason htaker
  · intro config cores scheduler hreachable hsettled
    refine ⟨fun hreadable => (hreachable.sound.intact hreadable).2, fun hbroken entry hentry => ?_⟩
    have hlt := hreachable.lt_due_of_settled hsettled hbroken hentry
    exact ⟨hlt, hreachable.punctual.entry entry hentry ▸ hlt⟩

/-- A taker has fallen asleep while the clock was being moved, has been told of it and sleeps
again, and an entry has come that is due later; a scheduler whose one task is not due yet is
settled. -/
theorem never_oversleeps_while_waiting :
    (∃ vigil : Vigil, Vigil.Reached 0 0 vigil ∧
      vigil.queue.takers.asleep = [⟨0, some ⟨5000000000⟩⟩] ∧ vigil.queue.tasks = [0, 1] ∧
      vigil.clock.reading = ⟨3000000000⟩ ∧
      ∀ entry ∈ vigil.queue.entries, vigil.clock.reading < entry.key.due) ∧
    ∃ scheduler : Scheduler Unit, Reachable {} 1 scheduler ∧ scheduler.isSettled = true ∧
      scheduler.agenda.queue.tasks = [0] ∧
      ∀ entry ∈ scheduler.agenda.queue.entries, scheduler.agenda.reading < entry.key.due := by
  obtain ⟨hvigils, hschedulers⟩ := @never_oversleeps Unit
  constructor
  · have hview : ((Vigil.new 0).follow 0
        [.operate (.tryInsert 0 false ⟨5000000000⟩), .look, .advance (.ofSeconds 3), .settle,
          .announce, .look, .settle, .operate (.tryInsert 1 false ⟨6000000000⟩)]).map
            (fun vigil => (vigil.queue.takers.asleep, vigil.queue.tasks, vigil.clock.reading,
              vigil.unannounced)) =
        some ([⟨0, some ⟨5000000000⟩⟩], [0, 1], ⟨3000000000⟩, 0) := by
      decide +kernel
    obtain ⟨vigil, hfollow, hparts⟩ := Option.map_eq_some_iff.mp hview
    simp only [Prod.mk.injEq] at hparts
    obtain ⟨hasleep, htasks, hreading, hannounced⟩ := hparts
    have hreached := Vigil.Reached.of_follow .refl hfollow
    obtain ⟨-, -, hearly⟩ := hvigils 0 0 vigil hreached _ (hasleep ▸ List.mem_cons_self ..)
    exact ⟨vigil, hreached, hasleep, htasks, hreading, hearly hannounced⟩
  · have hview : (played {} 1
        [.request (.schedule (plainTask .oneShot (.ofSeconds 5)) true), .proceed 0,
          .dispatch]).map (fun result => ((result.2.isSettled, result.2.agenda.queue.tasks),
            result.2.agenda.clock.isReadable)) =
        some ((true, [0]), true) := by
      decide +kernel
    obtain ⟨⟨past, scheduler⟩, hplayed, hparts⟩ := Option.map_eq_some_iff.mp hview
    simp only [Prod.mk.injEq] at hparts
    obtain ⟨⟨hsettled, htasks⟩, hreadable⟩ := hparts
    have hreachable := (Run.of_played hplayed).reachable
    obtain ⟨hintact, hearly⟩ := hschedulers {} 1 scheduler hreachable hsettled
    exact ⟨scheduler, hreachable, hsettled, htasks,
      fun entry hentry => (hearly (hintact hreadable) entry hentry).1⟩

end Scheduler

end TimedTasks
