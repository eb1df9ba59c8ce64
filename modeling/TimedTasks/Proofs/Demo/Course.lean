import TimedTasks.Demo
import TimedTasks.Proofs.Scheduler.Unattended

/-!
# All that a day can come to

The caller and the scheduler of a demonstration go on side by side, and nobody says in which order
(`Day.Step`); besides, the dispatcher's sleep may run out at any time (`Day.Course`).  A day
`EndsWithin` so many steps if every order of steps leads to a report.

A turn of the caller leaves the scheduler in some stage, in which it stays whatever it does by
itself.  As long as its rank is bounded there, and the caller has its next turn once everything has
settled, the day goes on to that turn (`Ends.of_stage`).
-/

namespace TimedTasks.Demo

open Scheduler (Reachable Plain)

variable {plan : Plan} {config : Config} {cores : Nat} {p : Report → Prop} {count more : Nat}

namespace Day

variable {day before after : Day}

/-- One step: the scheduler makes one of its own, or the caller takes a turn. -/
inductive Step (before : Day) : Day → Prop
  | own {action : Action Unit} {scheduler : Scheduler Unit} (hown : action.IsOwn)
      (hstep : before.scheduler.step action = some scheduler) :
      Step before { before with scheduler }
  | turn {after : Day} (hturn : before.turn? = some after) : Step before after

/-- What a day can come to. -/
inductive Course (first : Day) : Day → Prop
  | begins : Course first first
  | goesOn {before after : Day} (hcourse : Course first before) (hstep : before.Step after) :
      Course first after
  /-- The dispatcher's sleep runs out. -/
  | expires {before : Day} {scheduler : Scheduler Unit} (hcourse : Course first before)
      (hstep : before.scheduler.step .expire = some scheduler) :
      Course first { before with scheduler }

/-- After no more than `count` steps, whichever they are, there is a report of which `p` holds. -/
inductive EndsWithin (p : Report → Prop) : Nat → Day → Prop
  | told {count : Nat} {day : Day} {report : Report} (houtcome : day.outcome? = some (.told report))
      (hreport : p report) : EndsWithin p count day
  | goesOn {count : Nat} {day : Day} (hsome : ∃ after, day.Step after)
      (hall : ∀ after, day.Step after → EndsWithin p count after) : EndsWithin p (count + 1) day

theorem EndsWithin.mono (hends : day.EndsWithin p count) (hle : count ≤ more) :
    day.EndsWithin p more := by
  induction hends generalizing more with
  | told houtcome hreport => exact .told houtcome hreport
  | @goesOn count day hsome hall ih =>
      obtain ⟨rest, rfl⟩ := Nat.exists_eq_add_of_le hle
      rw [Nat.add_right_comm]
      exact .goesOn hsome fun after hstep => ih after hstep (Nat.le_add_right _ _)

theorem Step.outcome_eq (hstep : before.Step after) (houtcome : before.outcome? ≠ none) :
    after.outcome? = before.outcome? := by
  cases hstep with
  | own => rfl
  | turn hturn =>
      cases hbefore : before.outcome? with
      | none => exact absurd hbefore houtcome
      | some outcome => simp [turn?, hbefore] at hturn

/-! ## One order of steps -/

theorem step_of_next? (hnext : before.next? = some after) : before.Step after := by
  unfold next? at hnext
  split at hnext
  · rename_i scheduler hscheduler
    obtain rfl := Option.some.inj hnext
    obtain ⟨action, hcandidate, hstep⟩ := List.exists_of_findSome?_eq_some hscheduler
    exact .own (Scheduler.isOwn_of_candidate hcandidate) hstep
  · exact .turn hnext

theorem next?_of_step (hstep : before.Step after) : before.next? ≠ none := by
  intro hnone
  unfold next? at hnone
  split at hnone
  · exact absurd hnone (by simp)
  · rename_i hsettled
    cases hstep with
    | own hown hstep =>
        have hstill := Scheduler.step_eq_none_of_own
          (by rw [Scheduler.isSettled, hsettled]; rfl) hown
        exact absurd (hstill.symm.trans hstep) (by simp)
    | turn hturn => exact absurd (hnone.symm.trans hturn) (by simp)

theorem outcome?_playWithin (fuel : Nat) (houtcome : day.outcome? ≠ none) :
    (day.playWithin fuel).outcome? = day.outcome? := by
  induction fuel generalizing day with
  | zero => rfl
  | succ fuel ih =>
      rw [playWithin]
      cases hnext : day.next? with
      | none => rfl
      | some after =>
          have hsame := (step_of_next? hnext).outcome_eq houtcome
          rw [ih (hsame ▸ houtcome), hsame]

/-- The order in which a day is played leads to a report, if every order does. -/
theorem EndsWithin.playWithin (hends : day.EndsWithin p count) :
    ∃ report, (day.playWithin count).outcome? = some (.told report) ∧ p report := by
  induction hends with
  | @told count day report houtcome hreport =>
      have hended : day.outcome? ≠ none := by simp [houtcome]
      have hplayed := outcome?_playWithin count hended
      exact ⟨report, hplayed.trans houtcome, hreport⟩
  | @goesOn count day hsome hall ih =>
      obtain ⟨first, hfirst⟩ := hsome
      obtain ⟨after, hafter⟩ := Option.ne_none_iff_exists'.mp (next?_of_step hfirst)
      rw [Day.playWithin, hafter]
      exact ih after (step_of_next? hafter)

/-! ## From one turn to the next -/

/-- Whatever the day has come to, it ends within so many steps. -/
def Ends (p : Report → Prop) (count : Nat) (day : Day) : Prop :=
  ∀ later, day.Course later → later.EndsWithin p count

theorem Ends.mono (hends : day.Ends p count) (hle : count ≤ more) : day.Ends p more :=
  fun later hlater => (hends later hlater).mono hle

theorem Course.trans {first middle last : Day} (hfirst : first.Course middle)
    (hlast : middle.Course last) : first.Course last := by
  induction hlast with
  | begins => exact hfirst
  | goesOn _ hstep ih => exact ih.goesOn hstep
  | expires _ hstep ih => exact ih.expires hstep

theorem Ends.of_course (hends : before.Ends p count) (hcourse : before.Course after) :
    after.Ends p count :=
  fun later hlater => hends later (hcourse.trans hlater)

theorem ends_told {report : Report} (houtcome : day.outcome? = some (.told report))
    (hreport : p report) : day.Ends p count := by
  intro later hlater
  suffices hsame : later.outcome? = day.outcome? from .told (hsame.trans houtcome) hreport
  induction hlater with
  | begins => rfl
  | goesOn _ hstep ih => exact (hstep.outcome_eq (by rw [ih, houtcome]; simp)).trans ih
  | expires _ _ ih => exact ih

/-- A stage in which the scheduler stays until the caller takes a turn. -/
structure Lasts (config : Config) (cores pace : Nat) (stage : Scheduler Unit → Prop) : Prop where
  of_step : ∀ {before after : Scheduler Unit} {action : Action Unit}, stage before →
    action.IsSpontaneous → before.step action = some after → stage after
  reachable : ∀ {scheduler}, stage scheduler → Reachable config cores scheduler
  plain : ∀ {scheduler}, stage scheduler → scheduler.Plain
  rank_lt : ∀ {scheduler}, stage scheduler → scheduler.rank < pace

section

variable {stage : Scheduler Unit → Prop} {pace : Nat} (day : Day)
variable (hlasts : Lasts config cores pace stage)
variable (hsettles : ∀ scheduler, stage scheduler → scheduler.isSettled = true →
  { day with scheduler }.turn? ≠ none)
variable (hturns : ∀ scheduler next, stage scheduler → { day with scheduler }.turn? = some next →
  next.Ends p count)

include hlasts hsettles hturns

/-- The scheduler's own steps come to an end, and then the caller has a turn. -/
theorem endsWithin_of_stage {scheduler : Scheduler Unit} (hstage : stage scheduler) :
    { day with scheduler }.EndsWithin p (count + (scheduler.rank + 1)) := by
  generalize hrank : scheduler.rank = rank
  -- Every own step lowers the rank, and a turn of the caller ends the stage.
  induction rank using Nat.strong_induction_on generalizing scheduler with
  | _ rank ih =>
      refine .goesOn ?_ fun after hstep => ?_
      · cases hsettled : scheduler.next? with
        | none =>
            obtain ⟨after, hafter⟩ := Option.ne_none_iff_exists'.mp
              (hsettles scheduler hstage (by rw [Scheduler.isSettled, hsettled]; rfl))
            exact ⟨after, .turn hafter⟩
        | some after =>
            obtain ⟨action, hcandidate, hstep⟩ := List.exists_of_findSome?_eq_some hsettled
            exact ⟨_, .own (Scheduler.isOwn_of_candidate hcandidate) hstep⟩
      · cases hstep with
        | @own action later hown hstep =>
            have hreachable := hlasts.reachable hstage
            have htame := (hlasts.plain hstage).tame hreachable.scripted
            have hless := hreachable.rank_lt_of_step htame hown hstep
            refine (ih later.rank (hrank ▸ hless) ?_ rfl).mono ?_
            · exact hlasts.of_step hstage hown.isSpontaneous hstep
            · exact Nat.add_le_add_left (hrank ▸ hless) count
        | turn hturn =>
            exact (hturns scheduler after hstage hturn after .begins).mono (Nat.le_add_right _ _)

/-- Whatever happens in a stage that lasts, the caller has a turn after it. -/
theorem Ends.of_stage {scheduler : Scheduler Unit} (hstage : stage scheduler) :
    { day with scheduler }.Ends p (count + pace) := by
  intro later hlater
  -- Either the course has stayed in the stage, or the caller has had a turn in it.
  have hcases : (∃ last, stage last ∧ later = { day with scheduler := last }) ∨
      later.Ends p count := by
    induction hlater with
    | begins => exact Or.inl ⟨scheduler, hstage, rfl⟩
    | @goesOn before after _ hstep ih =>
        rcases ih with ⟨last, hlast, rfl⟩ | hends
        · cases hstep with
          | own hown hstep => exact Or.inl ⟨_, hlasts.of_step hlast hown.isSpontaneous hstep, rfl⟩
          | turn hturn => exact Or.inr (hturns last _ hlast hturn)
        · exact Or.inr (hends.of_course (.goesOn .begins hstep))
    | @expires before expired _ hstep ih =>
        rcases ih with ⟨last, hlast, rfl⟩ | hends
        · exact Or.inl ⟨_, hlasts.of_step hlast (by trivial) hstep, rfl⟩
        · exact Or.inr (hends.of_course (.expires .begins hstep))
  rcases hcases with ⟨last, hlast, rfl⟩ | hends
  · refine (endsWithin_of_stage day hlasts hsettles hturns hlast).mono ?_
    exact Nat.add_le_add_left (hlasts.rank_lt hlast) count
  · exact (hends later .begins).mono (Nat.le_add_right _ _)

end

end Day

end TimedTasks.Demo
