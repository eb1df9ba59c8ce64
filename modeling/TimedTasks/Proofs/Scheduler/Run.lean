import TimedTasks.Proofs.Scheduler.Decomposition
import TimedTasks.Proofs.Scheduler.Invariant

/-!
# Runs of a scheduler

A run is the list of all steps made so far, the newest first, each with the state in which
it was made.  The states that runs lead to are the reachable ones; what every move keeps
holds of all of them.
-/

namespace TimedTasks

namespace Scheduler

variable {α : Type} {config : Config} {cores : Nat}
variable {past : List (Scheduler α × Action α)} {scheduler before after : Scheduler α}

/-- The steps that have led from a new scheduler to a state. -/
inductive Run (config : Config) (cores : Nat) :
    List (Scheduler α × Action α) → Scheduler α → Prop
  | start {scheduler : Scheduler α} (hcreated : new config cores = .ok scheduler) :
      Run config cores [] scheduler
  | step {past : List (Scheduler α × Action α)} {before after : Scheduler α}
      (hrun : Run config cores past before) (action : Action α)
      (hstep : before.step action = some after) : Run config cores ((before, action) :: past) after

theorem Run.reachable (hrun : Run config cores past scheduler) :
    Reachable config cores scheduler := by
  induction hrun with
  | start hcreated => exact .start hcreated
  | step _ action hstep ih => exact .step ih action hstep

theorem Reachable.exists_run (hreachable : Reachable config cores scheduler) :
    ∃ past, Run config cores past scheduler := by
  induction hreachable with
  | start hcreated => exact ⟨[], .start hcreated⟩
  | step _ action hstep ih =>
      obtain ⟨past, hrun⟩ := ih
      exact ⟨_, .step hrun action hstep⟩

theorem standing_new (hcreated : new config cores = .ok scheduler) (task : TaskId) :
    scheduler.standing task = (none, 0) := by
  obtain rfl := new_eq_ok hcreated
  rfl

theorem queue_new (hcreated : new config cores = .ok scheduler) :
    scheduler.agenda.queue = .new config.capacity := by
  obtain rfl := new_eq_ok hcreated
  rfl

/-! ## Induction along moves -/

theorem Sound.of_moves {origin : Scheduler α} {action : Action α} (hsound : before.Sound)
    (hmoves : Relation.ReflTransGen (Move origin action) before after) : after.Sound := by
  induction hmoves with
  | refl => exact hsound
  | tail _ hmove ih => exact hmove.sound ih

theorem Sound.of_step (hsound : before.Sound) {action : Action α}
    (hstep : before.step action = some after) : after.Sound :=
  hsound.of_moves (moves_of_step hstep)

/-- What every move keeps, moves in a row keep. -/
theorem of_moves {p : Scheduler α → Prop} {origin : Scheduler α} {action : Action α}
    (hsound : before.Sound) (hmoves : Relation.ReflTransGen (Move origin action) before after)
    (hbefore : p before)
    (hmove : ∀ first second, first.Sound → p first → Move origin action first second → p second) :
    p after := by
  suffices hboth : after.Sound ∧ p after from hboth.2
  induction hmoves with
  | refl => exact ⟨hsound, hbefore⟩
  | tail _ hlast ih => exact ⟨hlast.sound ih.1, hmove _ _ ih.1 ih.2 hlast⟩

/-- What the moves of a step keep, the step keeps. -/
theorem of_step {p : Scheduler α → Prop} {action : Action α} (hsound : before.Sound)
    (hstep : before.step action = some after) (hbefore : p before)
    (hmove : ∀ first second, first.Sound → p first → Move before action first second → p second) :
    p after :=
  of_moves hsound (moves_of_step hstep) hbefore hmove

theorem Sound.recordsEvolve_of_step (hsound : before.Sound) {action : Action α}
    (hstep : before.step action = some after) : RecordsEvolve before after :=
  Scheduler.of_step (p := RecordsEvolve before) hsound hstep (.refl before)
    fun _ _ hfirst hevolve hmove => hevolve.trans (hmove.recordsEvolve hfirst.custody)

theorem Reachable.sound (hreachable : Reachable config cores scheduler) : scheduler.Sound := by
  induction hreachable with
  | start hcreated => exact sound_new hcreated
  | step _ action hstep ih => exact ih.of_step hstep

/-- What every move keeps holds of all reachable states. -/
theorem Reachable.induction_on_moves {p : Scheduler α → Prop}
    (hreachable : Reachable config cores scheduler)
    (hstart : ∀ first, new config cores = .ok first → p first)
    (hmove : ∀ origin action first second, first.Sound → p first →
      Move origin action first second → p second) : p scheduler := by
  induction hreachable with
  | start hcreated => exact hstart _ hcreated
  | step hreached action hstep ih =>
      exact Scheduler.of_step hreached.sound hstep ih (hmove _ action)

theorem Move.policy_eq {origin : Scheduler α} {action : Action α}
    (hmove : Move origin action before after) : after.agenda.policy = before.agenda.policy := by
  cases hmove with
  | @tookUp _ task worker =>
      obtain ⟨records, history, henter⟩ := before.agenda.enter_fst task worker before.agenda.reading
      rw [henter]
  | settled _ _ hsettle | rearmed _ _ hsettle => exact (Agenda.kept_settle hsettle).policy_eq
  | _ => rfl

theorem Reachable.policy_eq (hreachable : Reachable config cores scheduler) :
    scheduler.agenda.policy = config.policy := by
  refine hreachable.induction_on_moves (p := fun state => state.agenda.policy = config.policy)
    (fun first hcreated => ?_) fun _ _ _ _ _ hpolicy hmove => hmove.policy_eq.trans hpolicy
  obtain rfl := new_eq_ok hcreated
  rfl

/-! ## Parts of a run -/

/-- A run up to one of its steps is a run. -/
theorem Run.at_step {later : List (Scheduler α × Action α)} {action : Action α}
    (hrun : Run config cores (later ++ (before, action) :: past) scheduler) :
    Run config cores past before ∧ ∃ after, before.step action = some after := by
  generalize hall : later ++ (before, action) :: past = all at hrun
  induction hrun generalizing later with
  | start => simp at hall
  | step hrun last hstep ih =>
      cases later with
      | nil =>
          obtain ⟨hfirst, rfl⟩ := List.cons.inj hall
          obtain ⟨rfl, rfl⟩ := Prod.mk.inj hfirst
          exact ⟨hrun, _, hstep⟩
      | cons step later => exact ih (List.cons.inj hall).2

/-- What holds after a step and is kept by every further step holds at the end. -/
theorem Run.induction_from {p : List (Scheduler α × Action α) → Scheduler α → Prop}
    {later : List (Scheduler α × Action α)} {action : Action α}
    (hrun : Run config cores (later ++ (before, action) :: past) scheduler)
    (hafter : ∀ after, before.step action = some after → p ((before, action) :: past) after)
    (hstep : ∀ past first action second, Run config cores past first → p past first →
      first.step action = some second → p ((first, action) :: past) second) :
    p (later ++ (before, action) :: past) scheduler := by
  -- The past of the run is no variable, so it gets a name before the induction.
  generalize hall : later ++ (before, action) :: past = all at hrun ⊢
  induction hrun generalizing later with
  | start => simp at hall
  | step hrun last hlast ih =>
      cases later with
      | nil =>
          obtain ⟨hfirst, rfl⟩ := List.cons.inj hall
          obtain ⟨rfl, rfl⟩ := Prod.mk.inj hfirst
          exact hafter _ hlast
      | cons step later => exact hstep _ _ last _ hrun (ih (List.cons.inj hall).2) hlast

/-- The steps of a run say where it has led. -/
theorem Run.unique (hrun : Run config cores past scheduler) (hother : Run config cores past after) :
    after = scheduler := by
  cases hrun with
  | start hcreated =>
      cases hother with
      | start hother => exact Except.ok.inj (hother.symm.trans hcreated)
  | step _ action hstep =>
      cases hother with
      | step _ _ hother => exact Option.some.inj (hother.symm.trans hstep)

/-- What holds of a state and is kept by every further step holds of all that it leads to. -/
theorem Run.induction_later {p : List (Scheduler α × Action α) → Scheduler α → Prop}
    {later : List (Scheduler α × Action α)} (hrun : Run config cores past scheduler)
    (hlater : Run config cores (later ++ past) after) (hstart : p [] scheduler)
    (hstep : ∀ later first action second, Run config cores (later ++ past) first →
      p later first → first.step action = some second → p ((first, action) :: later) second) :
    p later after := by
  induction later generalizing after with
  | nil => exact hrun.unique hlater ▸ hstart
  | cons step rest ih =>
      cases hlater with
      | step hearlier action hlast => exact hstep rest _ action _ hearlier (ih hearlier) hlast

/-- What holds after a step and is kept by every move holds ever after. -/
theorem Run.ever_after {p : Scheduler α → Prop} {later : List (Scheduler α × Action α)}
    {action : Action α}
    (hrun : Run config cores (later ++ (before, action) :: past) scheduler)
    (hafter : ∀ after, before.step action = some after → p after)
    (hmove : ∀ origin action first second, first.Sound → p first →
      Move origin action first second → p second) : p scheduler :=
  hrun.induction_from (p := fun _ state => p state) hafter
    fun _ _ last _ hrun hfirst hstep =>
      Scheduler.of_step hrun.reachable.sound hstep hfirst (hmove _ last)

/-! ## Making a list of steps -/

/-- Make the steps of a list one after the other, if all of them can be made. -/
def replay (past : List (Scheduler α × Action α)) (scheduler : Scheduler α) :
    List (Action α) → Option (List (Scheduler α × Action α) × Scheduler α)
  | [] => some (past, scheduler)
  | action :: rest =>
    match scheduler.step action with
    | some after => replay ((scheduler, action) :: past) after rest
    | none => none

theorem Run.of_replay {actions : List (Action α)}
    {result : List (Scheduler α × Action α) × Scheduler α}
    (hrun : Run config cores past scheduler)
    (hreplay : replay past scheduler actions = some result) :
    Run config cores result.1 result.2 := by
  induction actions generalizing past scheduler with
  | nil =>
      obtain rfl := Option.some.inj hreplay
      exact hrun
  | cons action rest ih =>
      unfold replay at hreplay
      split at hreplay
      · rename_i after hstep
        exact ih (.step hrun action hstep) hreplay
      · simp at hreplay

theorem exists_append_of_replay {actions : List (Action α)}
    {result : List (Scheduler α × Action α) × Scheduler α}
    (hreplay : replay past scheduler actions = some result) :
    ∃ later, result.1 = later ++ past := by
  induction actions generalizing past scheduler with
  | nil =>
      obtain rfl := Option.some.inj hreplay
      exact ⟨[], rfl⟩
  | cons action rest ih =>
      unfold replay at hreplay
      split at hreplay
      · obtain ⟨later, hlater⟩ := ih hreplay
        exact ⟨later ++ [(scheduler, action)], by rw [hlater, List.append_assoc]; rfl⟩
      · simp at hreplay

theorem exists_append_of_replay_cons {action : Action α} {actions : List (Action α)}
    {result : List (Scheduler α × Action α) × Scheduler α}
    (hreplay : replay past scheduler (action :: actions) = some result) :
    ∃ later, result.1 = later ++ (scheduler, action) :: past := by
  unfold replay at hreplay
  split at hreplay
  · exact exists_append_of_replay hreplay
  · simp at hreplay

/-- The steps that are made are those of the list. -/
theorem action_mem_of_replay {actions : List (Action α)}
    {result : List (Scheduler α × Action α) × Scheduler α}
    (hreplay : replay past scheduler actions = some result) {step : Scheduler α × Action α}
    (hstep : step ∈ result.1) : step ∈ past ∨ step.2 ∈ actions := by
  induction actions generalizing past scheduler with
  | nil =>
      obtain rfl := Option.some.inj hreplay
      exact Or.inl hstep
  | cons action rest ih =>
      unfold replay at hreplay
      split at hreplay
      · rcases ih hreplay with hmem | hlater
        · rcases List.mem_cons.mp hmem with rfl | hmem
          · exact Or.inr (List.mem_cons_self ..)
          · exact Or.inl hmem
        · exact Or.inr (List.mem_cons_of_mem _ hlater)
      · simp at hreplay

theorem eq_ok_of_toOption {ε β : Type} {result : Except ε β} {value : β}
    (hsome : result.toOption = some value) : result = .ok value := by
  cases result with
  | error error => simp [Except.toOption] at hsome
  | ok found => exact congrArg Except.ok (Option.some.inj hsome)

/-- The steps of a list, made by a new scheduler, and the state that they lead to. -/
def played (config : Config) (cores : Nat) (actions : List (Action α)) :
    Option (List (Scheduler α × Action α) × Scheduler α) :=
  (new config cores).toOption.bind fun first => replay [] first actions

theorem Run.of_played {actions : List (Action α)}
    (hplayed : played config cores actions = some (past, scheduler)) :
    Run config cores past scheduler := by
  obtain ⟨first, hfirst, hreplay⟩ := Option.bind_eq_some_iff.mp hplayed
  exact Run.of_replay (.start (eq_ok_of_toOption hfirst)) hreplay

/-- A task whose body does nothing. -/
def plainTask (schedule : Schedule) (delay : Span) : Submission Unit :=
  { name := "", schedule, delay, script := fun _ => { ending := .value () } }

end Scheduler

end TimedTasks
