import TimedTasks.Proofs.Scheduler.Reporting

/-!
# Which shutdowns are granted

Two things decide about a call that is to shut the scheduler down, and others can come between
the steps in which they are looked at: how far the scheduler has come when the call is made
(`Finds`), and, if it is not to drain, whether somebody has claimed the immediate shutdown
(`Claims`).  A call that drains is granted if it is the one that ends the running of the
scheduler; a call that shuts it down at once is granted if it is the one that claims.

`Standing` says what is known of a call at any time, and `Run.standing` that one of its cases
holds from the step on in which the call is made.  A call that is turned away has not changed
anything but the stage of the scheduler; a call that is granted goes on to the end, whatever
happens beside it.

That a call comes to its end is said of executions without end in which it gets its turn as long
as it is in progress (`Unhindered`).  Nothing else can hold it up: it waits for nobody
(`exists_step_of_shutsDown`), and each of its steps brings it nearer to the end.
-/

namespace TimedTasks

/-- A call that has been granted, and is not through. -/
def Call.Underway (drain : Bool) : Call → Prop
  | .closing other | .cancelling other _ _ => other = drain
  | _ => False

theorem Call.Underway.shutsDown {drain : Bool} {stage : Call} (hunderway : stage.Underway drain) :
    stage.ShutsDown := by
  cases stage with
  | closing | cancelling => trivial
  | _ => exact hunderway.elim

namespace Scheduler

variable {α : Type} {before after scheduler : Scheduler α} {action : Action α}
variable {config : Config} {cores : Nat} {past : List (Scheduler α × Action α)}
variable {call other : CallId} {drain : Bool} {stage : Lifecycle}

/-! ## What a call finds -/

/-- The call is made to shut the scheduler down, and finds that it has come to a stage. -/
def Finds (past : List (Scheduler α × Action α)) (call : CallId) (drain : Bool)
    (stage : Lifecycle) : Prop :=
  ∃ state, (state, .request (.shutdown drain)) ∈ past ∧ state.nextCall = call ∧
    state.lifecycle = stage

theorem Finds.asked (hfinds : Finds past call drain stage) : Asked past call drain := by
  obtain ⟨state, hmem, hcall, -⟩ := hfinds
  exact ⟨state, hmem, hcall⟩

theorem Finds.append (hfinds : Finds past call drain stage)
    (later : List (Scheduler α × Action α)) : Finds (later ++ past) call drain stage := by
  obtain ⟨state, hmem, hfound⟩ := hfinds
  exact ⟨state, List.mem_append_right _ hmem, hfound⟩

theorem finds_cons : Finds ((before, action) :: past) call drain stage ↔
    (action = .request (.shutdown drain) ∧ before.nextCall = call ∧ before.lifecycle = stage) ∨
      Finds past call drain stage := by
  simp only [Finds, List.mem_cons, Prod.mk.injEq, or_and_right, exists_or]
  refine or_congr_left ⟨?_, ?_⟩
  · rintro ⟨state, ⟨rfl, rfl⟩, hfound⟩
    exact ⟨rfl, hfound⟩
  · rintro ⟨rfl, hfound⟩
    exact ⟨before, ⟨rfl, rfl⟩, hfound⟩

/-- Whether a call asks in a step for a shutdown, and finds that the scheduler has come to a
stage. -/
def findsIn (call : CallId) (drain : Bool) (stage : Lifecycle) : Scheduler α × Action α → Bool
  | (state, .request (.shutdown asked)) =>
      asked == drain && state.nextCall == call && decide (state.lifecycle = stage)
  | _ => false

theorem any_findsIn : past.any (findsIn call drain stage) = true ↔ Finds past call drain stage := by
  rw [List.any_eq_true]
  constructor
  · rintro ⟨⟨state, action⟩, hmem, hfinds⟩
    unfold findsIn at hfinds
    split at hfinds
    · rename_i heq
      obtain ⟨rfl, rfl⟩ := Prod.mk.inj heq
      simp only [Bool.and_eq_true, beq_iff_eq, decide_eq_true_eq] at hfinds
      obtain ⟨⟨rfl, hcall⟩, hstage⟩ := hfinds
      exact ⟨_, hmem, hcall, hstage⟩
    · cases hfinds
  · rintro ⟨state, hmem, rfl, rfl⟩
    exact ⟨_, hmem, by simp [findsIn]⟩

instance : Decidable (Finds past call drain stage) :=
  decidable_of_iff (past.any (findsIn call drain stage) = true) any_findsIn

theorem Run.finds_unique (hrun : Run config cores past scheduler) {first second : Lifecycle}
    (hfirst : Finds past call drain first) (hsecond : Finds past call drain second) :
    first = second := by
  obtain ⟨state, hmem, hcall, rfl⟩ := hfirst
  obtain ⟨later, hlater, hsame, rfl⟩ := hsecond
  obtain ⟨rfl, -⟩ := hrun.request_unique hmem hlater (hcall.trans hsame.symm)
  rfl

/-- What has been asked for when the scheduler ran has ended that. -/
theorem Run.not_running_of_finds (hrun : Run config cores past scheduler)
    (hfinds : Finds past call drain .running) : scheduler.lifecycle ≠ .running := by
  induction hrun with
  | start =>
      obtain ⟨state, hmem, -⟩ := hfinds
      exact absurd hmem List.not_mem_nil
  | @step past before after hrun action hstep ih =>
      rcases finds_cons.mp hfinds with ⟨rfl, -, hrunning⟩ | hearlier
      · obtain rfl := Option.some.inj hstep
        have hbegun : (before.request (.shutdown drain)).lifecycle =
            before.lifecycle.beginShutdown := by
          simp only [request]
          split <;> rfl
        rw [hbegun]
        exact before.lifecycle.beginShutdown_ne_running
      -- The lifecycle does not come back.
      · rcases hrun.reachable.lifecycle_step hstep with hsame | ⟨-, -, hafter⟩ | ⟨-, -, hafter⟩
        · exact hsame ▸ ih hearlier
        · exact hafter ▸ Lifecycle.noConfusion
        · exact hafter ▸ Lifecycle.noConfusion

/-- A scheduler that still runs has always been running. -/
theorem Run.all_running (hrun : Run config cores past scheduler)
    (hrunning : scheduler.lifecycle = .running) :
    ∀ step ∈ past, step.1.lifecycle = .running := by
  induction hrun with
  | start => exact fun step hstep => absurd hstep List.not_mem_nil
  | @step past before after hrun action hstep ih =>
      have hbefore : before.lifecycle = .running := by
        rcases hrun.reachable.lifecycle_step hstep with hsame | ⟨-, -, hafter⟩ | ⟨-, -, hafter⟩
        · exact hsame.symm.trans hrunning
        · exact absurd (hrunning.symm.trans hafter) Lifecycle.noConfusion
        · exact absurd (hrunning.symm.trans hafter) Lifecycle.noConfusion
      intro step hmem
      rcases List.mem_cons.mp hmem with rfl | hearlier
      · exact hbefore
      · exact ih hbefore step hearlier

/-- Only one call can find the scheduler running. -/
theorem Run.finds_running_unique (hrun : Run config cores past scheduler) {first second : Bool}
    (hfirst : Finds past call first .running) (hsecond : Finds past other second .running) :
    call = other := by
  induction hrun with
  | start =>
      obtain ⟨state, hmem, -⟩ := hfirst
      exact absurd hmem List.not_mem_nil
  | @step past before after hrun action hstep ih =>
      rcases finds_cons.mp hfirst with ⟨-, hone, hrunning⟩ | hfirst
      · rcases finds_cons.mp hsecond with ⟨-, htwo, -⟩ | hsecond
        · exact hone.symm.trans htwo
        · exact absurd hrunning (hrun.not_running_of_finds hsecond)
      · rcases finds_cons.mp hsecond with ⟨-, -, hrunning⟩ | hsecond
        · exact absurd hrunning (hrun.not_running_of_finds hfirst)
        · exact ih hfirst hsecond

/-- The call has ended the running of the scheduler: it ran before the step in which the call
was made, and not after it. -/
def EndsRunning (past : List (Scheduler α × Action α)) (call : CallId) (drain : Bool) : Prop :=
  ∃ later earlier state, past = later ++ (state, .request (.shutdown drain)) :: earlier ∧
    state.nextCall = call ∧ state.lifecycle = .running ∧
    (∀ step ∈ earlier, step.1.lifecycle = .running) ∧ ∀ step ∈ later, step.1.lifecycle ≠ .running

theorem Run.endsRunning (hrun : Run config cores past scheduler)
    (hfinds : Finds past call drain .running) : EndsRunning past call drain := by
  obtain ⟨state, hmem, hcall, hrunning⟩ := hfinds
  obtain ⟨later, earlier, rfl⟩ := List.append_of_mem hmem
  refine ⟨later, earlier, state, rfl, hcall, hrunning, ?_, fun step hstep => ?_⟩
  · exact hrun.at_step.1.all_running hrunning
  · obtain ⟨middle, action⟩ := step
    obtain ⟨latest, between, rfl⟩ := List.append_of_mem hstep
    rw [List.append_assoc, List.cons_append] at hrun
    have hfound : Finds (between ++ (state, .request (.shutdown drain)) :: earlier) call drain
        .running := ⟨state, List.mem_append_right _ (List.mem_cons_self ..), hcall, hrunning⟩
    exact hrun.at_step.1.not_running_of_finds hfound

/-! ## What a call changes -/

/-- Queue, records and metrics are the same before and after each step of the call. -/
def LeavesAlone (past : List (Scheduler α × Action α)) (call : CallId) : Prop :=
  ∀ state action after, (state, action) ∈ past → state.IsStepOf call action →
    state.step action = some after → after.agenda = state.agenda

theorem LeavesAlone.cons (halone : LeavesAlone past call)
    (hstep : before.step action = some after)
    (hnow : before.IsStepOf call action → after.agenda = before.agenda) :
    LeavesAlone ((before, action) :: past) call := by
  intro state last final hmem hof hlast
  rcases List.mem_cons.mp hmem with heq | hearlier
  · obtain ⟨rfl, rfl⟩ := Prod.mk.inj heq
    obtain rfl := Option.some.inj (hstep.symm.trans hlast)
    exact hnow hof
  · exact halone state last final hearlier hof hlast

theorem Run.leavesAlone_next (hrun : Run config cores past scheduler) :
    LeavesAlone past scheduler.nextCall :=
  fun _ _ _ hmem hof => absurd (hrun.lt_next_of_mem hmem hof) (Nat.lt_irrefl _)

/-! ## How a call stands -/

/-- What a call is granted for. -/
def Entitled (past : List (Scheduler α × Action α)) (call : CallId) : Bool → Prop
  | true => Finds past call true .running
  | false => Claims past call

/-- What a call is turned away for. -/
inductive Forestalled (past : List (Scheduler α × Action α)) (call : CallId) : Bool → Prop
  | begun {stage : Lifecycle} (hfinds : Finds past call true stage) (hbegun : stage ≠ .running) :
      Forestalled past call true
  | late (hfinds : Finds past call false .stopped) : Forestalled past call false
  | outrun {other : CallId} (hclaims : Claims past other) : Forestalled past call false

/-- What is known of a call from the time on when it is made. -/
inductive Standing (past : List (Scheduler α × Action α)) (scheduler : Scheduler α)
    (call : CallId) (drain : Bool) : Prop
  | undecided (himmediate : drain = false) (hlookup : scheduler.calls.lookup call = some .claiming)
      (hnot : ¬ Entitled past call drain) (halone : LeavesAlone past call)
  | refused (hanswer : scheduler.answer? call = some (.shutDown (.error .closed)))
      (hnot : ¬ Entitled past call drain) (hforestalled : Forestalled past call drain)
      (halone : LeavesAlone past call)
  | underway {stage : Call} (hlookup : scheduler.calls.lookup call = some stage)
      (hunderway : stage.Underway drain) (hentitled : Entitled past call drain)
  | through {done : List TaskId} (hanswer : scheduler.answer? call = some (.shutDown (.ok done)))
      (hentitled : Entitled past call drain)

theorem entitled_cons (hothers : ¬ before.IsStepOf call action) :
    Entitled ((before, action) :: past) call drain ↔ Entitled past call drain := by
  cases drain with
  | true =>
      refine finds_cons.trans (or_iff_right ?_)
      rintro ⟨rfl, hcall, -⟩
      exact hothers hcall
  | false =>
      refine claims_cons.trans (or_iff_right ?_)
      rintro ⟨rfl, -⟩
      exact hothers rfl

theorem Forestalled.cons (hforestalled : Forestalled past call drain) (before : Scheduler α)
    (action : Action α) : Forestalled ((before, action) :: past) call drain := by
  cases hforestalled with
  | begun hfinds hbegun => exact .begun (finds_cons.mpr (Or.inr hfinds)) hbegun
  | late hfinds => exact .late (finds_cons.mpr (Or.inr hfinds))
  | outrun hclaims => exact .outrun (claims_cons.mpr (Or.inr hclaims))

/-- The steps of others change nothing. -/
theorem Standing.cons (hstanding : Standing past before call drain)
    (hstep : before.step action = some after) (hothers : ¬ before.IsStepOf call action) :
    Standing ((before, action) :: past) after call drain := by
  obtain ⟨hlookup, hanswer⟩ := aside_of_not_isStepOf hstep hothers
  have hkept : LeavesAlone past call → LeavesAlone ((before, action) :: past) call :=
    fun halone => halone.cons hstep fun hof => absurd hof hothers
  cases hstanding with
  | undecided himmediate hfound hnot halone =>
      exact .undecided himmediate (hlookup.trans hfound) (mt (entitled_cons hothers).mp hnot)
        (hkept halone)
  | refused hclosed hnot hforestalled halone =>
      exact .refused (hanswer.trans hclosed) (mt (entitled_cons hothers).mp hnot)
        (hforestalled.cons before action) (hkept halone)
  | underway hfound hunderway hentitled =>
      exact .underway (hlookup.trans hfound) hunderway ((entitled_cons hothers).mpr hentitled)
  | through htold hentitled =>
      exact .through (hanswer.trans htold) ((entitled_cons hothers).mpr hentitled)

/-- Whether a call that has found the scheduler at a stage goes on. -/
def GoesOnAt (drain : Bool) (stage : Lifecycle) : Prop :=
  stage = .running ∨ stage = .shuttingDown ∧ !drain

theorem request_shutdown_of_goesOnAt (hgoesOn : GoesOnAt drain before.lifecycle) :
    before.request (.shutdown drain) =
      Scheduler.opened { before.numbered with lifecycle := before.lifecycle.beginShutdown }
        before.nextCall (if drain then .closing true else .claiming) :=
  if_pos hgoesOn

theorem request_shutdown_of_not_goesOnAt (hnot : ¬ GoesOnAt drain before.lifecycle) :
    before.request (.shutdown drain) =
      Scheduler.reply { before.numbered with lifecycle := before.lifecycle.beginShutdown }
        before.nextCall (.shutDown (.error .closed)) :=
  if_neg hnot

/-- What is known of a call that has just been made. -/
theorem Run.standing_of_request (hrun : Run config cores past before)
    (hstep : before.step (.request (.shutdown drain)) = some after) :
    Standing ((before, .request (.shutdown drain)) :: past) after before.nextCall drain := by
  have hnew := (hrun.reachable.attended.made before.nextCall (Nat.le_refl _)).1
  have hfinds : Finds ((before, .request (.shutdown drain)) :: past) before.nextCall drain
      before.lifecycle := finds_cons.mpr (Or.inl ⟨rfl, rfl, rfl⟩)
  have halone : after.agenda = before.agenda →
      LeavesAlone ((before, .request (.shutdown drain)) :: past) before.nextCall :=
    fun hsame => hrun.leavesAlone_next.cons hstep fun _ => hsame
  -- Nobody has claimed anything with the number of this call.
  have hunclaimed : ¬ Claims ((before, .request (.shutdown drain)) :: past) before.nextCall := by
    rw [claims_cons]
    rintro (⟨heq, -⟩ | ⟨state, hmem, -⟩)
    · cases heq
    · exact Nat.lt_irrefl _ (hrun.lt_next_of_mem hmem rfl)
  have hafter : before.request (.shutdown drain) = after := Option.some.inj hstep
  by_cases hgoesOn : GoesOnAt drain before.lifecycle
  · rw [request_shutdown_of_goesOnAt hgoesOn] at hafter
    subst hafter
    have hlookup : ∀ {state : Scheduler α} {stage : Call}, state.calls = before.calls →
        (state.opened before.nextCall stage).calls.lookup before.nextCall = some stage := by
      intro state stage hcalls
      rw [lookup_opened, hcalls, hnew, if_pos rfl]
      rfl
    cases drain with
    | true =>
        have hrunning : before.lifecycle = .running := hgoesOn.resolve_right (by simp)
        rw [hrunning] at hfinds
        exact .underway (hlookup rfl) rfl hfinds
    | false => exact .undecided rfl (hlookup rfl) hunclaimed (halone rfl)
  · rw [request_shutdown_of_not_goesOnAt hgoesOn] at hafter
    subst hafter
    obtain ⟨hbegun, hlater⟩ := not_or.mp hgoesOn
    cases drain with
    | true =>
        refine .refused (answer?_reply_self ..) ?_ (.begun hfinds hbegun) (halone rfl)
        rw [Entitled, finds_cons]
        rintro (⟨-, -, hrunning⟩ | ⟨state, hmem, hcall, -⟩)
        · exact hbegun hrunning
        · exact Nat.lt_irrefl _ (hrun.lt_next_of_mem hmem hcall)
    | false =>
        have hstopped : before.lifecycle = .stopped := by
          cases hlifecycle : before.lifecycle with
          | running => exact absurd hlifecycle hbegun
          | shuttingDown => exact absurd ⟨hlifecycle, rfl⟩ hlater
          | stopped => rfl
        rw [hstopped] at hfinds
        exact .refused (answer?_reply_self ..) hunclaimed (.late hfinds) (halone rfl)

/-- Somebody has claimed the immediate shutdown if it has been claimed. -/
theorem Run.exists_claims (hrun : Run config cores past scheduler)
    (hclaimed : scheduler.claimed = true) : ∃ call, Claims past call := by
  induction hrun with
  | start hcreated =>
      obtain rfl := new_eq_ok hcreated
      exact absurd hclaimed Bool.false_ne_true
  | @step past before after hrun action hstep ih =>
      by_cases hbefore : before.claimed = true
      · obtain ⟨call, hclaims⟩ := ih hbefore
        exact ⟨call, claims_cons.mpr (Or.inr hclaims)⟩
      · have hsame : after.front = before.front → before.claimed = true :=
          fun hfront => (congrArg Front.claimed hfront).symm.trans hclaimed
        -- Only a step of a call can claim the shutdown.
        cases action with
        | request asked =>
            cases receives_of_step hstep with
            | refused hfront | opened hfront =>
                exact absurd ((congrArg Front.claimed hfront).symm.trans hclaimed) hbefore
        | proceed call =>
            obtain ⟨stage, hlookup, hproceeds⟩ := proceeds_of_step hstep
            cases hproceeds with
            | claims hunclaimed =>
                exact ⟨call, claims_cons.mpr (Or.inl ⟨rfl, hlookup, hunclaimed⟩)⟩
            | reports _ hfront | answers _ _ hfront | waits _ _ hfront =>
                exact absurd ((congrArg Front.claimed hfront).symm.trans hclaimed) hbefore
            | _ => exact absurd hclaimed hbefore
        | _ => exact absurd (hsame (front_of_step hstep (by simp) (by simp))) hbefore

/-- What is known of a call that has taken a step. -/
theorem Run.standing_of_proceed (hrun : Run config cores past before)
    (hstanding : Standing past before call drain)
    (hstep : before.step (.proceed call) = some after) :
    Standing ((before, .proceed call) :: past) after call drain := by
  obtain ⟨stage, hlookup, hproceeds⟩ := proceeds_of_step hstep
  have hunanswered := hrun.reachable.attended.unanswered hlookup
  cases hstanding with
  | refused hanswer => exact absurd (hunanswered.symm.trans hanswer) (by simp)
  | through hanswer => exact absurd (hunanswered.symm.trans hanswer) (by simp)
  | undecided himmediate hfound hnot halone =>
      subst himmediate
      obtain rfl := Option.some.inj (hlookup.symm.trans hfound)
      cases hproceeds with
      | turnedAway hclaimed =>
          obtain ⟨other, hclaims⟩ := hrun.exists_claims hclaimed
          refine .refused (answer?_reply_self ..) ?_ ?_ (halone.cons hstep fun _ => rfl)
          · rw [Entitled, claims_cons]
            rintro (⟨-, -, hunclaimed⟩ | hearlier)
            · exact Bool.false_ne_true (hunclaimed.symm.trans hclaimed)
            · exact hnot hearlier
          · exact .outrun (claims_cons.mpr (Or.inr hclaims))
      | claims hunclaimed =>
          exact .underway (lookup_goOn_self hlookup _) rfl
            (claims_cons.mpr (Or.inl ⟨rfl, hlookup, hunclaimed⟩))
      | answers hstage | waits hstage => exact absurd trivial hstage
  | underway hfound hunderway hentitled =>
      obtain rfl := Option.some.inj (hlookup.symm.trans hfound)
      have hkept : Entitled ((before, .proceed call) :: past) call drain := by
        cases drain with
        | true => exact finds_cons.mpr (Or.inr hentitled)
        | false => exact claims_cons.mpr (Or.inr hentitled)
      cases hproceeds with
      | turnedAway | claims => exact hunderway.elim
      | closes | cancels | passesOver =>
          exact .underway (lookup_goOn_self hlookup _) hunderway hkept
      | reports => exact .through (answer?_reply_self ..) hkept
      | answers hstage | waits hstage => exact absurd hunderway.shutsDown hstage

/-- Something is known of every call that has been made to shut the scheduler down. -/
theorem Run.standing (hrun : Run config cores past scheduler) (hasked : Asked past call drain) :
    Standing past scheduler call drain := by
  induction hrun with
  | start =>
      obtain ⟨state, hmem, -⟩ := hasked
      exact absurd hmem List.not_mem_nil
  | @step past before after hrun action hstep ih =>
      rcases asked_cons.mp hasked with ⟨rfl, rfl⟩ | hearlier
      · exact hrun.standing_of_request hstep
      -- Either it is the call that goes on, or somebody else does and it stands as before.
      · by_cases hof : before.IsStepOf call action
        · cases action with
          | request asked =>
              obtain rfl : before.nextCall = call := hof
              exact absurd (hrun.lt_next_of_asked hearlier) (Nat.lt_irrefl _)
          | proceed other =>
              obtain rfl : other = call := hof
              exact hrun.standing_of_proceed (ih hearlier) hstep
          | _ => exact hof.elim
        · exact (ih hearlier).cons hstep hof

/-! ## Coming to the end -/

/-- A call that is to shut the scheduler down waits for nobody. -/
theorem exists_step_of_shutsDown {stage : Call} (hlookup : scheduler.calls.lookup call = some stage)
    (hshuts : stage.ShutsDown) : ∃ after, scheduler.step (.proceed call) = some after := by
  simp only [step, hlookup]
  cases stage with
  | claiming =>
      simp only [proceed]
      split <;> exact ⟨_, rfl⟩
  | closing => exact ⟨_, rfl⟩
  | cancelling drain left done =>
      cases left with
      | nil => exact ⟨_, rfl⟩
      | cons task left =>
          simp only [proceed]
          split <;> exact ⟨_, rfl⟩
  | inserting | parked | removing => exact hshuts.elim

namespace Proceeds

theorem decided (hproceeds : before.Proceeds call .claiming after)
    (hlookup : before.calls.lookup call = some .claiming) :
    after.answer? call = some (.shutDown (.error .closed)) ∨
      after.calls.lookup call = some (.closing false) := by
  cases hproceeds with
  | turnedAway => exact Or.inl (answer?_reply_self ..)
  | claims => exact Or.inr (lookup_goOn_self hlookup _)
  | answers hstage | waits hstage => exact absurd trivial hstage

theorem closed (hproceeds : before.Proceeds call (.closing drain) after)
    (hlookup : before.calls.lookup call = some (.closing drain)) :
    ∃ left, after.calls.lookup call = some (.cancelling drain left []) := by
  cases hproceeds with
  | closes => exact ⟨_, lookup_goOn_self hlookup _⟩
  | answers hstage | waits hstage => exact absurd trivial hstage

theorem handled {task : TaskId} {left done : List TaskId}
    (hproceeds : before.Proceeds call (.cancelling drain (task :: left) done) after)
    (hlookup : before.calls.lookup call = some (.cancelling drain (task :: left) done)) :
    ∃ now, after.calls.lookup call = some (.cancelling drain left now) := by
  cases hproceeds with
  | cancels | passesOver => exact ⟨_, lookup_goOn_self hlookup _⟩
  | answers hstage | waits hstage => exact absurd trivial hstage

theorem told {done : List TaskId}
    (hproceeds : before.Proceeds call (.cancelling drain [] done) after) :
    after.answer? call = some (.shutDown (.ok done)) := by
  cases hproceeds with
  | reports => exact answer?_reply_self ..
  | answers hstage | waits hstage => exact absurd trivial hstage

end Proceeds

/-- An execution without end that goes on from a state, and in which a call that is to shut the
scheduler down gets its turn as long as it is in progress. -/
structure Unhindered (scheduler : Scheduler α) (course : ℕ → Scheduler α × Action α) : Prop where
  starts : (course 0).1 = scheduler
  steps : ∀ n, (course n).1.step (course n).2 = some (course (n + 1)).1
  turns : ∀ n call stage, (course n).1.calls.lookup call = some stage → stage.ShutsDown →
    ∃ m, n ≤ m ∧ (course m).2 = .proceed call

/-- The first steps of an execution, the newest first. -/
def trail (course : ℕ → Scheduler α × Action α) : ℕ → List (Scheduler α × Action α)
  | 0 => []
  | n + 1 => course n :: trail course n

variable {course : ℕ → Scheduler α × Action α}

theorem trail_add (course : ℕ → Scheduler α × Action α) (n count : ℕ) :
    ∃ later, trail course (n + count) = later ++ trail course n := by
  induction count with
  | zero => exact ⟨[], rfl⟩
  | succ count ih =>
      obtain ⟨later, hlater⟩ := ih
      exact ⟨course (n + count) :: later, congrArg (List.cons _) hlater⟩

namespace Unhindered

theorem run (hcourse : scheduler.Unhindered course) (hrun : Run config cores past scheduler)
    (n : ℕ) : Run config cores (trail course n ++ past) (course n).1 := by
  induction n with
  | zero => exact hcourse.starts.symm ▸ hrun
  | succ n ih => exact .step ih (course n).2 (hcourse.steps n)

/-- A call that waits for its turn stays as it is until then. -/
theorem exists_turn (hcourse : scheduler.Unhindered course)
    (hreachable : Reachable config cores scheduler) {n : ℕ} {stage : Call}
    (hlookup : (course n).1.calls.lookup call = some stage) (hshuts : stage.ShutsDown) :
    ∃ m, n ≤ m ∧ (course m).1.calls.lookup call = some stage ∧ (course m).2 = .proceed call := by
  obtain ⟨past, hrun⟩ := hreachable.exists_run
  obtain ⟨m, hle, hturn⟩ := hcourse.turns n call stage hlookup hshuts
  obtain ⟨count, rfl⟩ := Nat.exists_eq_add_of_le hle
  -- Induction on how many steps are left until the turn that is known to come.
  induction count generalizing n with
  | zero => exact ⟨n, Nat.le_refl n, hlookup, hturn⟩
  | succ count ih =>
      by_cases hnow : (course n).2 = .proceed call
      · exact ⟨n, Nat.le_refl n, hlookup, hnow⟩
      · have hlt := (hcourse.run hrun n).reachable.attended.lt_next hlookup
        have haside := aside_of_step (hcourse.steps n)
          (fun _ _ heq => absurd hlt (heq ▸ Nat.lt_irrefl _)) hnow
        have hshift : n + 1 + count = n + (count + 1) := by omega
        obtain ⟨m, hlater, hfound⟩ := ih (haside.1.trans hlookup) (by omega)
          (hshift.symm ▸ hturn)
        exact ⟨m, by omega, hfound⟩

/-- A call comes to its next step. -/
theorem exists_proceeds (hcourse : scheduler.Unhindered course)
    (hreachable : Reachable config cores scheduler) {n : ℕ} {stage : Call}
    (hlookup : (course n).1.calls.lookup call = some stage) (hshuts : stage.ShutsDown) :
    ∃ m, n < m ∧ ∃ before : Scheduler α, before.calls.lookup call = some stage ∧
      before.Proceeds call stage (course m).1 := by
  obtain ⟨m, hle, hfound, hturn⟩ := hcourse.exists_turn hreachable hlookup hshuts
  have hstep := hcourse.steps m
  rw [hturn] at hstep
  obtain ⟨same, hsame, hproceeds⟩ := proceeds_of_step hstep
  obtain rfl := Option.some.inj (hfound.symm.trans hsame)
  exact ⟨m + 1, by omega, _, hfound, hproceeds⟩

/-- Each task that a call has swept out of the queue takes it one step. -/
theorem exists_report (hcourse : scheduler.Unhindered course)
    (hreachable : Reachable config cores scheduler) {left done : List TaskId} {n : ℕ}
    (hlookup : (course n).1.calls.lookup call = some (.cancelling drain left done)) :
    ∃ m, n ≤ m ∧ ∃ list, (course m).1.answer? call = some (.shutDown (.ok list)) := by
  induction left generalizing n done with
  | nil =>
      obtain ⟨m, hlt, before, -, hproceeds⟩ :=
        hcourse.exists_proceeds hreachable hlookup trivial
      exact ⟨m, by omega, done, hproceeds.told⟩
  | cons task left ih =>
      obtain ⟨m, hlt, before, hfound, hproceeds⟩ :=
        hcourse.exists_proceeds hreachable hlookup trivial
      obtain ⟨now, hnext⟩ := hproceeds.handled hfound
      obtain ⟨last, hle, hanswer⟩ := ih hnext
      exact ⟨last, by omega, hanswer⟩

/-- A call that has been granted is told in the end what it has cancelled. -/
theorem exists_success (hcourse : scheduler.Unhindered course)
    (hreachable : Reachable config cores scheduler) {n : ℕ} {stage : Call}
    (hlookup : (course n).1.calls.lookup call = some stage) (hunderway : stage.Underway drain) :
    ∃ m, n ≤ m ∧ ∃ list, (course m).1.answer? call = some (.shutDown (.ok list)) := by
  cases stage with
  | closing other =>
      obtain ⟨m, hlt, before, hfound, hproceeds⟩ :=
        hcourse.exists_proceeds hreachable hlookup trivial
      obtain ⟨left, hnext⟩ := hproceeds.closed hfound
      obtain ⟨last, hle, hanswer⟩ := hcourse.exists_report hreachable hnext
      exact ⟨last, by omega, hanswer⟩
  | cancelling other left done => exact hcourse.exists_report hreachable hlookup
  | _ => exact hunderway.elim

/-- A call that is to shut the scheduler down is answered. -/
theorem exists_answer (hcourse : scheduler.Unhindered course)
    (hreachable : Reachable config cores scheduler) {n : ℕ} {stage : Call}
    (hlookup : (course n).1.calls.lookup call = some stage) (hshuts : stage.ShutsDown) :
    ∃ m, n ≤ m ∧ ∃ result, (course m).1.answer? call = some (.shutDown result) := by
  have hsuccess : ∀ {n : ℕ} {stage : Call} {drain : Bool},
      (course n).1.calls.lookup call = some stage → stage.Underway drain →
      ∃ m, n ≤ m ∧ ∃ result, (course m).1.answer? call = some (.shutDown result) := by
    intro n stage drain hlookup hunderway
    obtain ⟨m, hle, list, hanswer⟩ := hcourse.exists_success hreachable hlookup hunderway
    exact ⟨m, hle, .ok list, hanswer⟩
  cases stage with
  | claiming =>
      obtain ⟨m, hlt, before, hfound, hproceeds⟩ :=
        hcourse.exists_proceeds hreachable hlookup trivial
      rcases hproceeds.decided hfound with hanswer | hnext
      · exact ⟨m, by omega, _, hanswer⟩
      · have hunderway : (Call.closing false).Underway false := rfl
        obtain ⟨last, hle, hanswer⟩ := hsuccess hnext hunderway
        exact ⟨last, by omega, hanswer⟩
  | closing other | cancelling other => exact hsuccess hlookup rfl
  | inserting | parked | removing => exact hshuts.elim

end Unhindered

/-! ## Executions in which nobody is held up -/

/-- A call that is over is not among the calls any more, and no step of a call adds one. -/
theorem Proceeds.length_calls {stage : Call} (hproceeds : before.Proceeds call stage after)
    (hlookup : before.calls.lookup call = some stage) :
    after.calls.length ≤ before.calls.length ∧
      (after.calls.lookup call = none → after.calls.length < before.calls.length) := by
  have hreply : ∀ {state : Scheduler α} {answer : Answer}, state.calls = before.calls →
      (state.reply call answer).calls.length < before.calls.length := by
    intro state answer hcalls
    show (state.calls.filter fun other => other.1 != call).length < _
    rw [hcalls, List.length_filter_lt_length_iff_exists]
    exact ⟨_, mem_calls_of_lookup hlookup, by simp⟩
  have hgoOn : ∀ {state : Scheduler α} {next : Call}, state.calls = before.calls →
      (state.goOn call next).calls.length ≤ before.calls.length ∧
        ((state.goOn call next).calls.lookup call = none →
          (state.goOn call next).calls.length < before.calls.length) := by
    intro state next hcalls
    refine ⟨by simp [goOn, hcalls], fun hnone => ?_⟩
    rw [lookup_goOn_self (hcalls ▸ hlookup) next] at hnone
    cases hnone
  cases hproceeds with
  | turnedAway => exact ⟨Nat.le_of_lt (hreply rfl), fun _ => hreply rfl⟩
  | reports _ hfront | answers _ _ hfront =>
      exact ⟨Nat.le_of_lt (hreply (congrArg Front.calls hfront)),
        fun _ => hreply (congrArg Front.calls hfront)⟩
  | claims | closes | cancels | passesOver => exact hgoOn rfl
  | waits _ _ hfront => exact hgoOn (congrArg Front.calls hfront)

/-- A step can be put before an execution. -/
theorem Unhindered.cons (hcourse : after.Unhindered course)
    (hreachable : Reachable config cores before) (hstep : before.step action = some after) :
    before.Unhindered fun | 0 => (before, action) | n + 1 => course n where
  starts := rfl
  steps := by
    intro n
    cases n with
    | zero => exact hcourse.starts.symm ▸ hstep
    | succ n => exact hcourse.steps n
  turns := by
    intro n call stage hlookup hshuts
    cases n with
    | succ n =>
        obtain ⟨m, hle, hturn⟩ := hcourse.turns n call stage hlookup hshuts
        exact ⟨m + 1, Nat.succ_le_succ hle, hturn⟩
    | zero =>
        by_cases hnow : action = .proceed call
        · exact ⟨0, Nat.le_refl 0, hnow⟩
        · have hlt := hreachable.attended.lt_next hlookup
          have haside := aside_of_step hstep
            (fun _ _ heq => absurd hlt (heq ▸ Nat.lt_irrefl _)) hnow
          have hkept : (course 0).1.calls.lookup call = some stage := by
            rw [hcourse.starts]
            exact haside.1.trans hlookup
          obtain ⟨m, -, hturn⟩ := hcourse.turns 0 call stage hkept hshuts
          exact ⟨m + 1, Nat.zero_le _, hturn⟩

/-- Where nobody is to shut the scheduler down, nobody can be held up: the same observer can be
installed for ever. -/
theorem Reachable.exists_unhindered_of_quiet (hreachable : Reachable config cores scheduler)
    (hquiet : ∀ call stage, scheduler.calls.lookup call = some stage → ¬ stage.ShutsDown) :
    ∃ course, scheduler.Unhindered course := by
  let settled : Scheduler α :=
    { scheduler with agenda := { scheduler.agenda with observer? := some .calm } }
  have hsettled : settled.Unhindered fun _ => (settled, .observe .calm) :=
    ⟨rfl, fun _ => rfl,
      fun _ call stage hlookup hshuts => absurd hshuts (hquiet call stage hlookup)⟩
  have hobserve : scheduler.step (.observe .calm) = some settled := rfl
  exact ⟨_, hsettled.cons hreachable hobserve⟩

section Fewer

-- Calls are carried out one after the other, and so by induction on how many there are.
variable {bound : ℕ}
  (hfewer : ∀ fewer : Scheduler α, Reachable config cores fewer → fewer.calls.length < bound →
    ∃ course, fewer.Unhindered course)
include hfewer

/-- A call takes a step, and is over then or goes on. -/
theorem Reachable.exists_unhindered_of_step (hreachable : Reachable config cores scheduler)
    (hbound : scheduler.calls.length ≤ bound) {stage : Call}
    (hlookup : scheduler.calls.lookup call = some stage) (hshuts : stage.ShutsDown)
    (hgoOn : ∀ after : Scheduler α, Reachable config cores after → after.calls.length ≤ bound →
      scheduler.Proceeds call stage after → after.calls.lookup call ≠ none →
        ∃ course, after.Unhindered course) : ∃ course, scheduler.Unhindered course := by
  obtain ⟨after, hstep⟩ := exists_step_of_shutsDown hlookup hshuts
  obtain ⟨same, hsame, hproceeds⟩ := proceeds_of_step hstep
  obtain rfl := Option.some.inj (hlookup.symm.trans hsame)
  obtain ⟨hlength, hover⟩ := hproceeds.length_calls hlookup
  have hafter : Reachable config cores after := .step hreachable _ hstep
  suffices hlater : ∃ course, after.Unhindered course by
    obtain ⟨course, hcourse⟩ := hlater
    exact ⟨_, hcourse.cons hreachable hstep⟩
  by_cases hnone : after.calls.lookup call = none
  · exact hfewer after hafter (Nat.lt_of_lt_of_le (hover hnone) hbound)
  · exact hgoOn after hafter (Nat.le_trans hlength hbound) hproceeds hnone

theorem Reachable.exists_unhindered_of_cancelling {left done : List TaskId}
    (hreachable : Reachable config cores scheduler) (hbound : scheduler.calls.length ≤ bound)
    (hlookup : scheduler.calls.lookup call = some (.cancelling drain left done)) :
    ∃ course, scheduler.Unhindered course := by
  -- One step for each task that has been swept out, and then the report.
  induction left generalizing scheduler done with
  | nil =>
      refine hreachable.exists_unhindered_of_step hfewer hbound hlookup trivial ?_
      intro after _ _ hproceeds hnot
      cases hproceeds with
      | reports => exact absurd (lookup_reply_self ..) hnot
      | answers hstage | waits hstage => exact absurd trivial hstage
  | cons task left ih =>
      refine hreachable.exists_unhindered_of_step hfewer hbound hlookup trivial ?_
      intro after hafter hless hproceeds _
      obtain ⟨now, hnext⟩ := hproceeds.handled hlookup
      exact ih hafter hless hnext

theorem Reachable.exists_unhindered_of_closing (hreachable : Reachable config cores scheduler)
    (hbound : scheduler.calls.length ≤ bound)
    (hlookup : scheduler.calls.lookup call = some (.closing drain)) :
    ∃ course, scheduler.Unhindered course := by
  refine hreachable.exists_unhindered_of_step hfewer hbound hlookup trivial ?_
  intro after hafter hless hproceeds _
  obtain ⟨left, hnext⟩ := hproceeds.closed hlookup
  exact hafter.exists_unhindered_of_cancelling hfewer hless hnext

theorem Reachable.exists_unhindered_of_claiming (hreachable : Reachable config cores scheduler)
    (hbound : scheduler.calls.length ≤ bound)
    (hlookup : scheduler.calls.lookup call = some .claiming) :
    ∃ course, scheduler.Unhindered course := by
  refine hreachable.exists_unhindered_of_step hfewer hbound hlookup trivial ?_
  intro after hafter hless hproceeds hnot
  cases hproceeds with
  | turnedAway => exact absurd (lookup_reply_self ..) hnot
  | claims => exact hafter.exists_unhindered_of_closing hfewer hless (lookup_goOn_self hlookup _)
  | answers hstage | waits hstage => exact absurd trivial hstage

end Fewer

/-- Nobody needs to be held up. -/
theorem Reachable.exists_unhindered (hreachable : Reachable config cores scheduler) :
    ∃ course, scheduler.Unhindered course := by
  generalize hlength : scheduler.calls.length = length
  induction length using Nat.strongRecOn generalizing scheduler with
  | _ length ih =>
      -- A call that is answered leaves fewer calls, and that is all the induction is needed for.
      have hfewer : ∀ fewer : Scheduler α, Reachable config cores fewer →
          fewer.calls.length < length → ∃ course, fewer.Unhindered course :=
        fun fewer hfewer hlt => ih _ hlt hfewer rfl
      have hbound := Nat.le_of_eq hlength
      by_cases hquiet : ∀ call stage, scheduler.calls.lookup call = some stage → ¬ stage.ShutsDown
      · exact hreachable.exists_unhindered_of_quiet hquiet
      · simp only [not_forall, not_not] at hquiet
        obtain ⟨call, stage, hlookup, hshuts⟩ := hquiet
        cases stage with
        | claiming => exact hreachable.exists_unhindered_of_claiming hfewer hbound hlookup
        | closing => exact hreachable.exists_unhindered_of_closing hfewer hbound hlookup
        | cancelling => exact hreachable.exists_unhindered_of_cancelling hfewer hbound hlookup
        | inserting | parked | removing => exact hshuts.elim

/-! ## Who succeeds -/

/-- The call was made to shut the scheduler down, and has done so. -/
def Succeeds (past : List (Scheduler α × Action α)) (scheduler : Scheduler α) (call : CallId)
    (drain : Bool) : Prop :=
  Asked past call drain ∧ ∃ list, scheduler.answer? call = some (.shutDown (.ok list))

theorem Asked.append (hasked : Asked past call drain) (later : List (Scheduler α × Action α)) :
    Asked (later ++ past) call drain := by
  obtain ⟨state, hmem, hcall⟩ := hasked
  exact ⟨state, List.mem_append_right _ hmem, hcall⟩

/-- A call that has been answered has succeeded, or has been turned away. -/
theorem Run.standing_of_answer (hrun : Run config cores past scheduler)
    (hasked : Asked past call drain) {answer : Answer}
    (hanswer : scheduler.answer? call = some answer) :
    (Entitled past call drain ∧ ∃ list, answer = .shutDown (.ok list)) ∨
      (¬ Entitled past call drain ∧ Forestalled past call drain ∧ LeavesAlone past call ∧
        answer = .shutDown (.error .closed)) := by
  have hclosed := hrun.reachable.attended.closed call answer hanswer
  cases hrun.standing hasked with
  | undecided _ hlookup => exact absurd (hclosed.symm.trans hlookup) (by simp)
  | underway hlookup => exact absurd (hclosed.symm.trans hlookup) (by simp)
  | refused htold hnot hforestalled halone =>
      exact Or.inr ⟨hnot, hforestalled, halone, Option.some.inj (hanswer.symm.trans htold)⟩
  | @through list htold hentitled =>
      exact Or.inl ⟨hentitled, list, Option.some.inj (hanswer.symm.trans htold)⟩

theorem Run.entitled_of_succeeds (hrun : Run config cores past scheduler)
    (hsucceeds : Succeeds past scheduler call drain) : Entitled past call drain := by
  obtain ⟨hasked, list, hanswer⟩ := hsucceeds
  rcases hrun.standing_of_answer hasked hanswer with ⟨hentitled, -⟩ | ⟨-, -, -, hclosed⟩
  · exact hentitled
  · cases hclosed

theorem Run.entitled_unique (hrun : Run config cores past scheduler)
    (hfirst : Entitled past call drain) (hsecond : Entitled past other drain) : call = other := by
  cases drain with
  | true => exact hrun.finds_running_unique hfirst hsecond
  | false => exact hrun.claims_unique hfirst hsecond

theorem Run.asked_of_claims (hrun : Run config cores past scheduler)
    (hclaims : Claims past call) : Asked past call false := by
  obtain ⟨state, hmem, hlookup, -⟩ := hclaims
  obtain ⟨later, earlier, rfl⟩ := List.append_of_mem hmem
  obtain ⟨hasked, -⟩ := (hrun.at_step.1.recorded call).in_progress .claiming hlookup
  exact (hasked.cons _ _).append later

theorem Run.succeeds_of_claims (hrun : Run config cores past scheduler)
    (hclaims : Claims past call) :
    (∃ stage, scheduler.calls.lookup call = some stage ∧ stage.Underway false) ∨
      Succeeds past scheduler call false := by
  have hasked := hrun.asked_of_claims hclaims
  cases hrun.standing hasked with
  | undecided _ _ hnot | refused _ hnot => exact absurd hclaims hnot
  | underway hlookup hunderway => exact Or.inl ⟨_, hlookup, hunderway⟩
  | through htold => exact Or.inr ⟨hasked, _, htold⟩

/-- Who has been turned away while the scheduler had not stopped has been outrun. -/
theorem Run.exists_rival (hrun : Run config cores past scheduler)
    (hfinds : Finds past call false stage) (hnot : stage ≠ .stopped)
    (hanswer : scheduler.answer? call = some (.shutDown (.error .closed))) :
    ∃ rival, rival ≠ call ∧ Claims past rival := by
  rcases hrun.standing_of_answer hfinds.asked hanswer with ⟨-, list, heq⟩ | ⟨hbarred, hwhy, -⟩
  · cases heq
  · cases hwhy with
    | late hstopped => exact absurd (hrun.finds_unique hfinds hstopped) hnot
    | @outrun rival hclaims =>
        refine ⟨rival, ?_, hclaims⟩
        rintro rfl
        exact hbarred hclaims

/-- The queue has been closed for good by the time at which an immediate shutdown returns. -/
theorem Run.closed_of_succeeds (hrun : Run config cores past scheduler)
    (hsucceeds : Succeeds past scheduler call false) {later : Scheduler α}
    (hleads : scheduler.Leads later) : later.agenda.queue.admission = .closed := by
  obtain ⟨hasked, list, hanswer⟩ := hsucceeds
  obtain ⟨drain, hsweeping⟩ := (hrun.recorded call).answered list hanswer
  obtain rfl := hrun.asked_unique hasked hsweeping.asked
  obtain ⟨origin, -, hmem, hclosing, -⟩ := hsweeping.swept
  obtain ⟨further, hfinal⟩ := hleads.exists_run hrun
  obtain ⟨latest, earlier, hsplit⟩ := List.append_of_mem (List.mem_append_right further hmem)
  rw [hsplit] at hfinal
  refine hfinal.ever_after (p := fun state => state.agenda.queue.admission = .closed) ?_
    fun _ _ _ _ hsound hclosed hmove => hmove.closed_of_closed hsound hclosed
  intro after hstep
  rw [step_closing hclosing] at hstep
  obtain rfl := Option.some.inj hstep
  show (origin.agenda.queue.close false).1.admission = .closed
  simp [Queue.close]

/-- Whoever is to shut the scheduler down gets an answer. -/
theorem Unhindered.answers (hcourse : scheduler.Unhindered course)
    (hrun : Run config cores past scheduler) (hasked : Asked past call drain) :
    ∃ n answer, (course n).1.answer? call = some answer := by
  have hlater : ∀ {stage : Call}, scheduler.calls.lookup call = some stage → stage.ShutsDown →
      ∃ n answer, (course n).1.answer? call = some answer := by
    intro stage hlookup hshuts
    rw [← hcourse.starts] at hlookup
    obtain ⟨n, -, result, hanswer⟩ := hcourse.exists_answer hrun.reachable hlookup hshuts
    exact ⟨n, _, hanswer⟩
  cases hrun.standing hasked with
  | undecided _ hlookup => exact hlater hlookup trivial
  | underway hlookup hunderway => exact hlater hlookup hunderway.shutsDown
  | refused hanswer | through hanswer => exact ⟨0, _, hcourse.starts.symm ▸ hanswer⟩

/-- Whoever has claimed the immediate shutdown succeeds. -/
theorem Unhindered.exists_succeeds (hcourse : scheduler.Unhindered course)
    (hrun : Run config cores past scheduler) {n : ℕ}
    (hclaims : Claims (trail course n ++ past) call) :
    ∃ m, Succeeds (trail course m ++ past) (course m).1 call false := by
  have hmiddle := hcourse.run hrun n
  rcases hmiddle.succeeds_of_claims hclaims with ⟨stage, hlookup, hunderway⟩ | hsucceeds
  · obtain ⟨m, hle, hanswer⟩ := hcourse.exists_success hrun.reachable hlookup hunderway
    obtain ⟨count, rfl⟩ := Nat.exists_eq_add_of_le hle
    obtain ⟨later, hlater⟩ := trail_add course n count
    refine ⟨n + count, ?_, hanswer⟩
    rw [hlater, List.append_assoc]
    exact (hmiddle.asked_of_claims hclaims).append later
  · exact ⟨n, hsucceeds⟩

/-- A call that is to shut the scheduler down at once, and comes before it has stopped, succeeds
unless another one does. -/
theorem Unhindered.succeeds_or_other (hcourse : scheduler.Unhindered course)
    (hrun : Run config cores past scheduler) (hfinds : Finds past call false stage)
    (hnot : stage ≠ .stopped) :
    ∃ n, Succeeds (trail course n ++ past) (course n).1 call false ∨
      ∃ other, other ≠ call ∧ Succeeds (trail course n ++ past) (course n).1 other false := by
  obtain ⟨n, answer, hanswer⟩ := hcourse.answers hrun hfinds.asked
  have hmiddle := hcourse.run hrun n
  have hlater := hfinds.append (trail course n)
  rcases hmiddle.standing_of_answer hlater.asked hanswer with
    ⟨-, list, rfl⟩ | ⟨-, -, -, rfl⟩
  · exact ⟨n, Or.inl ⟨hlater.asked, list, hanswer⟩⟩
  · obtain ⟨rival, hne, hclaims⟩ := hmiddle.exists_rival hlater hnot hanswer
    obtain ⟨m, hsucceeds⟩ := hcourse.exists_succeeds hrun hclaims
    exact ⟨m, Or.inr ⟨rival, hne, hsucceeds⟩⟩

/-- What the answers to shutdowns have in common at any time. -/
structure Resolved (past : List (Scheduler α × Action α)) (scheduler : Scheduler α) : Prop where
  once : ∀ drain call other, Succeeds past scheduler call drain →
    Succeeds past scheduler other drain → call = other
  endsRunning : ∀ call, Succeeds past scheduler call true → EndsRunning past call true
  outrun : ∀ call stage, Finds past call false stage → stage ≠ .stopped →
    scheduler.answer? call = some (.shutDown (.error .closed)) →
      ∃ other, other ≠ call ∧ Asked past other false ∧
        ((∃ stage, scheduler.calls.lookup other = some stage ∧ stage.Underway false) ∨
          Succeeds past scheduler other false)
  refused : ∀ call drain answer, Asked past call drain → scheduler.answer? call = some answer →
    ¬ Succeeds past scheduler call drain →
      answer = .shutDown (.error .closed) ∧ LeavesAlone past call
  closed : ∀ call, Succeeds past scheduler call false → ∀ later, scheduler.Leads later →
    later.agenda.queue.admission = .closed

/-- At any time at most one shutdown of each kind has succeeded.  One that drains has done so
only if it has ended the running of the scheduler; from the return of one that does not on, the
queue is closed.  All others have been turned away, and have not touched anything.

No shutdown waits for anybody, and so there are executions in which each gets its turn.  In
these all of them are answered, and one that is not to drain succeeds unless another one does,
if it comes before the scheduler has stopped. -/
theorem Run.shutdowns_resolved (hrun : Run config cores past scheduler) :
    Resolved past scheduler ∧
    (∀ call stage, scheduler.calls.lookup call = some stage → stage.ShutsDown →
      ∃ after, scheduler.step (.proceed call) = some after) ∧
    (∃ course, scheduler.Unhindered course) ∧
    ∀ course, scheduler.Unhindered course →
      (∀ call drain, Asked past call drain →
        ∃ n answer, (course n).1.answer? call = some answer) ∧
      ∀ call stage, Finds past call false stage → stage ≠ .stopped →
        ∃ n, Succeeds (trail course n ++ past) (course n).1 call false ∨
          ∃ other, other ≠ call ∧
            Succeeds (trail course n ++ past) (course n).1 other false := by
  refine ⟨⟨?_, ?_, ?_, ?_, ?_⟩, fun call stage hlookup => exists_step_of_shutsDown hlookup,
    hrun.reachable.exists_unhindered, ?_⟩
  · intro drain call other hfirst hsecond
    exact hrun.entitled_unique (hrun.entitled_of_succeeds hfirst)
      (hrun.entitled_of_succeeds hsecond)
  · intro call hsucceeds
    exact hrun.endsRunning (hrun.entitled_of_succeeds hsucceeds)
  · intro call stage hfinds hnot hanswer
    obtain ⟨rival, hne, hclaims⟩ := hrun.exists_rival hfinds hnot hanswer
    exact ⟨rival, hne, hrun.asked_of_claims hclaims, hrun.succeeds_of_claims hclaims⟩
  · intro call drain answer hasked hanswer hnot
    rcases hrun.standing_of_answer hasked hanswer with ⟨-, list, rfl⟩ | ⟨-, -, halone, hclosed⟩
    · exact absurd ⟨hasked, list, hanswer⟩ hnot
    · exact ⟨hclosed, halone⟩
  · intro call hsucceeds later hleads
    exact hrun.closed_of_succeeds hsucceeds hleads
  · intro course hcourse
    refine ⟨fun call drain hasked => hcourse.answers hrun hasked, fun call stage hfinds hnot => ?_⟩
    exact hcourse.succeeds_or_other hrun hfinds hnot

/-- A shutdown that drains is followed by two that do not and another one that does.  The second
of the two is the first to claim, and closes the queue before the first call of all does: the
queue stays closed.  The first call and the third succeed; the second has been outrun. -/
theorem shutdowns_resolved_of_four_calls :
    ∃ (past : List (Scheduler Unit × Action Unit)) (scheduler : Scheduler Unit),
      Run {} 1 past scheduler ∧ Succeeds past scheduler 1 true ∧ EndsRunning past 1 true ∧
        Succeeds past scheduler 3 false ∧ scheduler.agenda.queue.admission = .closed ∧
        Finds past 2 false .shuttingDown ∧ ¬ Succeeds past scheduler 2 false ∧
        LeavesAlone past 2 ∧ Finds past 4 true .shuttingDown ∧ LeavesAlone past 4 ∧
        ∃ course, scheduler.Unhindered course := by
  have hview : ((played {} 1
      [.request (.schedule (plainTask .oneShot (.ofSeconds 3)) true), .proceed 0,
        .request (.shutdown true), .request (.shutdown false), .request (.shutdown false),
        .proceed 3, .request (.shutdown true), .proceed 2, .proceed 3, .proceed 1, .proceed 3,
        .proceed 1, .proceed 3]).map fun result =>
        ((result.2.answer? 1, result.2.answer? 3), (result.2.answer? 2, result.2.answer? 4),
          [decide (Finds result.1 1 true .running), decide (Finds result.1 3 false .shuttingDown),
            decide (Finds result.1 2 false .shuttingDown),
            decide (Finds result.1 4 true .shuttingDown)])) =
      some ((some (.shutDown (.ok [])), some (.shutDown (.ok [0]))),
        (some (.shutDown (.error .closed)), some (.shutDown (.error .closed))),
        [true, true, true, true]) := by
    decide +kernel
  obtain ⟨⟨past, scheduler⟩, hplayed, hparts⟩ := Option.map_eq_some_iff.mp hview
  simp only [Prod.mk.injEq, List.cons.injEq, decide_eq_true_eq, and_true] at hparts
  obtain ⟨⟨hdrained, hhastened⟩, ⟨houtrun, hlate⟩, hfirst, hthird, hsecond, hfourth⟩ := hparts
  have hrun := Run.of_played hplayed
  obtain ⟨hresolved, -, hcourse, -⟩ := hrun.shutdowns_resolved
  have hdrains : Succeeds past scheduler 1 true := ⟨hfirst.asked, _, hdrained⟩
  have hhastens : Succeeds past scheduler 3 false := ⟨hthird.asked, _, hhastened⟩
  -- An answer that turns a call away is no success.
  have hnot : ∀ {call drain}, scheduler.answer? call = some (.shutDown (.error .closed)) →
      ¬ Succeeds past scheduler call drain := by
    rintro call drain hclosed ⟨-, list, hlist⟩
    cases hclosed.symm.trans hlist
  exact ⟨past, scheduler, hrun, hdrains, hresolved.endsRunning 1 hdrains, hhastens,
    hresolved.closed 3 hhastens scheduler .refl, hsecond, hnot houtrun,
    (hresolved.refused 2 false _ hsecond.asked houtrun (hnot houtrun)).2, hfourth,
    (hresolved.refused 4 true _ hfourth.asked hlate (hnot hlate)).2, hcourse⟩

end Scheduler

end TimedTasks
