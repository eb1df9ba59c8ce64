import TimedTasks.Proofs.Scheduler.Answering
import TimedTasks.Proofs.Scheduler.Muting

/-!
# Failures stay where they are

Two runs go together (`Paired`) if they take the same steps, with tasks whose bodies do the same
but may end in different ways, and with different observers.  If failures are not to stop periodic
tasks, the two schedulers are the same once they are muted, since a step of a scheduler and of the
muted scheduler come to the same (`Scheduler.step_muted`).

That leaves open whether a one-shot task that has come to its end by itself has completed or
failed.  But whoever is in a body does what the script says for the last run of the task, and the
number of this run is not muted.  So a task whose bodies end in the same way in both runs has the
same endings in both (`Paired.endings_eq`), and it has completed in both or failed in both.
-/

namespace TimedTasks

/-- States that are the same without failures are the same, or one task has completed where the
other has failed. -/
theorem TaskState.eq_or_of_muted_eq {periodic : Bool} {first second : TaskState}
    (hmuted : first.muted periodic = second.muted periodic) :
    first = second ∨ periodic = false ∧
      (first = .completed ∧ second = .failed ∨ first = .failed ∧ second = .completed) := by
  cases periodic <;> cases first <;> cases second <;> simp_all [muted]

/-- Records that differ in nothing but in how the runs of the task have ended, and will end. -/
structure Record.DiffersInEndings {α : Type} (record twin : Record α) : Prop where
  name_eq : record.name = twin.name
  schedule_eq : record.schedule = twin.schedule
  due_eq : record.nextRunAt = twin.nextRunAt
  runs_eq : record.runs = twin.runs
  bodySpent_eq : record.bodySpent = twin.bodySpent
  hasResult_eq : record.result?.isSome = twin.result?.isSome
  state : record.state = twin.state ∨ record.isPeriodic = false ∧
    (record.state = .completed ∧ twin.state = .failed ∨
      record.state = .failed ∧ twin.state = .completed)

theorem Record.differsInEndings_of_muted_eq {α : Type} {record twin : Record α}
    (hmuted : record.muted = twin.muted) : record.DiffersInEndings twin := by
  have hschedule : record.schedule = twin.schedule :=
    congrArg (fun quiet : Record Unit => quiet.schedule) hmuted
  have hresult := congrArg (fun quiet : Record Unit => quiet.result?.isSome) hmuted
  have hstate := congrArg (fun quiet : Record Unit => quiet.state) hmuted
  simp only [muted, Option.isSome_map, isPeriodic, ← hschedule] at hresult hstate
  exact {
    name_eq := congrArg (fun quiet : Record Unit => quiet.name) hmuted
    schedule_eq := hschedule
    due_eq := congrArg (fun quiet : Record Unit => quiet.nextRunAt) hmuted
    runs_eq := congrArg (fun quiet : Record Unit => quiet.runs) hmuted
    bodySpent_eq := congrArg (fun quiet : Record Unit => quiet.bodySpent) hmuted
    hasResult_eq := hresult
    state := TaskState.eq_or_of_muted_eq hstate }

namespace Scheduler

variable {α : Type} {first second after : Scheduler α} {action same : Action α}
variable {past other : List (Scheduler α × Action α)} {config : Config} {cores : Nat}
variable {task : TaskId}

/-- Two runs of the same steps that differ in the endings of bodies and in what observers there
are. -/
inductive Paired (config : Config) (cores : Nat) :
    List (Scheduler α × Action α) → Scheduler α → List (Scheduler α × Action α) → Scheduler α → Prop
  | start {first second : Scheduler α} (hfirst : new config cores = .ok first)
      (hsecond : new config cores = .ok second) : Paired config cores [] first [] second
  | step {past other : List (Scheduler α × Action α)} {first second after next : Scheduler α}
      (hpaired : Paired config cores past first other second) {action same : Action α}
      (haction : action.muted = same.muted) (hfirst : first.step action = some after)
      (hsecond : second.step same = some next) :
      Paired config cores ((first, action) :: past) after ((second, same) :: other) next
  | observedFirst {past other : List (Scheduler α × Action α)} {first second after : Scheduler α}
      (hpaired : Paired config cores past first other second) {observer : Observer}
      (hfirst : first.step (.observe observer) = some after) :
      Paired config cores ((first, .observe observer) :: past) after other second
  | observedSecond {past other : List (Scheduler α × Action α)} {first second next : Scheduler α}
      (hpaired : Paired config cores past first other second) {observer : Observer}
      (hsecond : second.step (.observe observer) = some next) :
      Paired config cores past first ((second, .observe observer) :: other) next

namespace Paired

theorem left (hpaired : Paired config cores past first other second) :
    Run config cores past first := by
  induction hpaired with
  | start hfirst => exact .start hfirst
  | step _ _ hfirst _ ih => exact ih.step _ hfirst
  | observedFirst _ hfirst ih => exact ih.step _ hfirst
  | observedSecond _ _ ih => exact ih

theorem symm (hpaired : Paired config cores past first other second) :
    Paired config cores other second past first := by
  induction hpaired with
  | start hfirst hsecond => exact .start hsecond hfirst
  | step _ haction hfirst hsecond ih => exact .step ih haction.symm hsecond hfirst
  | observedFirst _ hfirst ih => exact .observedSecond ih hfirst
  | observedSecond _ hsecond ih => exact .observedFirst ih hsecond

theorem right (hpaired : Paired config cores past first other second) :
    Run config cores other second := hpaired.symm.left

/-- All that the two runs differ in is muted. -/
theorem muted_eq (hpaired : Paired config cores past first other second)
    (hpolicy : config.policy = .keepGoing) : first.muted = second.muted := by
  induction hpaired with
  | start hfirst hsecond => rw [new_eq_ok hfirst, new_eq_ok hsecond]
  | step hpaired haction hfirst hsecond ih =>
      have hkeepGoing := hpaired.left.reachable.policy_eq.trans hpolicy
      have hstep := muted_step_eq hkeepGoing ih haction
      rw [hfirst, hsecond] at hstep
      exact Option.some.inj hstep
  | observedFirst _ hfirst ih => exact (observe_muted _ hfirst).trans ih
  | observedSecond _ hsecond ih => exact ih.trans (observe_muted _ hsecond).symm

theorem of_replay {actions sames : List (Action α)}
    {left right : List (Scheduler α × Action α) × Scheduler α}
    (hpaired : Paired config cores past first other second)
    (hactions : actions.map Action.muted = sames.map Action.muted)
    (hfirst : replay past first actions = some left)
    (hsecond : replay other second sames = some right) :
    Paired config cores left.1 left.2 right.1 right.2 := by
  induction actions generalizing past first other second sames with
  | nil =>
      obtain rfl := List.map_eq_nil_iff.mp hactions.symm
      obtain rfl := Option.some.inj hfirst
      obtain rfl := Option.some.inj hsecond
      exact hpaired
  | cons action rest ih =>
      obtain ⟨same, others, rfl, hsame, hothers⟩ := List.map_eq_cons_iff.mp hactions.symm
      unfold replay at hfirst hsecond
      split at hfirst
      · split at hsecond
        · rename_i after hleft _ next hright
          exact ih (.step hpaired hsame.symm hleft hright) hothers.symm hfirst hsecond
        · simp at hsecond
      · simp at hfirst

end Paired

/-! ## Endings -/

/-- Whether a body panics when it comes to submit a task, as it cannot read the clock. -/
def Balks (scheduler : Scheduler α) (turn : Turn α) (agenda : Agenda α) : Prop :=
  turn.submit?.isSome = true ∧ scheduler.lifecycle.ensureRunning = .ok () ∧
    agenda.clock.isReadable = false

instance (scheduler : Scheduler α) (turn : Turn α) (agenda : Agenda α) :
    Decidable (scheduler.Balks turn agenda) := inferInstanceAs (Decidable (_ ∧ _ ∧ _))

theorem submitNow_oneShot_eq_error {name : String} {delay : Span} {script : Script α}
    {fault : ClockFault} :
    first.submitNow { name, schedule := .oneShot, delay, script } = .error fault ↔
      first.lifecycle.ensureRunning = .ok () ∧ first.agenda.clock.isReadable = false ∧
        .momentOverflow = fault := by
  rw [submitNow_eq_error, firstDue_eq_error]
  exact and_iff_right rfl

/-- A body ends as its script says, unless it cannot move the clock, or read it to submit a
task. -/
theorem perform_snd (scheduler : Scheduler α) (turn : Turn α) :
    (scheduler.perform turn).2 =
      match scheduler.agenda.passTime turn.advance? with
      | .error fault => .panic (.shown fault.message)
      | .ok agenda =>
        if scheduler.Balks turn agenda then .panic (.shown ClockFault.momentOverflow.message)
        else turn.ending := by
  unfold perform
  cases scheduler.agenda.passTime turn.advance? with
  | error fault => rfl
  | ok agenda =>
      dsimp only
      cases hsubmit : turn.submit? with
      | none => simp [Balks, hsubmit]
      | some submission =>
          obtain ⟨name, delay, script⟩ := submission
          -- A cancellation leaves the lifecycle and the clock alone.
          have hafter : ∀ middle : Scheduler α, middle.lifecycle = scheduler.lifecycle →
              middle.agenda.clock = agenda.clock →
              (match middle.submitNow { name, schedule := .oneShot, delay, script } with
                | .error fault => Ending.panic (.shown fault.message)
                | .ok _ => turn.ending) =
              if scheduler.Balks turn agenda then .panic (.shown ClockFault.momentOverflow.message)
              else turn.ending := by
            intro middle hlifecycle hclock
            cases hresult : middle.submitNow { name, schedule := .oneShot, delay, script } with
            | error fault =>
                obtain ⟨hrunning, hunreadable, rfl⟩ := submitNow_oneShot_eq_error.mp hresult
                rw [if_pos ⟨by simp [hsubmit], hlifecycle ▸ hrunning, hclock ▸ hunreadable⟩]
            | ok submitted =>
                refine (if_neg fun hbalks => ?_).symm
                rw [submitNow_oneShot_eq_error.mpr
                  ⟨hlifecycle ▸ hbalks.2.1, hclock ▸ hbalks.2.2, rfl⟩] at hresult
                simp at hresult
          cases turn.cancel?.bind (Scheduler.named? { scheduler with agenda }) with
          | none =>
              rw [← hafter { scheduler with agenda } rfl rfl]
              dsimp only
              cases Scheduler.submitNow { scheduler with agenda }
                { name, schedule := .oneShot, delay, script } <;> rfl
          | some task =>
              dsimp only
              have hcancel := cancelNow_cases { scheduler with agenda } task
              generalize Scheduler.cancelNow { scheduler with agenda } task = middle at hcancel ⊢
              have hsame : middle.lifecycle = scheduler.lifecycle ∧
                  middle.agenda.clock = agenda.clock := by
                rcases hcancel with rfl | ⟨record, -, -, rfl⟩
                · exact ⟨rfl, rfl⟩
                · exact ⟨rfl, rfl⟩
              rw [← hafter middle hsame.1 hsame.2]
              cases middle.submitNow { name, schedule := .oneShot, delay, script } <;> rfl

/-- Whether a body can move the clock is the same in both runs, and so is how it ends, if its
script says so. -/
theorem perform_snd_eq (hmuted : first.muted = second.muted) {turn twin : Turn α}
    (hturn : turn.muted = twin.muted) (hending : turn.ending = twin.ending) :
    (first.perform turn).2 = (second.perform twin).2 := by
  have hadvance : turn.advance? = twin.advance? := by
    rw [← turn.muted_advance?, hturn, twin.muted_advance?]
  have hpass := (first.agenda.passTime_muted turn.advance?).symm
  rw [show first.agenda.muted = second.agenda.muted from congrArg Scheduler.agenda hmuted,
    Agenda.passTime_muted, hadvance] at hpass
  rw [perform_snd, perform_snd, hadvance, hending]
  cases hfirst : first.agenda.passTime twin.advance? with
  | error fault =>
      cases hsecond : second.agenda.passTime twin.advance? with
      | error same =>
          rw [hfirst, hsecond] at hpass
          rw [show fault = same from Except.error.inj hpass]
      | ok agenda =>
          rw [hfirst, hsecond] at hpass
          simp [Except.map] at hpass
  | ok agenda =>
      cases hsecond : second.agenda.passTime twin.advance? with
      | error same =>
          rw [hfirst, hsecond] at hpass
          simp [Except.map] at hpass
      | ok found =>
          rw [hfirst, hsecond] at hpass
          have hclock : agenda.clock = found.clock :=
            congrArg (fun quiet : Agenda Unit => quiet.clock) (Except.ok.inj hpass)
          have hlifecycle : first.lifecycle = second.lifecycle :=
            congrArg (fun quiet : Scheduler Unit => quiet.lifecycle) hmuted
          have hsubmit : turn.submit?.isSome = twin.submit?.isSome := by
            have hsame := congrArg (fun quiet : Turn Unit => quiet.submit?.isSome) hturn
            simpa using hsame
          have hbalks : first.Balks turn agenda ↔ second.Balks twin found := by
            rw [Balks, Balks, hclock, hlifecycle, hsubmit]
          simp only [hbalks]

/-- The records of a task end their bodies in the same ways. -/
def EndsAlike (first second : Scheduler α) (task : TaskId) : Prop :=
  ∀ record twin, first.record? task = some record → second.record? task = some twin →
    ∀ run, (record.script run).ending = (twin.script run).ending

theorem EndsAlike.symm (halike : EndsAlike first second task) : EndsAlike second first task :=
  fun record twin hrecord htwin run => (halike twin record htwin hrecord run).symm

theorem records_muted_eq (hmuted : first.muted = second.muted) (task : TaskId) :
    (first.record? task).map Record.muted = (second.record? task).map Record.muted := by
  rw [← first.record?_muted, hmuted, second.record?_muted]

theorem differsInEndings_of_muted_eq (hmuted : first.muted = second.muted) {record twin : Record α}
    (hrecord : first.record? task = some record) (htwin : second.record? task = some twin) :
    record.DiffersInEndings twin := by
  have hrecords := records_muted_eq hmuted task
  rw [hrecord, htwin] at hrecords
  exact Record.differsInEndings_of_muted_eq (Option.some.inj hrecords)

/-- If the body of a task ends in one run, it ends in the other one, and in the same way if the
task ends its bodies in the same ways. -/
theorem ends?_of_alike (hmuted : first.muted = second.muted) (haction : action.muted = same.muted)
    (hfirst : first.Scripted) (hsecond : second.Scripted) (halike : EndsAlike first second task)
    {ending : Ending α} (hends : first.ends? action = some (task, ending)) :
    second.ends? same = some (task, ending) := by
  obtain ⟨worker, job, turn, rfl, hfind, rfl, hstage, hpasses, rfl⟩ := exists_inside_of_ends? hends
  obtain rfl := Action.eq_work_of_muted haction.symm
  have hfound := congrArg (fun state => state.jobs.find? fun job => job.worker == worker) hmuted
  simp only [find?_muted, hfind, Option.map_some] at hfound
  obtain ⟨twin, htwin, hjob⟩ := Option.map_eq_some_iff.mp hfound.symm
  have htask : twin.task = job.task := congrArg (fun quiet : Job Unit => quiet.task) hjob
  have htwinStage : twin.stage.muted = .inside (some turn.muted) := by
    rw [show twin.stage.muted = job.stage.muted from
      congrArg (fun quiet : Job Unit => quiet.stage) hjob, hstage]
    rfl
  obtain ⟨other, hother, hturn⟩ := Stage.eq_inside_of_muted htwinStage
  -- Both are in the run with the same number.
  obtain ⟨record, hrecord, hscript⟩ := hfirst job (List.mem_of_find?_eq_some hfind) _ hstage
  obtain ⟨found, hfound, hsame⟩ := hsecond twin (List.mem_of_find?_eq_some htwin) _ hother
  rw [htask] at hfound
  have hruns := (differsInEndings_of_muted_eq hmuted hrecord hfound).runs_eq
  have hending : turn.ending = other.ending := by
    rw [Option.some.inj hscript, Option.some.inj hsame, ← hruns]
    exact halike record found hrecord hfound _
  have hopen : second.passesGate other = true := by
    rw [← second.passesGate_muted, ← hmuted, hturn, first.passesGate_muted, hpasses]
  rw [ends?_of_inside htwin hother hopen, htask, perform_snd_eq hmuted hturn.symm hending]

/-- Scripts do not change, so a task has always ended its bodies in the same ways. -/
theorem EndsAlike.of_evolve {next : Scheduler α} (halike : EndsAlike after next task)
    (hfirst : RecordsEvolve first after) (hsecond : RecordsEvolve second next) :
    EndsAlike first second task := by
  intro record twin hrecord htwin run
  obtain ⟨later, hlater, hevolves⟩ := hfirst task record hrecord
  obtain ⟨found, hfound, hsame⟩ := hsecond task twin htwin
  rw [← hevolves.script_eq, ← hsame.script_eq]
  exact halike later found hlater hfound run

/-- A task that ends its bodies in the same ways has ended the same runs in the same ways. -/
theorem Paired.endings_eq (hpaired : Paired config cores past first other second)
    (hpolicy : config.policy = .keepGoing) (halike : EndsAlike first second task) :
    endings past task = endings other task := by
  induction hpaired with
  | start => rfl
  | @step past other first second after next hpaired action same haction hfirst hsecond ih =>
      have hleft := hpaired.left.reachable
      have hright := hpaired.right.reachable
      have hmuted := hpaired.muted_eq hpolicy
      have hbefore := halike.of_evolve (hleft.sound.recordsEvolve_of_step hfirst)
        (hright.sound.recordsEvolve_of_step hsecond)
      -- A body ends on one side exactly if it does on the other, and by the script in the same
      -- way.
      by_cases hends : ∃ ending, first.ends? action = some (task, ending)
      · obtain ⟨ending, hends⟩ := hends
        have hsame := ends?_of_alike hmuted haction hleft.scripted hright.scripted hbefore hends
        rw [endings_of_ends hends, endings_of_ends hsame, ih hbefore]
      · have hnot : ∀ ending, second.ends? same ≠ some (task, ending) := fun ending hsame =>
          hends ⟨ending, ends?_of_alike hmuted.symm haction.symm hright.scripted hleft.scripted
            hbefore.symm hsame⟩
        rw [endings_of_not (not_exists.mp hends), endings_of_not hnot, ih hbefore]
  | @observedFirst _ _ _ second _ hpaired observer hfirst ih =>
      have hbefore := halike.of_evolve (hpaired.left.reachable.sound.recordsEvolve_of_step hfirst)
        (.refl second)
      rw [endings_of_not fun _ => by simp [ends?], ih hbefore]
  | @observedSecond _ _ first _ _ hpaired observer hsecond ih =>
      have hbefore := halike.of_evolve (.refl first)
        (hpaired.right.reachable.sound.recordsEvolve_of_step hsecond)
      rw [endings_of_not fun _ => by simp [ends?], ih hbefore]

theorem Answers.not_failed {ending? : Option (Ending α)} {record twin : Record α}
    (hrecord : Answers ending? task first record) (htwin : Answers ending? task second twin)
    (hcompleted : record.state = .completed) : twin.state ≠ .failed := by
  intro hfailed
  obtain ⟨value, rfl⟩ := hrecord.completed hcompleted
  obtain ⟨ending, error, hsome, herror⟩ := htwin.failed hfailed
  obtain rfl := Option.some.inj hsome
  simp [Ending.error?] at herror

/-- A task whose bodies end in the same ways is in the same state in both runs. -/
theorem Paired.state_eq (hpaired : Paired config cores past first other second)
    (hpolicy : config.policy = .keepGoing) {record twin : Record α}
    (hrecord : first.record? task = some record) (htwin : second.record? task = some twin)
    (halike : ∀ run, (record.script run).ending = (twin.script run).ending) :
    record.state = twin.state := by
  have hdiffers := differsInEndings_of_muted_eq (hpaired.muted_eq hpolicy) hrecord htwin
  refine hdiffers.state.elim id fun ⟨honce, hsplit⟩ => ?_
  have htwinOnce : twin.isPeriodic = false := by
    rw [← honce, Record.isPeriodic, Record.isPeriodic, hdiffers.schedule_eq]
  have honly : ∀ found, first.record? task = some found → found.isPeriodic = false :=
    fun found hfound => by rwa [Option.some.inj (hfound.symm.trans hrecord)]
  have htwinOnly : ∀ found, second.record? task = some found → found.isPeriodic = false :=
    fun found hfound => by rwa [Option.some.inj (hfound.symm.trans htwin)]
  have hendsAlike : EndsAlike first second task := fun found same hfound hsame => by
    rwa [Option.some.inj (hfound.symm.trans hrecord), Option.some.inj (hsame.symm.trans htwin)]
  obtain ⟨ending?, hleft, -, hanswers⟩ := hpaired.left.answered honly
  obtain ⟨other?, hright, -, htwinAnswers⟩ := hpaired.right.answered htwinOnly
  have hendings := hpaired.endings_eq hpolicy hendsAlike
  have hlists : ending?.toList = other?.toList := hleft.symm.trans (hendings.trans hright)
  obtain rfl : ending? = other? := by cases ending? <;> cases other? <;> simp_all
  have hfirst := hanswers record hrecord honce
  have hsecond := htwinAnswers twin htwin htwinOnce
  rcases hsplit with ⟨hcompleted, hfailed⟩ | ⟨hfailed, hcompleted⟩
  · exact absurd hfailed (hfirst.not_failed hsecond hcompleted)
  · exact absurd hfailed (hsecond.not_failed hfirst hcompleted)

/-! ## Isolation -/

/-- Schedulers that differ in nothing but in how runs have ended: the same tasks are in the same
places, the same calls have been made and have had the same answers, the same runs have been
started, and as many have been counted. -/
structure Abreast (first second : Scheduler α) : Prop where
  clock_eq : first.agenda.clock = second.agenda.clock
  queue_eq : first.agenda.queue = second.agenda.queue
  lifecycle_eq : first.lifecycle = second.lifecycle
  dispatcher_eq : first.dispatcher = second.dispatcher
  backlog_eq : first.backlog = second.backlog
  active_eq : first.active = second.active
  calls_eq : first.calls = second.calls
  answers_eq : first.answers = second.answers
  accepted_eq : first.accepted = second.accepted
  dispatched_eq : first.agenda.metrics.dispatched = second.agenda.metrics.dispatched
  counted_eq : first.agenda.metrics.completed + first.agenda.metrics.failed =
    second.agenda.metrics.completed + second.agenda.metrics.failed
  lostTasks_eq : first.lostTasks = second.lostTasks
  history_eq : (first.agenda.history.filter fun event => !event.isReport) =
    second.agenda.history.filter fun event => !event.isReport
  known : ∀ task, first.record? task = none ↔ second.record? task = none

theorem abreast_of_muted_eq (hmuted : first.muted = second.muted) : Abreast first second where
  clock_eq := congrArg (fun quiet => quiet.agenda.clock) hmuted
  queue_eq := congrArg (fun quiet => quiet.agenda.queue) hmuted
  lifecycle_eq := congrArg (fun quiet => quiet.lifecycle) hmuted
  dispatcher_eq := congrArg (fun quiet => quiet.dispatcher) hmuted
  backlog_eq := congrArg (fun quiet => quiet.backlog) hmuted
  active_eq := by
    have hactive := congrArg active hmuted
    rwa [active_muted, active_muted] at hactive
  calls_eq := congrArg (fun quiet => quiet.calls) hmuted
  answers_eq := congrArg (fun quiet => quiet.answers) hmuted
  accepted_eq := congrArg (fun quiet => quiet.accepted) hmuted
  dispatched_eq := congrArg (fun quiet => quiet.agenda.metrics.dispatched) hmuted
  counted_eq := congrArg (fun quiet => quiet.agenda.metrics.completed) hmuted
  lostTasks_eq := by
    have hlost := congrArg lostTasks hmuted
    rwa [lostTasks_muted, lostTasks_muted] at hlost
  history_eq := congrArg (fun quiet => quiet.agenda.history) hmuted
  known := by
    intro task
    have hrecords := records_muted_eq hmuted task
    rw [← Option.map_eq_none_iff (f := Record.muted), hrecords, Option.map_eq_none_iff]

/-- Two runs in which the same steps are taken, while the bodies of some tasks end in different
ways and different observers are told of failures, stay abreast if failures are not to stop
periodic tasks, and either can go on as the other does.  The records of a task differ in nothing
but in how its runs have ended, so that a one-shot task may have completed in one run and failed in
the other; but if its bodies end in the same ways in both, it is in the same state in both. -/
theorem Paired.isolated (hpaired : Paired config cores past first other second)
    (hpolicy : config.policy = .keepGoing) :
    Abreast first second ∧
    (∀ task record twin, first.record? task = some record → second.record? task = some twin →
      record.DiffersInEndings twin ∧
      ((∀ run, (record.script run).ending = (twin.script run).ending) →
        record.state = twin.state)) ∧
    ∀ action same : Action α, action.muted = same.muted →
      (first.step action).isSome = (second.step same).isSome := by
  have hmuted := hpaired.muted_eq hpolicy
  refine ⟨abreast_of_muted_eq hmuted, fun task record twin hrecord htwin => ?_,
    fun action same haction => ?_⟩
  · exact ⟨differsInEndings_of_muted_eq hmuted hrecord htwin,
      hpaired.state_eq hpolicy hrecord htwin⟩
  · have hkeepGoing := hpaired.left.reachable.policy_eq.trans hpolicy
    have hstep := congrArg Option.isSome (muted_step_eq hkeepGoing hmuted haction)
    rwa [Option.isSome_map, Option.isSome_map] at hstep

/-- A task whose body ends in some way is run, and after it one whose body does nothing. -/
def inTurn (ending : Ending Unit) : List (Action Unit) :=
  [.request (.schedule { plainTask .oneShot .zero with script := fun _ => { ending } } true),
    .proceed 0, .request (.schedule (plainTask .oneShot .zero) true), .proceed 1,
    .dispatch, .dispatch, .takeUp 0, .work 0, .work 0,
    .dispatch, .dispatch, .takeUp 0, .work 0, .work 0]

/-- The body of a one-shot task ends with a value in one run, and panics in another one, where an
observer panics on top.  The task has completed in one and failed in the other; but the task that
is run after it has completed in both. -/
theorem isolated_after_panic :
    ∃ (past other : List (Scheduler Unit × Action Unit)) (first second : Scheduler Unit)
      (record twin next same : Record Unit),
      Paired {} 1 past first other second ∧ ({} : Config).policy = .keepGoing ∧
      first.record? 0 = some record ∧ second.record? 0 = some twin ∧
      record.state = .completed ∧ twin.state = .failed ∧ record.DiffersInEndings twin ∧
      first.record? 1 = some next ∧ second.record? 1 = some same ∧
      next.state = .completed ∧ same.state = .completed ∧ Abreast first second := by
  have hleft : (played {} 1 (inTurn (.value ()))).map (fun final =>
      ((final.2.record? 0).map Record.state, (final.2.record? 1).map Record.state)) =
      some (some .completed, some .completed) := by
    decide +kernel
  have hright : (played {} 1 (.observe .panicking :: inTurn (.panic .unshown))).map (fun final =>
      (final.2.record? 0).map Record.state) = some (some .failed) := by
    decide +kernel
  -- The second task has the same script in both runs.
  have hplain : (played {} 1 (inTurn (.value ()))).map (fun final =>
      (final.2.record? 1).map Record.script) = some (some (plainTask .oneShot .zero).script) := rfl
  have hsame : (played {} 1 (.observe .panicking :: inTurn (.panic .unshown))).map (fun final =>
      (final.2.record? 1).map Record.script) = some (some (plainTask .oneShot .zero).script) := rfl
  obtain ⟨⟨past, first⟩, hfirst, hstates⟩ := Option.map_eq_some_iff.mp hleft
  obtain ⟨⟨other, second⟩, hsecond, hfailed⟩ := Option.map_eq_some_iff.mp hright
  obtain ⟨hcompleted, hnext⟩ := Prod.mk.inj hstates
  obtain ⟨record, hrecord, hcompleted⟩ := Option.map_eq_some_iff.mp hcompleted
  obtain ⟨next, hfound, hnext⟩ := Option.map_eq_some_iff.mp hnext
  obtain ⟨twin, htwin, hfailed⟩ := Option.map_eq_some_iff.mp hfailed
  rw [hfirst, Option.map_some, Option.some.injEq, hfound, Option.map_some, Option.some.injEq]
    at hplain
  rw [hsecond, Option.map_some, Option.some.injEq] at hsame
  obtain ⟨same, hfoundSame, hsame⟩ := Option.map_eq_some_iff.mp hsame
  have hpaired : Paired {} 1 past first other second := by
    obtain ⟨start, hcreated, hreplay⟩ := Option.bind_eq_some_iff.mp hfirst
    obtain ⟨again, hagain, hreplayAgain⟩ := Option.bind_eq_some_iff.mp hsecond
    have hstart : Paired {} 1 [] start [] again :=
      .start (eq_ok_of_toOption hcreated) (eq_ok_of_toOption hagain)
    have hactions : (inTurn (.value ())).map Action.muted =
        (inTurn (.panic .unshown)).map Action.muted := rfl
    exact (hstart.observedSecond rfl).of_replay hactions hreplay hreplayAgain
  obtain ⟨habreast, hrecords, -⟩ := hpaired.isolated rfl
  obtain ⟨hdiffers, -⟩ := hrecords 0 record twin hrecord htwin
  obtain ⟨-, hstate⟩ := hrecords 1 next same hfound hfoundSame
  refine ⟨past, other, first, second, record, twin, next, same, hpaired, rfl, hrecord, htwin,
    hcompleted, hfailed, hdiffers, hfound, hfoundSame, hnext, ?_, habreast⟩
  rw [← hstate fun run => by rw [hplain, hsame], hnext]

end Scheduler

end TimedTasks
