import TimedTasks.Proofs.Scheduler.Callers
import TimedTasks.Proofs.Scheduler.Charging
import TimedTasks.Proofs.Scheduler.Revoking
import TimedTasks.Proofs.Scheduler.Termination

/-!
# A scheduler that nobody attends to

When all that the bodies do is to end (`Plain`), each of a scheduler's own steps is a single move,
and no body gets in the way of another run.  When, besides, all that callers do is to bring tasks
to an open queue without bound, nobody waits for anybody.  Such a scheduler is `Unattended`: the
clock and whom the queue lets in stay as they are (`Unattended.same_of_step`), and a call that goes
on has its task let in (`Unattended.eq_of_proceed`).
-/

namespace TimedTasks

variable {α : Type}

/-- A turn does nothing but end. -/
structure Turn.IsPlain (turn : Turn α) : Prop extends turn.IsTame where
  cancel_eq : turn.cancel? = none

/-- Whether an action is taken without being asked for: somebody goes on, or a timer runs out. -/
def Action.IsSpontaneous : Action α → Prop
  | .announce | .proceed _ | .expire | .dispatch | .takeUp _ | .work _ => True
  | .request _ | .advance _ | .release _ | .observe _ => False

theorem Action.IsOwn.isSpontaneous {action : Action α} (hown : action.IsOwn) :
    action.IsSpontaneous := by
  cases action with
  | expire => exact hown.elim
  | _ => exact hown

theorem Action.IsSpontaneous.not_disturbs {action : Action α}
    (hspontaneous : action.IsSpontaneous) : ¬ action.Disturbs := by
  cases action with
  | request | advance => exact hspontaneous.elim
  | _ => exact id

namespace Scheduler

variable {before after scheduler : Scheduler α} {action : Action α} {task : TaskId}
variable {config : Config} {cores : Nat}

theorem perform_of_plain {turn : Turn α} (hplain : turn.IsPlain) (scheduler : Scheduler α) :
    scheduler.perform turn = (scheduler, turn.ending) := by
  simp [perform, Agenda.passTime, hplain.advance_eq, hplain.cancel_eq, hplain.submit_eq]

/-- All that the bodies of all tasks do is to end. -/
def Plain (scheduler : Scheduler α) : Prop :=
  ∀ task record, scheduler.record? task = some record → ∀ run, (record.script run).IsPlain

namespace Plain

variable (hplain : before.Plain)

include hplain

theorem of_inside (hscripted : before.Scripted) {job : Job α} (hjob : job ∈ before.jobs)
    {turn : Turn α} (hstage : job.stage = .inside (some turn)) : turn.IsPlain := by
  obtain ⟨record, hrecord, hturn⟩ := hscripted job hjob _ hstage
  rw [Option.some.inj hturn]
  exact hplain _ record hrecord _

theorem tame (hscripted : before.Scripted) : before.Tame where
  later := fun _ _ record hrecord run _ => (hplain _ record hrecord run).toIsTame
  inside := fun _ hjob _ hstage => (hplain.of_inside hscripted hjob hstage).toIsTame

theorem of_plays (hscripted : before.Scripted) {worker : Nat} {turn : Turn α}
    (hplays : before.Plays worker turn) : turn.IsPlain := by
  obtain ⟨job, hfind, hstage, -⟩ := hplays
  exact hplain.of_inside hscripted (List.mem_of_find?_eq_some hfind) hstage

theorem not_cancels (hscripted : before.Scripted) (hspontaneous : action.IsSpontaneous) :
    ¬ before.Cancels action task := by
  cases action with
  | work worker =>
      rintro ⟨turn, agenda, hplays, -, hcancel, -⟩
      rw [(hplain.of_plays hscripted hplays).cancel_eq] at hcancel
      simp at hcancel
  | request => exact hspontaneous.elim
  | _ => exact id

/-- Bodies do nothing on the side, so that each step is a single move. -/
theorem move_of_step (hscripted : before.Scripted) (hstep : before.step action = some after) :
    Move before action before after := by
  cases action with
  | work worker =>
      cases hfind : before.jobs.find? fun job => job.worker == worker with
      | none => simp [step, hfind] at hstep
      | some job =>
          have hwork : before.work job = some after := by simpa only [step, hfind] using hstep
          refine (plays_or_move_work hfind hwork).elim ?_ id
          rintro ⟨turn, hplays⟩
          have hmove := move_of_plays hplays hstep
          rwa [perform_of_plain (hplain.of_plays hscripted hplays)] at hmove
  | _ => exact Scheduler.move_of_step (by simp) hstep

/-- The tasks that there are keep their scripts, and without a request there are no others. -/
theorem of_step (hreachable : Reachable config cores before) (hquiet : ¬ action.Disturbs)
    (hstep : before.step action = some after) : after.Plain := by
  have hsound := hreachable.sound
  have hmove := hplain.move_of_step hreachable.scripted hstep
  intro task later hlater run
  cases hrecord : before.record? task with
  | none =>
      have hnone := hmove.record?_eq_none hsound
        ((hplain.tame hreachable.scripted).calm hquiet) hrecord
      exact absurd (hnone.symm.trans hlater) (by simp)
  | some record =>
      obtain ⟨found, hfound, hevolves⟩ := hmove.recordsEvolve hsound.custody task record hrecord
      obtain rfl := Option.some.inj (hfound.symm.trans hlater)
      rw [hevolves.script_eq]
      exact hplain task record hrecord run

end Plain

/-- No call is in progress but to bring a task to an open queue without bound, and all that the
bodies do is to end. -/
structure Unattended (scheduler : Scheduler α) : Prop where
  plain : scheduler.Plain
  bringing : ∀ call ∈ scheduler.calls, ∃ task patient, call.2 = .inserting task patient
  accepting : scheduler.calls ≠ [] → scheduler.agenda.queue.admission = .accepting
  capacity_eq : scheduler.agenda.queue.capacity? = none

theorem jobs_ne_of_work {worker : Nat} (hstep : before.step (.work worker) = some after) :
    after.jobs ≠ before.jobs := by
  intro hsame
  simp only [step] at hstep
  split at hstep
  · rename_i job hfind
    exact not_mem_jobs_of_work hstep (hsame ▸ List.mem_of_find?_eq_some hfind)
  · simp at hstep

/-- An open queue without bound has room, so that it makes no difference how patient a caller is. -/
theorem proceed_inserting
    (hadmission : scheduler.agenda.queue.admission = .accepting)
    (hcapacity : scheduler.agenda.queue.capacity? = none) (call : CallId) (task : TaskId)
    (patient : Bool) :
    scheduler.proceed call (.inserting task patient) =
      some (((scheduler.withQueue (scheduler.pushed task)).accept task).reply call
        (.scheduled (.ok task))) := by
  cases patient with
  | true =>
      simp [proceed, Agenda.insert, Queue.insert, Queue.isFull, hadmission, hcapacity, admitted,
        withQueue, pushed]
  | false =>
      simp [proceed, Agenda.tryInsert, Queue.tryInsert, hadmission, hcapacity, admitted, withQueue,
        pushed]

/-! ## What stays the same -/

/-- Nothing has happened to the clock and to those who may enter the queue, and no task is new. -/
structure Same (before after : Scheduler α) : Prop where
  clock_eq : after.agenda.clock = before.agenda.clock
  admission_eq : after.agenda.queue.admission = before.agenda.queue.admission
  capacity_eq : after.agenda.queue.capacity? = before.agenda.queue.capacity?
  lifecycle_eq : before.lifecycle = .running → after.lifecycle = .running
  accepted_subset : before.accepted ⊆ after.accepted
  unannounced_le : after.unannounced ≤ before.unannounced
  none_iff : ∀ task, after.record? task = none ↔ before.record? task = none

theorem Same.reading_eq (hsame : Same before after) :
    after.agenda.reading = before.agenda.reading :=
  congrArg ManualClock.reading hsame.clock_eq

theorem Reachable.running_of_not_shutdown (hreachable : Reachable config cores before)
    (hnot : ∀ drain, action ≠ .request (.shutdown drain)) (hstep : before.step action = some after)
    (hrunning : before.lifecycle = .running) : after.lifecycle = .running := by
  rcases hreachable.lifecycle_step hstep with hsame | ⟨⟨drain, hasked⟩, -⟩ | ⟨-, hshutting, -⟩
  · exact hsame.trans hrunning
  · exact absurd hasked (hnot drain)
  · exact absurd (hrunning.symm.trans hshutting) Lifecycle.noConfusion

theorem Reachable.running_of_step (hreachable : Reachable config cores before)
    (hspontaneous : action.IsSpontaneous) (hstep : before.step action = some after)
    (hrunning : before.lifecycle = .running) : after.lifecycle = .running :=
  hreachable.running_of_not_shutdown (by rintro drain rfl; exact hspontaneous) hstep hrunning

theorem Same.size_eq (hsame : Same before after) :
    after.agenda.records.size = before.agenda.records.size := by
  have hsize : ∀ task, after.agenda.records.size ≤ task ↔ before.agenda.records.size ≤ task := by
    intro task
    rw [← Array.getElem?_eq_none_iff, ← Array.getElem?_eq_none_iff]
    exact hsame.none_iff task
  exact Nat.le_antisymm ((hsize _).mpr (Nat.le_refl _)) ((hsize _).mp (Nat.le_refl _))

namespace Unattended

variable (hidle : before.Unattended)

include hidle

theorem not_mem_calls {call : CallId} {stage : Call}
    (hstage : ∀ task patient, stage ≠ .inserting task patient) : (call, stage) ∉ before.calls := by
  intro hcall
  obtain ⟨task, patient, hinserting⟩ := hidle.bringing _ hcall
  exact hstage task patient hinserting

/-- Own moves of a scheduler that nobody attends to leave the clock alone. -/
theorem same_of_step (hreachable : Reachable config cores before)
    (hspontaneous : action.IsSpontaneous) (hstep : before.step action = some after) :
    Same before after := by
  have hsound := hreachable.sound
  have hplain := hidle.plain
  have hcalm := (hplain.tame hreachable.scripted).calm hspontaneous.not_disturbs
  have hmove := hplain.move_of_step hreachable.scripted hstep
  have hnone : ∀ task, after.record? task = none ↔ before.record? task = none := by
    intro task
    constructor
    · intro hafter
      cases hbefore : before.record? task with
      | none => rfl
      | some record =>
          obtain ⟨later, hlater, -⟩ := hmove.recordsEvolve hsound.custody task record hbefore
          exact absurd (hafter.symm.trans hlater) (by simp)
    · exact hmove.record?_eq_none hsound hcalm
  have hrunning := hreachable.running_of_step hspontaneous hstep
  have hcapacity : after.agenda.queue.capacity? = before.agenda.queue.capacity? := by
    rcases hmove.change hsound with heq | ⟨operation, hchange, -⟩
    · rw [heq]
    · exact hchange.capacity_eq
  have haccepted := hmove.accepted_subset
  have hjobs : (∃ worker, action = .work worker) → after.jobs ≠ before.jobs := by
    rintro ⟨worker, rfl⟩
    exact jobs_ne_of_work hstep
  cases hmove with
  | parkedAgain hcall | resumedRefused hcall | resumedAdmitted hcall | removed hcall
  | claimRefused hcall | claimed hcall | closed hcall | swept hcall | passedOver hcall
  | sweepDone _ hcall => exact absurd hcall (hidle.not_mem_calls (by simp))
  | refused _ _ hasked | cancelBegun _ _ _ _ hasked =>
      obtain ⟨asked, rfl⟩ := hasked
      exact hspontaneous.elim
  | drafted _ _ hcause | submittedInVain _ hcause | submitted _ _ _ hcause =>
      exact absurd hcause (hcalm.nothingNew _ _)
  | shutdownBegun _ _ hasked | gateOpened _ hasked | observed _ hasked | clockMoved _ hasked =>
      subst hasked
      exact hspontaneous.elim
  | cancelledInBody hcause =>
      exact absurd hcause (hplain.not_cancels hreachable.scripted hspontaneous)
  | timePassed _ hcause hbody =>
      obtain ⟨worker, rfl⟩ := hbody
      exact absurd hcause hcalm.not_rouses
  | pulledInBody _ _ _ hbody | noted _ _ hbody => exact absurd rfl (hjobs hbody)
  | @tookUp position task worker =>
      obtain ⟨records, history, henter⟩ := before.agenda.enter_fst task worker before.agenda.reading
      refine ⟨?_, ?_, hcapacity, hrunning, haccepted, Nat.le_refl _, hnone⟩ <;>
        simp only [henter]
  | @settled job error? _ _ _ hsettle | @rearmed job error? _ _ _ hsettle =>
      exact ⟨(Agenda.kept_settle hsettle).clock_eq,
        congrArg Queue.admission (Agenda.settle_queue hsettle), hcapacity, hrunning, haccepted,
        Nat.le_refl _, hnone⟩
  | announced => exact ⟨rfl, rfl, hcapacity, hrunning, haccepted, Nat.sub_le _ _, hnone⟩
  | _ => exact ⟨rfl, rfl, hcapacity, hrunning, haccepted, Nat.le_refl _, hnone⟩

theorem exists_earlier (hreachable : Reachable config cores before)
    (hspontaneous : action.IsSpontaneous) (hstep : before.step action = some after)
    {later : Record α}
    (hlater : after.record? task = some later) :
    ∃ record, before.record? task = some record ∧ record.Evolves later := by
  have hsame := hidle.same_of_step hreachable hspontaneous hstep
  cases hrecord : before.record? task with
  | none => exact absurd (((hsame.none_iff task).mpr hrecord).symm.trans hlater) (by simp)
  | some record =>
      obtain ⟨found, hfound, hevolves⟩ :=
        hreachable.sound.recordsEvolve_of_step hstep task record hrecord
      obtain rfl := Option.some.inj (hfound.symm.trans hlater)
      exact ⟨record, rfl, hevolves⟩

/-- A call that goes on has its task let in. -/
theorem eq_of_proceed {call : CallId} (hstep : before.step (.proceed call) = some after) :
    ∃ task patient, (call, .inserting task patient) ∈ before.calls ∧
      after = ((before.withQueue (before.pushed task)).accept task).reply call
        (.scheduled (.ok task)) := by
  simp only [step] at hstep
  split at hstep
  · rename_i stage hlookup
    have hcall := mem_calls_of_lookup hlookup
    obtain ⟨task, patient, hstage⟩ := hidle.bringing _ hcall
    obtain rfl : stage = .inserting task patient := hstage
    rw [proceed_inserting (hidle.accepting (List.ne_nil_of_mem hcall)) hidle.capacity_eq] at hstep
    exact ⟨task, patient, hcall, (Option.some.inj hstep).symm⟩
  · simp at hstep

theorem calls_subset_of_step (hspontaneous : action.IsSpontaneous)
    (hstep : before.step action = some after) :
    after.calls ⊆ before.calls := by
  by_cases hproceed : ∃ call, action = .proceed call
  · obtain ⟨call, rfl⟩ := hproceed
    obtain ⟨task, patient, -, rfl⟩ := hidle.eq_of_proceed hstep
    exact List.filter_sublist.subset
  · have hfront := front_of_step hstep (by rintro asked rfl; exact hspontaneous)
      (fun call hcall => hproceed ⟨call, hcall⟩)
    have hcalls : after.calls = before.calls := congrArg Front.calls hfront
    rw [hcalls]
    exact List.Subset.refl _

theorem calls_eq_nil_of_step (hcalls : before.calls = []) (hspontaneous : action.IsSpontaneous)
    (hstep : before.step action = some after) : after.calls = [] :=
  List.subset_nil.mp (hcalls ▸ hidle.calls_subset_of_step hspontaneous hstep)

theorem of_step (hreachable : Reachable config cores before) (hspontaneous : action.IsSpontaneous)
    (hstep : before.step action = some after) : after.Unattended := by
  have hsame := hidle.same_of_step hreachable hspontaneous hstep
  have hcalls := hidle.calls_subset_of_step hspontaneous hstep
  refine ⟨hidle.plain.of_step hreachable hspontaneous.not_disturbs hstep,
    fun call hcall => hidle.bringing call (hcalls hcall), fun hsome => ?_,
    hsame.capacity_eq.trans hidle.capacity_eq⟩
  rw [hsame.admission_eq]
  refine hidle.accepting fun hnone => hsome ?_
  exact List.subset_nil.mp (hnone ▸ hcalls)

end Unattended

end Scheduler

end TimedTasks
