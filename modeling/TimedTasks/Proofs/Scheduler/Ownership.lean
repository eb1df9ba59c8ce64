import TimedTasks.Proofs.Agenda
import TimedTasks.Proofs.Queue.Invariant
import TimedTasks.Proofs.Scheduler.Custody

/-!
# Moves keep custody

A move takes one task from one place to another, or lets go of it, and what its record says
afterwards fits the new place.  The list of each place is compared up to its order, so that
it does not matter which call or which worker is the one that moves.
-/

namespace TimedTasks

namespace Scheduler

variable {α : Type} {origin before after : Scheduler α} {action : Action α}
variable {task other : TaskId} {place? : Option Place}

/-! ## Records -/

theorem record?_withRecord {record : Record α} (hrecord : before.record? task = some record)
    (moved : Record α) (other : TaskId) :
    (before.withRecord task moved).record? other =
      if other = task then some moved else before.record? other :=
  Agenda.records_withRecord hrecord

theorem has_withRecord {record moved : Record α} (hrecord : before.record? task = some record)
    {p : Record α → Prop} (hmoved : p moved) : (before.withRecord task moved).Has task p :=
  ⟨moved, (record?_withRecord hrecord moved task).trans (if_pos rfl), hmoved⟩

theorem record?_draft (submission : Submission α) (due : Moment) (other : TaskId) :
    (before.draft submission due).1.record? other =
      if other = before.agenda.records.size then some (submission.record due)
      else before.record? other :=
  Array.getElem?_push

theorem record?_size (before : Scheduler α) :
    before.record? before.agenda.records.size = none :=
  Array.getElem?_size

/-- Cancelling a task changes nothing about where it may be. -/
theorem FitsAt.cancelled {record : Record α} (hrecord : before.record? task = some record)
    (hafter : after.record? task = some { record with state := .cancelled })
    (haccepted : task ∈ after.accepted ↔ task ∈ before.accepted)
    (hfits : before.FitsAt task place?) : after.FitsAt task place? := by
  -- In every place the record may be cancelled, and nothing else about it has changed.
  have hlift : ∀ {p q : Record α → Prop}, (p record → q { record with state := .cancelled }) →
      before.Has task p → after.Has task q := by
    intro p q hpq hhas
    exact ⟨_, hafter, hpq (hhas.holds hrecord)⟩
  rcases place? with _ | place
  · exact fun hin => ⟨_, hafter, .cancelled record⟩
  · cases place with
    | drafted =>
        exact ⟨haccepted.not.mpr hfits.1, hlift (fun h => ⟨.cancelled record, h.2⟩) hfits.2⟩
    | queued =>
        exact ⟨haccepted.mpr hfits.1, hlift (fun h => ⟨.cancelled record, h.2⟩) hfits.2⟩
    | held => exact ⟨haccepted.mpr hfits.1, hlift (fun h => ⟨.cancelled record, h.2⟩) hfits.2⟩
    | backlog => exact ⟨haccepted.mpr hfits.1, hlift (fun h => ⟨Or.inr rfl, h.2⟩) hfits.2⟩
    | running => exact ⟨haccepted.mpr hfits.1, hlift (fun h => ⟨Or.inr rfl, h.2⟩) hfits.2⟩
    | returning =>
        exact ⟨haccepted.mpr hfits.1, hlift (fun h => ⟨.cancelled record, h.2⟩) hfits.2⟩
    | swept => exact ⟨haccepted.mpr hfits.1, hlift (fun h => ⟨.cancelled record, h.2⟩) hfits.2⟩
    | lost => exact ⟨haccepted.mpr hfits.1, hlift (fun h => ⟨Or.inr rfl, h.2⟩) hfits.2⟩

theorem fitsAt_none_of_cancelled (hcancelled : before.Has task fun record =>
    record.state = .cancelled) : before.FitsAt task none := by
  obtain ⟨record, hrecord, hstate⟩ := hcancelled
  exact fun _ => ⟨record, hrecord, Record.isSettled_of_cancelled hstate⟩

theorem fitsAt_none_of_idle {p : Record α → Prop}
    (hidle : before.Has task fun record => record.IsIdle ∧ p record)
    (hdead : ∀ record, before.record? task = some record → record.state ≠ .pending) :
    before.FitsAt task none := by
  obtain ⟨record, hrecord, hstate, -⟩ := hidle
  exact fitsAt_none_of_cancelled ⟨record, hrecord, hstate.state_eq (hdead record hrecord)⟩

theorem state_ne_pending_of_isDone {record : Record α} (hdone : record.isDone = true) :
    record.state ≠ .pending := by
  intro hpending
  rw [Record.isDone, hpending] at hdone
  exact absurd hdone Bool.false_ne_true

/-! ## Moves that concern the queue -/

theorem custody_remove (hcustody : before.Custody) (hqueue : before.agenda.queue.WellFormed)
    (hcancelled : before.Has task fun record => record.state = .cancelled) :
    (before.withQueue (before.agenda.queue.apply (.remove task))).Custody := by
  have htasks := hqueue.tasks_remove task
  by_cases hqueued : task ∈ before.agenda.queue.tasks
  · have hperm : before.agenda.queue.tasks.Perm
        (task :: before.agenda.queue.tasks.filter fun other => other != task) :=
      perm_cons_filter_key_ne id (by simpa using hqueue.tasks_nodup) hqueued
    have htransfer : Transfer before
        (before.withQueue (before.agenda.queue.apply (.remove task))) task (some .queued) none := by
      refine ⟨fun place => ?_, fun _ _ => rfl, fun _ _ => Iff.rfl⟩
      cases place with
      | queued =>
          show (task :: (before.agenda.queue.apply (.remove task)).tasks).Perm _
          rw [htasks]
          exact hperm.symm
      | _ => exact List.Perm.refl _
    refine htransfer.custody (hcustody.located_of_mem hqueued) (fun _ => ?_) hcustody
    exact fitsAt_none_of_cancelled hcancelled
  · refine hcustody.of_same (fun place => ?_) rfl rfl
    cases place with
    | queued =>
        show (before.agenda.queue.apply (.remove task)).tasks.Perm _
        rw [htasks, List.filter_eq_self.mpr]
        · exact List.Perm.refl _
        · exact fun other hother => bne_iff_ne.mpr fun heq => hqueued (heq ▸ hother)
    | _ => exact List.Perm.refl _

theorem tasks_close_perm (queue : Queue) (drain : Bool) :
    ((queue.close drain).1.tasks ++ (queue.close drain).2.map Entry.task).Perm queue.tasks := by
  rw [Queue.tasks, Queue.close_entries, Queue.close_removed, ← List.map_append]
  exact (List.filter_append_perm (Queue.staysOn drain) queue.entries).map Entry.task

theorem custody_close (hcustody : before.Custody) (hnumbered : before.Numbered) {call : CallId}
    {drain : Bool} (hcall : (call, .closing drain) ∈ before.calls) :
    ((before.withQueue (before.agenda.queue.close drain).1).goOn call
      (.cancelling drain ((before.agenda.queue.close drain).2.map (·.task)) [])).Custody := by
  have hsweeps := hnumbered.flatMap_perm hcall fun call => call.2.sweeps
  refine hcustody.of_sweep ((before.agenda.queue.close drain).2.map Entry.task)
    (tasks_close_perm _ _) ?_ (fun place hqueued hswept => ?_) rfl rfl
  · exact (hnumbered.flatMap_goOn hcall _ fun call => call.2.sweeps).trans
      (hsweeps.symm.append_left _)
  · cases place with
    | queued => exact absurd rfl hqueued
    | swept => exact absurd rfl hswept
    | drafted => exact hnumbered.flatMap_goOn_same hcall _ (fun call => call.2.drafts) rfl
    | _ => exact List.Perm.refl _

/-! ## Moves of a call -/

theorem custody_goOn (hcustody : before.Custody) (hnumbered : before.Numbered) {call : CallId}
    {stage : Call} (hcall : (call, stage) ∈ before.calls) (next : Call)
    (hdrafts : next.drafts = stage.drafts) (hsweeps : next.sweeps = stage.sweeps) :
    (before.goOn call next).Custody := by
  refine hcustody.of_same (fun place => ?_) rfl rfl
  cases place with
  | drafted => exact hnumbered.flatMap_goOn_same hcall next (fun call => call.2.drafts) hdrafts
  | swept => exact hnumbered.flatMap_goOn_same hcall next (fun call => call.2.sweeps) hsweeps
  | _ => exact List.Perm.refl _

/-- Custody is kept when a call without tasks is answered. -/
theorem custody_reply (hcustody : before.Custody) (hnumbered : before.Numbered) {call : CallId}
    {stage : Call} (hcall : (call, stage) ∈ before.calls) (hdrafts : stage.drafts = [])
    (hsweeps : stage.sweeps = []) (answer : Answer) : (before.reply call answer).Custody := by
  have hdrafted := hnumbered.flatMap_perm hcall fun call => call.2.drafts
  have hswept := hnumbered.flatMap_perm hcall fun call => call.2.sweeps
  simp only [hdrafts, hsweeps, List.nil_append] at hdrafted hswept
  refine hcustody.of_same (fun place => ?_) rfl rfl
  cases place with
  | drafted => exact hdrafted.symm
  | swept => exact hswept.symm
  | _ => exact List.Perm.refl _

theorem custody_opened (hcustody : before.Custody) (call : CallId) (stage : Call)
    (hdrafts : stage.drafts = []) (hsweeps : stage.sweeps = []) :
    (before.opened call stage).Custody := by
  refine hcustody.of_same (fun place => ?_) rfl rfl
  cases place with
  | drafted => simp [tasksAt, opened, hdrafts]
  | swept => simp [tasksAt, opened, hsweeps]
  | _ => exact List.Perm.refl _

/-- The task of a call goes elsewhere when the call is answered. -/
theorem places_of_reply (hnumbered : before.Numbered) {call : CallId} {stage : Call}
    (hcall : (call, stage) ∈ before.calls) (hdrafts : stage.drafts = [task])
    (hsweeps : stage.sweeps = []) :
    (task :: (before.otherCalls call).flatMap fun call => call.2.drafts).Perm
        (before.tasksAt .drafted) ∧
      ((before.otherCalls call).flatMap fun call => call.2.sweeps).Perm
        (before.tasksAt .swept) := by
  have hdrafted := hnumbered.flatMap_perm hcall fun call => call.2.drafts
  have hswept := hnumbered.flatMap_perm hcall fun call => call.2.sweeps
  simp only [hdrafts, hsweeps, List.nil_append, List.singleton_append] at hdrafted hswept
  exact ⟨hdrafted.symm, hswept.symm⟩

/-- A task that is not let in is forgotten. -/
theorem custody_turnedAway (hcustody : before.Custody) (hnumbered : before.Numbered)
    {call : CallId} {stage : Call} (hcall : (call, stage) ∈ before.calls)
    (hdrafts : stage.drafts = [task]) (hsweeps : stage.sweeps = []) (answer : Answer) :
    (before.reply call answer).Custody := by
  obtain ⟨hdrafted, hswept⟩ := places_of_reply hnumbered hcall hdrafts hsweeps
  have hmem : task ∈ before.tasksAt .drafted := hdrafted.subset (List.mem_cons_self ..)
  have htransfer : Transfer before (before.reply call answer) task (some .drafted) none := by
    refine ⟨fun place => ?_, fun _ _ => rfl, fun _ _ => Iff.rfl⟩
    cases place with
    | drafted => exact hdrafted
    | swept => exact hswept
    | _ => exact List.Perm.refl _
  refine htransfer.custody (hcustody.located_of_mem hmem) (fun hfits haccepted => ?_) hcustody
  exact absurd haccepted hfits.1

/-- A task that is let in goes from its call into the queue. -/
theorem custody_admitted (hcustody : before.Custody) (hnumbered : before.Numbered)
    {call : CallId} {stage : Call} (hcall : (call, stage) ∈ before.calls)
    (hdrafts : stage.drafts = [task]) (hsweeps : stage.sweeps = []) {queue : Queue}
    (hqueue : queue.tasks.Perm (task :: before.agenda.queue.tasks)) (answer : Answer) :
    (((before.withQueue queue).accept task).reply call answer).Custody := by
  obtain ⟨hdrafted, hswept⟩ := places_of_reply hnumbered hcall hdrafts hsweeps
  have hmem : task ∈ before.tasksAt .drafted := hdrafted.subset (List.mem_cons_self ..)
  have htransfer : Transfer before (((before.withQueue queue).accept task).reply call answer) task
      (some .drafted) (some .queued) := by
    refine ⟨fun place => ?_, fun _ _ => rfl, fun other hother => ?_⟩
    · cases place with
      | drafted => exact hdrafted
      | queued => exact hqueue
      | swept => exact hswept
      | _ => exact List.Perm.refl _
    · exact List.mem_cons.trans (or_iff_right hother)
  refine htransfer.custody (hcustody.located_of_mem hmem) (fun hfits => ?_) hcustody
  exact ⟨List.mem_cons_self .., hfits.2⟩

/-- A task that was swept out and need not be kept any longer. -/
theorem custody_swept (hcustody : before.Custody) (hnumbered : before.Numbered) {call : CallId}
    {drain : Bool} {left done done' : List TaskId}
    (hcall : (call, .cancelling drain (task :: left) done) ∈ before.calls)
    (hplaces : ∀ place, (after.tasksAt place) =
      (before.goOn call (.cancelling drain left done')).tasksAt place)
    (hrecord : ∀ other, other ≠ task → after.record? other = before.record? other)
    (haccepted : after.accepted = before.accepted)
    (hfits : before.FitsAt task (some .swept) → after.FitsAt task none) : after.Custody := by
  have hswept := hnumbered.flatMap_perm hcall fun call => call.2.sweeps
  have hmem : task ∈ before.tasksAt .swept := hswept.symm.subset (List.mem_cons_self ..)
  have htransfer : Transfer before after task (some .swept) none := by
    refine ⟨fun place => ?_, hrecord, fun other _ => by rw [haccepted]⟩
    rw [hplaces]
    cases place with
    | drafted => exact hnumbered.flatMap_goOn_same hcall _ (fun call => call.2.drafts) rfl
    | swept =>
        refine ((hnumbered.flatMap_goOn hcall _ fun call => call.2.sweeps).cons task).trans ?_
        exact hswept.symm
    | _ => exact List.Perm.refl _
  exact htransfer.custody (hcustody.located_of_mem hmem) hfits hcustody

/-! ## Moves of the dispatcher -/

theorem hand_of_holding (hdispatcher : before.dispatcher = .holding task) :
    before.tasksAt .held = [task] := by
  rw [tasksAt, hdispatcher]
  rfl

/-- The dispatcher takes the first task of the queue. -/
theorem custody_took (hcustody : before.Custody) (hdispatcher : before.dispatcher = .seeking)
    {queue : Queue} (htasks : before.agenda.queue.tasks = task :: queue.tasks) :
    Custody { before.withQueue queue with dispatcher := .holding task } := by
  have hmem : task ∈ before.tasksAt .queued := by
    rw [tasksAt, htasks]
    exact List.mem_cons_self ..
  have htransfer : Transfer before { before.withQueue queue with dispatcher := .holding task }
      task (some .queued) (some .held) := by
    refine ⟨fun place => ?_, fun _ _ => rfl, fun _ _ => Iff.rfl⟩
    cases place with
    | queued => exact List.Perm.of_eq htasks.symm
    | held =>
        show [task].Perm ([task] ++ before.dispatcher.hand)
        rw [hdispatcher]
        exact List.Perm.refl _
    | _ => exact List.Perm.refl _
  exact htransfer.custody (hcustody.located_of_mem hmem) id hcustody

/-- The dispatcher hands a task over. -/
theorem custody_started (hcustody : before.Custody)
    (hdispatcher : before.dispatcher = .holding task) {record : Record α}
    (hrecord : before.record? task = some record) {metrics : Metrics} :
    Custody
      { before with
        agenda :=
          { before.agenda with
            records := before.agenda.records.setIfInBounds task { record with state := .running }
            metrics }
        backlog := before.backlog ++ [task]
        dispatcher := .seeking } := by
  have hhand := hand_of_holding hdispatcher
  have hmem : task ∈ before.tasksAt .held := hhand ▸ List.mem_singleton_self task
  have hafter := record?_withRecord hrecord { record with state := .running }
  have htransfer : Transfer before
      { before with
        agenda :=
          { before.agenda with
            records := before.agenda.records.setIfInBounds task { record with state := .running }
            metrics }
        backlog := before.backlog ++ [task]
        dispatcher := .seeking } task (some .held) (some .backlog) := by
    refine ⟨fun place => ?_, fun other hother => (hafter other).trans (if_neg hother),
      fun _ _ => Iff.rfl⟩
    cases place with
    | held => exact List.Perm.of_eq hhand.symm
    | backlog =>
        show (before.backlog ++ [task]).Perm ([task] ++ before.backlog)
        exact List.perm_append_comm
    | _ => exact List.Perm.refl _
  refine htransfer.custody (hcustody.located_of_mem hmem) (fun hfits => ?_) hcustody
  obtain ⟨haccepted, hhas⟩ := hfits
  obtain ⟨-, hfresh⟩ := hhas.holds hrecord
  exact ⟨haccepted, _, (hafter task).trans (if_pos rfl), Or.inl rfl, hfresh⟩

/-- The dispatcher drops a task that has been cancelled. -/
theorem custody_discarded (hcustody : before.Custody)
    (hdispatcher : before.dispatcher = .holding task)
    (hdead : ∀ record, before.record? task = some record → record.state ≠ .pending)
    {metrics : Metrics} :
    Custody
      { before with agenda := { before.agenda with metrics }, dispatcher := .seeking } := by
  have hhand := hand_of_holding hdispatcher
  have hmem : task ∈ before.tasksAt .held := hhand ▸ List.mem_singleton_self task
  have htransfer : Transfer before
      { before with agenda := { before.agenda with metrics }, dispatcher := .seeking }
      task (some .held) none := by
    refine ⟨fun place => ?_, fun _ _ => rfl, fun _ _ => Iff.rfl⟩
    cases place with
    | held => exact List.Perm.of_eq hhand.symm
    | _ => exact List.Perm.refl _
  refine htransfer.custody (hcustody.located_of_mem hmem) (fun hfits => ?_) hcustody
  exact fitsAt_none_of_idle hfits.2 hdead

/-! ## Moves of a job -/

theorem mem_tasksAt_place {job : Job α} (hjob : job ∈ before.jobs) :
    job.task ∈ before.tasksAt job.place := by
  have hmem : job.task ∈ before.jobs.flatMap (Job.tasksAt job.place) :=
    List.mem_flatMap.mpr ⟨job, hjob, by simp [Job.tasksAt]⟩
  rcases job.place_eq with hplace | hplace <;> rw [hplace] at hmem ⊢ <;> exact hmem

/-- A task that runs is with a worker. -/
theorem exists_job_of_running (hmem : task ∈ before.tasksAt .running) :
    ∃ job ∈ before.jobs, job.place = .running ∧ job.task = task := by
  obtain ⟨job, hjob, htask⟩ := List.mem_flatMap.mp hmem
  have hat : job.place = .running ∧ task = job.task := by simpa [Job.tasksAt] using htask
  exact ⟨job, hjob, hat.1, hat.2.symm⟩

/-- A worker is done with its task. -/
theorem transfer_of_release (hstaffed : before.Staffed) {job : Job α} (hjob : job ∈ before.jobs)
    (hplaces : ∀ place, after.tasksAt place = (before.release job.worker).tasksAt place)
    (hrecord : ∀ other, other ≠ job.task → after.record? other = before.record? other)
    (haccepted : after.accepted = before.accepted) :
    Transfer before after job.task (some job.place) none := by
  refine ⟨fun place => ?_, hrecord, fun other _ => by rw [haccepted]⟩
  have hflat := (hstaffed.flatMap_perm hjob (Job.tasksAt place)).symm
  rw [hplaces]
  simp only [Option.some.injEq, reduceCtorEq, if_false, List.nil_append]
  cases place with
  | running | returning => exact hflat
  | _ =>
      rw [if_neg (by rcases job.place_eq with h | h <;> rw [h] <;> decide)]
      exact List.Perm.refl _

/-- A worker goes on with its task. -/
theorem transfer_of_goOnWith (hstaffed : before.Staffed) {job : Job α} (hjob : job ∈ before.jobs)
    (stage : Stage α)
    (hplaces : ∀ place, after.tasksAt place = (before.goOnWith job stage).tasksAt place)
    (hrecord : ∀ other, other ≠ job.task → after.record? other = before.record? other)
    (haccepted : after.accepted = before.accepted) :
    Transfer before after job.task (some job.place) (some (Job.place { job with stage })) := by
  refine ⟨fun place => ?_, hrecord, fun other _ => by rw [haccepted]⟩
  have hbefore := hstaffed.flatMap_perm hjob (Job.tasksAt place)
  have hafter := hstaffed.flatMap_goOnWith hjob stage (Job.tasksAt place)
  rw [hplaces]
  simp only [Option.some.injEq]
  -- Both sides are the tasks of the other jobs, with this one's old and new place in front.
  have hswap : (Job.tasksAt place job ++ (before.goOnWith job stage).jobs.flatMap
      (Job.tasksAt place)).Perm (Job.tasksAt place { job with stage } ++
        before.jobs.flatMap (Job.tasksAt place)) := by
    calc Job.tasksAt place job ++ (before.goOnWith job stage).jobs.flatMap (Job.tasksAt place)
      List.Perm _ (Job.tasksAt place job ++ (Job.tasksAt place { job with stage } ++
          (before.release job.worker).jobs.flatMap (Job.tasksAt place))) := hafter.append_left _
      List.Perm _ (Job.tasksAt place { job with stage } ++ (Job.tasksAt place job ++
          (before.release job.worker).jobs.flatMap (Job.tasksAt place))) := by
        rw [← List.append_assoc, ← List.append_assoc]
        exact List.perm_append_comm.append_right _
      List.Perm _ (Job.tasksAt place { job with stage } ++
          before.jobs.flatMap (Job.tasksAt place)) := hbefore.symm.append_left _
  cases place with
  | running | returning => exact hswap
  | _ =>
      rw [if_neg (by rcases job.place_eq with h | h <;> rw [h] <;> decide),
        if_neg (by rcases Job.place_eq { job with stage } with h | h <;> rw [h] <;> decide)]
      exact List.Perm.refl _

theorem custody_goOnWith (hcustody : before.Custody) (hstaffed : before.Staffed) {job : Job α}
    (hjob : job ∈ before.jobs) {stage : Stage α}
    (hplace : Job.place { job with stage } = job.place) : (before.goOnWith job stage).Custody := by
  have htransfer : Transfer before (before.goOnWith job stage) job.task (some job.place)
      (some (Job.place { job with stage })) :=
    transfer_of_goOnWith hstaffed hjob stage (fun _ => rfl) (fun _ _ => rfl) rfl
  rw [hplace] at htransfer
  exact htransfer.custody (hcustody.located_of_mem (mem_tasksAt_place hjob)) id hcustody

/-- Custody is kept when a job ends whose task need not be anywhere. -/
theorem custody_release (hcustody : before.Custody) (hstaffed : before.Staffed) {job : Job α}
    (hjob : job ∈ before.jobs)
    (hplaces : ∀ place, after.tasksAt place = (before.release job.worker).tasksAt place)
    (hrecord : ∀ other, other ≠ job.task → after.record? other = before.record? other)
    (haccepted : after.accepted = before.accepted)
    (hfits : before.FitsAt job.task (some job.place) → after.FitsAt job.task none) :
    after.Custody :=
  (transfer_of_release hstaffed hjob hplaces hrecord haccepted).custody
    (hcustody.located_of_mem (mem_tasksAt_place hjob)) hfits hcustody

theorem custody_ended (hcustody : before.Custody) (hstaffed : before.Staffed) {job : Job α}
    (hjob : job ∈ before.jobs) {turn : Turn α} (hstage : job.stage = .inside (some turn))
    (ending : Ending α) :
    (Scheduler.goOnWith { before with agenda := before.agenda.leave job.task ending } job
      (.left ending.error?)).Custody := by
  have hplace : job.place = .running := by rw [Job.place, hstage]
  have hmem : job.task ∈ before.tasksAt .running := hplace ▸ mem_tasksAt_place hjob
  obtain ⟨haccepted, record, hrecord, hbusy, hrun⟩ := hcustody.fitsAt_of_mem hmem
  obtain ⟨result?, failures, lastError?, hleave⟩ := record.leave_eq ending
  have hafter : ∀ other, (before.agenda.leave job.task ending).records[other]? =
      if other = job.task then some (record.leave ending) else before.record? other :=
    Agenda.records_update hrecord _
  have htransfer : Transfer before
      (Scheduler.goOnWith { before with agenda := before.agenda.leave job.task ending } job
        (.left ending.error?)) job.task (some job.place) (some .running) :=
    transfer_of_goOnWith hstaffed hjob (.left ending.error?) (fun _ => rfl)
      (fun other hother => (hafter other).trans (if_neg hother)) rfl
  rw [hplace] at htransfer
  refine htransfer.custody (hcustody.located_of_mem hmem) (fun _ => ?_) hcustody
  refine ⟨haccepted, _, (hafter job.task).trans (if_pos rfl), ?_, ?_⟩
  · rw [hleave]
    exact hbusy
  · rw [hleave]
    exact hrun

/-- A run has been settled and the task does not go back. -/
theorem custody_settled (hcustody : before.Custody) (hstaffed : before.Staffed) {job : Job α}
    (hjob : job ∈ before.jobs) {error? : Option TaskError} (hstage : job.stage = .left error?)
    {agenda : Agenda α}
    (hsettle : before.agenda.settle job before.agenda.reading error? = (agenda, false)) :
    (Scheduler.release { before with agenda } job.worker).Custody := by
  have hplace : job.place = .running := by rw [Job.place, hstage]
  have hmem : job.task ∈ before.tasksAt .running := hplace ▸ mem_tasksAt_place hjob
  obtain ⟨-, record, hrecord, hbusy, hrun⟩ := hcustody.fitsAt_of_mem hmem
  obtain ⟨settled, hsettles⟩ := Agenda.settles_settle hrecord hsettle
  refine custody_release hcustody hstaffed hjob (fun place => ?_)
    (fun other hother => (hsettles.records_eq other).trans (if_neg hother)) rfl fun _ _ => ?_
  · cases place with
    | queued => exact congrArg Queue.tasks hsettles.queue_eq
    | _ => rfl
  · -- A run that was cancelled meanwhile is settled already; any other one is settled now.
    refine ⟨settled, (hsettles.records_eq job.task).trans (if_pos rfl), ?_, fun honce _ => ?_⟩
    · refine hsettles.done rfl (hbusy.imp_right fun hcancelled => ?_)
      exact (Record.isSettled_of_cancelled hcancelled).1
    · rw [hsettles.runs_eq]
      exact hrun (hsettles.evolves.isPeriodic_eq.symm.trans honce)

/-- A run has been settled and the task is pending again. -/
theorem custody_rearmed (hcustody : before.Custody) (hstaffed : before.Staffed) {job : Job α}
    (hjob : job ∈ before.jobs) {error? : Option TaskError} (hstage : job.stage = .left error?)
    {agenda : Agenda α}
    (hsettle : before.agenda.settle job before.agenda.reading error? = (agenda, true)) :
    (Scheduler.goOnWith { before with agenda } job .rearmed).Custody := by
  have hplace : job.place = .running := by rw [Job.place, hstage]
  have hmem : job.task ∈ before.tasksAt .running := hplace ▸ mem_tasksAt_place hjob
  obtain ⟨haccepted, record, hrecord, -, -⟩ := hcustody.fitsAt_of_mem hmem
  obtain ⟨settled, hsettles⟩ := Agenda.settles_settle hrecord hsettle
  obtain ⟨-, hpending, hperiodic⟩ := hsettles.rearmed rfl
  have htransfer : Transfer before (Scheduler.goOnWith { before with agenda } job .rearmed)
      job.task (some job.place) (some .returning) := by
    refine transfer_of_goOnWith hstaffed hjob .rearmed (fun place => ?_)
      (fun other hother => (hsettles.records_eq other).trans (if_neg hother)) rfl
    cases place with
    | queued => exact congrArg Queue.tasks hsettles.queue_eq
    | _ => rfl
  rw [hplace] at htransfer
  refine htransfer.custody (hcustody.located_of_mem hmem) (fun _ => ?_) hcustody
  exact ⟨haccepted, settled, (hsettles.records_eq job.task).trans (if_pos rfl), Or.inl hpending,
    hsettles.evolves.isPeriodic_eq.trans hperiodic⟩

/-- A worker drops a job whose body has ended. -/
theorem custody_lostUncounted (hcustody : before.Custody) (hstaffed : before.Staffed)
    {job : Job α} (hjob : job ∈ before.jobs) {error? : Option TaskError}
    (hstage : job.stage = .left error?) :
    (Scheduler.release { before with lost := .uncounted job.task error? :: before.lost }
      job.worker).Custody := by
  have hplace : job.place = .running := by rw [Job.place, hstage]
  have hmem : job.task ∈ before.tasksAt .running := hplace ▸ mem_tasksAt_place hjob
  have hreleased : Transfer before (before.release job.worker) job.task (some job.place) none :=
    transfer_of_release hstaffed hjob (fun _ => rfl) (fun _ _ => rfl) rfl
  rw [hplace] at hreleased
  have htransfer : Transfer before
      (Scheduler.release { before with lost := .uncounted job.task error? :: before.lost }
        job.worker) job.task (some .running) (some .lost) := by
    refine ⟨fun place => ?_, fun _ _ => rfl, fun _ _ => Iff.rfl⟩
    cases place with
    | lost => exact List.Perm.refl _
    | _ => exact hreleased.places _
  refine htransfer.custody (hcustody.located_of_mem hmem) (fun hfits => ?_) hcustody
  obtain ⟨haccepted, record, hrecord, hbusy, hrun⟩ := hfits
  exact ⟨haccepted, record, hrecord, hbusy, fun honce => Nat.le_of_eq (hrun honce)⟩

/-- A task that the queue takes back. -/
theorem custody_requeued (hcustody : before.Custody) (hstaffed : before.Staffed) {job : Job α}
    (hjob : job ∈ before.jobs) (hplace : job.place = .returning) {queue : Queue}
    (hqueue : queue.tasks.Perm (job.task :: before.agenda.queue.tasks)) :
    ((before.withQueue queue).release job.worker).Custody := by
  have hmem : job.task ∈ before.tasksAt .returning := hplace ▸ mem_tasksAt_place hjob
  have hreleased : Transfer before (before.release job.worker) job.task (some job.place) none :=
    transfer_of_release hstaffed hjob (fun _ => rfl) (fun _ _ => rfl) rfl
  rw [hplace] at hreleased
  have htransfer : Transfer before ((before.withQueue queue).release job.worker) job.task
      (some .returning) (some .queued) := by
    refine ⟨fun place => ?_, fun _ _ => rfl, fun _ _ => Iff.rfl⟩
    cases place with
    | queued => exact hqueue
    | _ => exact hreleased.places _
  refine htransfer.custody (hcustody.located_of_mem hmem) (fun hfits => ?_) hcustody
  obtain ⟨haccepted, record, hrecord, hidle, hperiodic⟩ := hfits
  refine ⟨haccepted, record, hrecord, hidle, fun honce => ?_⟩
  exact absurd (hperiodic.symm.trans honce) (by decide)

/-- A worker drops a task that it has taken up. -/
theorem custody_lostUnentered (hcustody : before.Custody) {position : Nat}
    (htask : before.backlog[position]? = some task) :
    Custody
      { before with
        backlog := before.backlog.eraseIdx position
        lost := .unentered task :: before.lost } := by
  have hmem : task ∈ before.tasksAt .backlog := List.mem_of_getElem? htask
  have htransfer : Transfer before
      { before with
        backlog := before.backlog.eraseIdx position
        lost := .unentered task :: before.lost } task (some .backlog) (some .lost) := by
    refine ⟨fun place => ?_, fun _ _ => rfl, fun _ _ => Iff.rfl⟩
    cases place with
    | backlog => exact (perm_cons_eraseIdx htask).symm
    | _ => exact List.Perm.refl _
  refine htransfer.custody (hcustody.located_of_mem hmem) (fun hfits => ?_) hcustody
  obtain ⟨haccepted, record, hrecord, hbusy, hfresh⟩ := hfits
  exact ⟨haccepted, record, hrecord, hbusy,
    fun honce => by rw [(hfresh honce).1]; exact Nat.zero_le _⟩

/-- A worker enters the body of a task. -/
theorem custody_tookUp (hcustody : before.Custody) {position worker : Nat}
    (htask : before.backlog[position]? = some task) :
    Custody
      { before with
        agenda := (before.agenda.enter task worker before.agenda.reading).1
        backlog := before.backlog.eraseIdx position
        jobs := before.jobs ++ [(before.agenda.enter task worker before.agenda.reading).2] } := by
  have hmem : task ∈ before.tasksAt .backlog := List.mem_of_getElem? htask
  obtain ⟨haccepted, record, hrecord, hbusy, hfresh⟩ := hcustody.fitsAt_of_mem hmem
  obtain ⟨run, turn, hbody⟩ := Record.enter_body fun honce => (hfresh honce).2
  obtain ⟨bodySpent, hentered⟩ := record.enter_fst
  have hperm := perm_cons_eraseIdx htask
  rw [Agenda.enter_eq hrecord hbody worker]
  have htransfer : Transfer before
      { before with
        agenda := (before.agenda.withRecord task record.enter.1).note
          (.entered task run before.agenda.reading (before.agenda.dueOf task) worker)
        backlog := before.backlog.eraseIdx position
        jobs := before.jobs ++
          [⟨task, worker, before.agenda.dueOf task, before.agenda.reading, .inside (some turn)⟩] }
      task (some .backlog) (some .running) := by
    refine ⟨fun place => ?_, fun other hother => ?_, fun _ _ => Iff.rfl⟩
    · cases place with
      | backlog => exact hperm.symm
      | running =>
          show ((before.jobs ++ [_]).flatMap (Job.tasksAt .running)).Perm (task :: _)
          rw [List.flatMap_append]
          exact List.perm_append_comm
      | returning =>
          show ((before.jobs ++ [_]).flatMap (Job.tasksAt .returning)).Perm _
          rw [List.flatMap_append]
          exact List.Perm.of_eq (List.append_nil _)
      | _ => exact List.Perm.refl _
    · exact (record?_withRecord hrecord _ other).trans (if_neg hother)
  refine htransfer.custody (hcustody.located_of_mem hmem) (fun _ => ?_) hcustody
  refine ⟨haccepted, record.enter.1, (record?_withRecord hrecord _ task).trans (if_pos rfl), ?_, ?_⟩
  · rw [hentered]
    exact hbusy
  · rw [hentered]
    exact fun honce => congrArg (· + 1) (hfresh honce).1

end Scheduler

end TimedTasks
