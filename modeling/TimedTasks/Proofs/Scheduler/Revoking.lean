import TimedTasks.Proofs.Scheduler.Standstill

/-!
# Who cancels a task

A task is cancelled because its holder or a body asks for it (`Cancels`), or the scheduler cancels
it of its own accord.  It does so with the tasks that a shutdown call has swept out of the queue,
and with a task that the queue does not take back.  As long as it runs, no call sweeps anything out,
and the queue takes every task back that has not been cancelled already (`Warranted`).

So whatever has been cancelled has been cancelled in a step in which somebody asked for it, or when
the scheduler did not run any more (`Run.exists_cause`).
-/

namespace TimedTasks

namespace Scheduler

variable {α : Type} {origin before after scheduler : Scheduler α} {action : Action α}
variable {config : Config} {cores : Nat} {past : List (Scheduler α × Action α)} {task : TaskId}

/-! ## What a running scheduler does not do -/

/-- A scheduler that cancels tasks of its own accord is shutting down. -/
structure Warranted (scheduler : Scheduler α) : Prop where
  of_cancelling : ∀ call drain left done,
    (call, .cancelling drain left done) ∈ scheduler.calls → scheduler.lifecycle ≠ .running
  of_refused : ∀ job ∈ scheduler.jobs, job.stage = .refused →
    (scheduler.Has job.task fun record => record.state = .cancelled) ∨
      scheduler.lifecycle ≠ .running

theorem cancelled_of_cancelledOf (hcancelled : before.agenda.cancelledOf task = true) :
    before.Has task fun record => record.state = .cancelled := by
  cases hrecord : before.agenda.records[task]? with
  | none => simp [Agenda.cancelledOf, hrecord] at hcancelled
  | some record =>
      refine ⟨record, hrecord, ?_⟩
      simpa [Agenda.cancelledOf, hrecord, Record.isCancelled] using hcancelled

/-- A task is refused by the queue when its worker brings it back. -/
theorem Move.refused_cases (hmove : Move origin action before after) {job : Job α}
    (hjob : job ∈ after.jobs) (hstage : job.stage = .refused) :
    job ∈ before.jobs ∨ before.agenda.queue.admission ≠ .accepting ∨
      before.agenda.cancelledOf job.task = true := by
  have hgoOn : ∀ {state : Scheduler α} {moved : Job α} {stage : Stage α}, stage ≠ .refused →
      state.jobs = before.jobs → job ∈ (state.goOnWith moved stage).jobs → job ∈ before.jobs := by
    intro state moved stage hnot hjobs hmem
    rcases mem_jobs_goOnWith hmem with hold | rfl
    · exact hjobs ▸ hold
    · exact absurd hstage hnot
  cases hmove with
  | @tookUp position moved worker =>
      rcases List.mem_append.mp hjob with hold | hnew
      · exact Or.inl hold
      · obtain ⟨turn?, hentered⟩ := before.agenda.enter_snd moved worker before.agenda.reading
        rw [hentered, List.mem_singleton] at hnew
        rw [hnew] at hstage
        exact absurd hstage (by simp)
  | skipped | ended => exact Or.inl (hgoOn (by simp) rfl hjob)
  | rearmed => exact Or.inl (hgoOn (by simp) rfl hjob)
  | requeueRefused hmem _ hrefused =>
      rcases mem_jobs_goOnWith hjob with hold | rfl
      · exact Or.inl hold
      · exact Or.inr hrefused
  | settled | requeued | dropped | letGo | lostUncounted =>
      exact Or.inl (List.mem_of_mem_filter hjob)
  | _ => exact Or.inl hjob

theorem Move.warranted (hmove : Move origin action before after) (hsound : before.Sound)
    (hforetold : before.Foretold) (hwarranted : before.Warranted) : after.Warranted where
  of_cancelling := by
    intro call drain left done hcall
    rcases hmove.arises hcall with hbefore | harises
    · exact hmove.not_running (hwarranted.of_cancelling call drain left done hbefore)
    · cases harises with
      | cancelling hclosing => exact hmove.not_running (hforetold.of_closes _ _ hclosing trivial)
      | sweeping hsweeping => exact hmove.not_running (hwarranted.of_cancelling _ _ _ _ hsweeping)
  of_refused := by
    intro job hjob hstage
    have hevolve := hmove.recordsEvolve hsound.custody
    rcases hmove.refused_cases hjob hstage with hold | hnot | hdead
    · exact (hwarranted.of_refused job hold hstage).imp hevolve.cancelled hmove.not_running
    · exact Or.inr (hmove.not_running (hforetold.of_not_accepting hnot))
    · exact Or.inl (hevolve.cancelled (cancelled_of_cancelledOf hdead))

theorem Reachable.warranted (hreachable : Reachable config cores scheduler) :
    scheduler.Warranted := by
  have hboth : scheduler.Foretold ∧ scheduler.Warranted := by
    refine hreachable.induction_on_moves (p := fun state => state.Foretold ∧ state.Warranted)
      (fun first hcreated => ?_) fun _ _ _ _ hsound hboth hmove =>
        ⟨hmove.foretold hsound hboth.1, hmove.warranted hsound hboth.1 hboth.2⟩
    refine ⟨(Reachable.start hcreated).foretold, ?_⟩
    obtain rfl := new_eq_ok hcreated
    exact ⟨fun _ _ _ _ hcall => absurd hcall List.not_mem_nil,
      fun _ hjob => absurd hjob List.not_mem_nil⟩
  exact hboth.2

/-! ## Causes -/

/-- When one record changes, no other task is cancelled. -/
theorem cancelled_of_record {moved : TaskId} {later : Record α}
    (hcancelled : after.Has task fun record => record.state = .cancelled)
    (hafter : ∀ other, after.record? other =
      if other = moved then some later else before.record? other) :
    (before.Has task fun record => record.state = .cancelled) ∨
      task = moved ∧ later.state = .cancelled := by
  obtain ⟨record, hrecord, hstate⟩ := hcancelled
  rw [hafter] at hrecord
  split at hrecord
  · rename_i htask
    obtain rfl := Option.some.inj hrecord
    exact Or.inr ⟨htask, hstate⟩
  · exact Or.inl ⟨record, hrecord, hstate⟩

/-- A record that is not cancelled when it changes has been cancelled before. -/
theorem cancelled_of_kept {moved : TaskId} {record later : Record α}
    (hcancelled : after.Has task fun record => record.state = .cancelled)
    (hrecord : before.record? moved = some record)
    (hafter : ∀ other, after.record? other =
      if other = moved then some later else before.record? other)
    (hkept : later.state = .cancelled → record.state = .cancelled) :
    before.Has task fun record => record.state = .cancelled := by
  rcases cancelled_of_record hcancelled hafter with hold | ⟨rfl, hstate⟩
  · exact hold
  · exact ⟨record, hrecord, hkept hstate⟩

theorem cancelled_of_draft {submission : Submission α} {due : Moment}
    (hcancelled : after.Has task fun record => record.state = .cancelled)
    (hrecords : after.agenda.records = (before.draft submission due).1.agenda.records) :
    before.Has task fun record => record.state = .cancelled := by
  have hafter : ∀ other, after.record? other =
      if other = before.agenda.records.size then some (submission.record due)
      else before.record? other := fun other =>
    (congrArg (·[other]?) hrecords).trans (record?_draft submission due other)
  refine (cancelled_of_record hcancelled hafter).resolve_right fun hnew => ?_
  simp [Submission.record] at hnew

/-- A task is cancelled because somebody asks for it, or by a scheduler that does not run. -/
theorem Move.cancelled_cases (hmove : Move origin action before after) (hsound : before.Sound)
    (hwarranted : before.Warranted)
    (hcancelled : after.Has task fun record => record.state = .cancelled) :
    (before.Has task fun record => record.state = .cancelled) ∨ origin.Cancels action task ∨
      before.lifecycle ≠ .running := by
  have hcustody := hsound.custody
  cases hmove with
  | drafted | submittedInVain | submitted => exact Or.inl (cancelled_of_draft hcancelled rfl)
  | cancelBegun hcause hrecord | cancelledInBody hcause hrecord =>
      rcases cancelled_of_record hcancelled (record?_withRecord hrecord _) with hold | ⟨rfl, -⟩
      · exact Or.inl hold
      · exact Or.inr (Or.inl hcause)
  | swept hcall => exact Or.inr (Or.inr (hwarranted.of_cancelling _ _ _ _ hcall))
  | @dropped job record hjob hstage hrecord =>
      rcases cancelled_of_record hcancelled (record?_withRecord hrecord _) with hold | ⟨rfl, -⟩
      · exact Or.inl hold
      · exact (hwarranted.of_refused job hjob hstage).imp_right Or.inr
  | started _ _ hrecord =>
      exact Or.inl (cancelled_of_kept hcancelled hrecord (record?_withRecord hrecord _) (by simp))
  | @tookUp position moved worker htask =>
      obtain ⟨record, run, turn, hrecord, hbody⟩ := hcustody.exists_body htask
      obtain ⟨bodySpent, henter⟩ := record.enter_fst
      refine Or.inl (cancelled_of_kept hcancelled hrecord (fun other => ?_)
        fun hstate => (congrArg Record.state henter).symm.trans hstate)
      rw [record?, Agenda.enter_eq hrecord hbody]
      exact Agenda.records_withRecord hrecord
  | @ended job _ ending hjob =>
      obtain ⟨record, hrecord⟩ := (hcustody.fitsAt_of_mem (mem_tasksAt_place hjob)).exists_record
      obtain ⟨result?, failures, lastError?, hleave⟩ := record.leave_eq ending
      exact Or.inl (cancelled_of_kept hcancelled hrecord (Agenda.records_update hrecord _)
        fun hstate => (congrArg Record.state hleave).symm.trans hstate)
  | settled hjob _ hsettle | rearmed hjob _ hsettle =>
      obtain ⟨record, hrecord⟩ := (hcustody.fitsAt_of_mem (mem_tasksAt_place hjob)).exists_record
      obtain ⟨later, hsettles⟩ := Agenda.settles_settle hrecord hsettle
      exact Or.inl (cancelled_of_kept hcancelled hrecord hsettles.records_eq hsettles.cancelled)
  | _ => exact Or.inl hcancelled

/-- A task is cancelled in a step because somebody asks for it, or because the scheduler is
shutting down. -/
theorem Reachable.cause_of_cancelled (hreachable : Reachable config cores before)
    (hstep : before.step action = some after)
    (hnot : ¬ before.Has task fun record => record.state = .cancelled)
    (hcancelled : after.Has task fun record => record.state = .cancelled) :
    before.Cancels action task ∨ before.lifecycle ≠ .running := by
  have hsound := hreachable.sound
  have hwarranted := hreachable.warranted
  cases action with
  | request asked =>
      obtain rfl := Option.some.inj hstep
      exact ((move_request before asked).cancelled_cases hsound hwarranted hcancelled).resolve_left
        hnot
  | dispatch =>
      exact ((move_dispatch hstep).cancelled_cases hsound hwarranted hcancelled).resolve_left hnot
  | _ =>
      -- None of the other steps changes the lifecycle halfway.
      refine (Scheduler.of_step (p := fun state => (state.Foretold ∧ state.Warranted) ∧
          state.lifecycle = before.lifecycle ∧
          ((state.Has task fun record => record.state = .cancelled) →
            before.Cancels _ task ∨ before.lifecycle ≠ .running))
        hsound hstep ⟨⟨hreachable.foretold, hwarranted⟩, rfl, fun hdead => absurd hdead hnot⟩
        ?_).2.2 hcancelled
      rintro first second hfirst ⟨⟨hforetold, hwarranted⟩, hlifecycle, hcause⟩ hmove
      refine ⟨⟨hmove.foretold hfirst hforetold, hmove.warranted hfirst hforetold hwarranted⟩,
        ?_, fun hlater => ?_⟩
      · rcases hmove.lifecycle_cases with hsame | ⟨⟨drain, hasked⟩, -⟩ | ⟨hasked, -⟩
        · exact hsame.trans hlifecycle
        · cases hasked
        · cases hasked
      · rcases hmove.cancelled_cases hfirst hwarranted hlater with hold | hcancels | hbegun
        · exact hcause hold
        · exact Or.inl hcancels
        · exact Or.inr (hlifecycle ▸ hbegun)

/-- Whatever is cancelled has been cancelled in some step, and for one of these reasons. -/
theorem Run.exists_cause (hrun : Run config cores past scheduler)
    (hcancelled : scheduler.Has task fun record => record.state = .cancelled) :
    ∃ before action after, (before, action) ∈ past ∧ before.step action = some after ∧
      (¬ before.Has task fun record => record.state = .cancelled) ∧
      (after.Has task fun record => record.state = .cancelled) ∧
      (before.Cancels action task ∨ before.lifecycle ≠ .running) := by
  induction hrun with
  | start hcreated =>
      obtain ⟨record, hrecord, -⟩ := hcancelled
      obtain ⟨hnone, -⟩ := Prod.mk.inj (standing_new hcreated task)
      exact absurd (hnone.symm.trans hrecord) (by simp)
  | @step past before after hrun action hstep ih =>
      -- The step in question is the one before which the task was not cancelled.
      by_cases hold : before.Has task fun record => record.state = .cancelled
      · obtain ⟨first, cause, second, hmem, hothers⟩ := ih hold
        exact ⟨first, cause, second, List.mem_cons_of_mem _ hmem, hothers⟩
      · exact ⟨before, action, after, List.mem_cons_self .., hstep, hold, hcancelled,
          hrun.reachable.cause_of_cancelled hstep hold hcancelled⟩

end Scheduler

end TimedTasks
