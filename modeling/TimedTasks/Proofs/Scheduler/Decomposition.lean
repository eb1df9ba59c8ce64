import TimedTasks.Proofs.Agenda
import TimedTasks.Proofs.Scheduler.Move

/-!
# Every step consists of moves

One lemma for each kind of action takes it apart; `moves_of_step` puts them together.
-/

namespace TimedTasks

namespace Scheduler

variable {α : Type} {before after : Scheduler α}

/-! ## Calls -/

/-- A task that may be scheduled gets its record at once. -/
theorem request_of_due {submission : Submission α} {due : Moment}
    (hdue : before.firstDue submission = .ok (.ok due)) (patient : Bool) :
    before.request (.schedule submission patient) =
      (before.numbered.draft submission due).1.opened before.nextCall
        (.inserting before.agenda.records.size patient) := by
  -- The number of the call has been given out before the submission is looked at.
  have hnumbered : before.numbered.firstDue submission = .ok (.ok due) := hdue
  simp only [numbered] at hnumbered
  simp only [Scheduler.request, hnumbered]
  rfl

theorem move_request (before : Scheduler α) (request : Request α) :
    Move before (.request request) before (before.request request) := by
  cases request with
  | schedule submission patient =>
      match hdue : before.firstDue submission with
      | .error fault =>
          have hnumbered : before.numbered.firstDue submission = .error fault := hdue
          simp only [numbered] at hnumbered
          simp only [Scheduler.request, hnumbered]
          exact .refused _ trivial ⟨_, rfl⟩
      | .ok (.error error) =>
          have hnumbered : before.numbered.firstDue submission = .ok (.error error) := hdue
          simp only [numbered] at hnumbered
          simp only [Scheduler.request, hnumbered]
          exact .refused _ trivial ⟨_, rfl⟩
      | .ok (.ok due) =>
          rw [request_of_due hdue]
          exact .drafted patient hdue ⟨rfl, rfl⟩
  | cancel task =>
      unfold Scheduler.request
      by_cases haccepted : task ∈ before.accepted
      · simp only [if_pos haccepted]
        split
        · rename_i agenda hcancel
          obtain ⟨record, hrecord, hlive, rfl⟩ := Agenda.cancel_eq_true hcancel
          exact .cancelBegun ⟨rfl, haccepted, record, hrecord, hlive⟩ hrecord hlive haccepted
            ⟨_, rfl⟩
        · exact .refused _ trivial ⟨_, rfl⟩
      · simp only [if_neg haccepted]
        exact .refused _ trivial ⟨_, rfl⟩
  | shutdown drain =>
      unfold Scheduler.request
      dsimp only
      split
      · rename_i hbegins
        have hlifecycle : before.lifecycle = .running ∨
            before.lifecycle = .shuttingDown ∧ drain = false := by simpa using hbegins
        refine .shutdownBegun (fun hdrain => ?_) hlifecycle rfl
        subst hdrain
        show before.lifecycle ≠ .stopped
        rcases hlifecycle with hrunning | ⟨hshutting, -⟩
        · rw [hrunning]; decide
        · rw [hshutting]; decide
      · rename_i hrefused
        -- A scheduler that refuses to begin a shutdown stays in its stage.
        have hlifecycle : before.lifecycle.beginShutdown = before.lifecycle := by
          cases hseen : before.lifecycle with
          | running => exact absurd (Or.inl hseen) hrefused
          | shuttingDown => rfl
          | stopped => rfl
        rw [hlifecycle]
        exact .refused _ trivial ⟨_, rfl⟩

theorem move_proceed {call : CallId} {stage : Call}
    (hlookup : before.calls.lookup call = some stage)
    (hproceed : before.proceed call stage = some after) :
    Move before (.proceed call) before after := by
  have hcall := mem_calls_of_lookup hlookup
  -- One case for each stage of a call, in the order of `Scheduler.proceed`.
  unfold Scheduler.proceed at hproceed
  split at hproceed
  · rename_i task
    by_cases hadmission : before.agenda.queue.admission = .accepting
    · cases hfull : before.agenda.queue.isFull with
      | true =>
          rw [Agenda.insert_eq (Queue.insert_of_full hadmission hfull _ _)] at hproceed
          obtain rfl := Option.some.inj hproceed
          exact .parked hcall hadmission hfull
      | false =>
          rw [Agenda.insert_eq (Queue.insert_of_room hadmission hfull _ _)] at hproceed
          obtain rfl := Option.some.inj hproceed
          exact .admitted hcall hadmission hfull
    · rw [Agenda.insert_eq (Queue.insert_of_not_accepting hadmission _ _)] at hproceed
      obtain rfl := Option.some.inj hproceed
      exact .turnedAway hcall _
  · rename_i task
    split at hproceed
    · rename_i agenda hok
      obtain ⟨hadmission, hroom, rfl⟩ := Agenda.tryInsert_eq_ok hok
      obtain rfl := Option.some.inj hproceed
      exact .admitted hcall hadmission hroom
    · obtain rfl := Option.some.inj hproceed
      exact .turnedAway hcall _
  · rename_i task
    split at hproceed
    · simp at hproceed
    · rename_i producer hfind
      have hwoken := List.mem_of_find?_eq_some hfind
      have hcaller : producer.caller = call := by simpa using List.find?_some hfind
      by_cases hadmission : before.agenda.queue.admission = .closed
      · rw [Agenda.resume_eq (Queue.resume_of_closed hadmission _ _)] at hproceed
        obtain rfl := Option.some.inj hproceed
        exact .resumedRefused hcall hcaller hwoken hadmission
      · cases hfull : before.agenda.queue.isFull with
        | true =>
            rw [Agenda.resume_eq (Queue.resume_of_full hfull hadmission _ _)] at hproceed
            obtain rfl := Option.some.inj hproceed
            exact .parkedAgain hcall hcaller hwoken hadmission hfull
        | false =>
            rw [Agenda.resume_eq (Queue.resume_of_room hfull hadmission _ _)] at hproceed
            obtain rfl := Option.some.inj hproceed
            exact .resumedAdmitted hcall hcaller hwoken hadmission hfull
  · rename_i task
    obtain ⟨found, hremove⟩ := before.agenda.remove_eq task
    rw [hremove] at hproceed
    obtain rfl := Option.some.inj hproceed
    exact .removed hcall ⟨hlookup, rfl⟩
  · split at hproceed
    · obtain rfl := Option.some.inj hproceed
      exact .claimRefused hcall
    · obtain rfl := Option.some.inj hproceed
      exact .claimed hcall
  · rename_i drain
    obtain rfl := Option.some.inj hproceed
    exact .closed hcall ⟨drain, hlookup⟩
  · rename_i drain task left done
    split at hproceed
    · rename_i agenda hcancel
      obtain ⟨record, hrecord, hlive, rfl⟩ := Agenda.cancel_eq_true hcancel
      obtain rfl := Option.some.inj hproceed
      exact .swept hcall hrecord hlive
    · rename_i agenda hcancel
      obtain ⟨rfl, hdead⟩ := Agenda.cancel_eq_false hcancel
      obtain rfl := Option.some.inj hproceed
      exact .passedOver hcall hdead
  · obtain rfl := Option.some.inj hproceed
    exact .sweepDone _ hcall ⟨_, rfl⟩

/-! ## The dispatcher and the workers -/

theorem look_eq (before : Scheduler α) :
    ∃ queue dispatcher, before.look = { before.withQueue queue with dispatcher } := by
  unfold look
  split
  · exact ⟨before.agenda.queue, .broken, rfl⟩
  all_goals
    rename_i htake
    obtain ⟨queue, -, rfl⟩ := Agenda.take_eq_ok htake
    exact ⟨queue, _, rfl⟩

theorem move_look (hdispatcher : before.dispatcher = .seeking)
    (hawake : before.agenda.queue.isAsleep dispatcherCaller = false) :
    Move before .dispatch before before.look := by
  unfold look
  by_cases hadmission : before.agenda.queue.admission = .closed
  · have hreadable : before.agenda.queue.asksTime = true →
        before.agenda.clock.isReadable = true :=
      fun hasks => absurd hadmission (Queue.asksTime_iff.mp hasks).1
    rw [Agenda.take_eq hreadable (Queue.take_of_closed hadmission _ _)]
    exact .ceased hdispatcher hawake (Or.inl hadmission)
  · cases hentries : before.agenda.queue.entries with
    | nil =>
        have hreadable : before.agenda.queue.asksTime = true →
            before.agenda.clock.isReadable = true :=
          fun hasks => absurd hentries (Queue.asksTime_iff.mp hasks).2
        by_cases hover : before.agenda.queue.admission = .draining ∧
            before.agenda.queue.blockedProducers = 0
        · rw [Agenda.take_eq hreadable (Queue.take_of_over hentries hover.1 hover.2 _ _)]
          exact .ceased hdispatcher hawake (Or.inr ⟨hover.1, hentries, hover.2⟩)
        · have hmore : before.agenda.queue.admission = .draining →
              before.agenda.queue.blockedProducers ≠ 0 :=
            fun hdraining hblocked => hover ⟨hdraining, hblocked⟩
          rw [Agenda.take_eq hreadable (Queue.take_of_empty hentries hadmission hmore _ _)]
          exact .slept hdispatcher hawake hadmission (by simp [hentries]) (fun _ => hmore)
            (by simp [hentries]) (absurd hentries)
    | cons first rest =>
        have hsome : before.agenda.queue.entries ≠ [] := by simp [hentries]
        cases hreadable : before.agenda.clock.isReadable with
        | false =>
            have hasks := Queue.asksTime_iff.mpr ⟨hadmission, hsome⟩
            rw [Agenda.take_of_unreadable hasks hreadable]
            exact .broke hdispatcher hawake hadmission hsome hreadable rfl
        | true =>
            by_cases hdue : first.key.due ≤ before.agenda.reading
            · rw [Agenda.take_eq (fun _ => hreadable)
                (Queue.take_of_due hentries hadmission _ hdue)]
              exact .took hdispatcher hawake hadmission hentries hdue rfl hreadable
            · rw [Agenda.take_eq (fun _ => hreadable)
                (Queue.take_of_early hentries hadmission _ hdue)]
              exact .slept hdispatcher hawake hadmission (by simp [hentries])
                (fun hnil => absurd hnil hsome)
                (fun _ hfirst => Queue.lt_of_early hentries hdue hfirst) fun _ => hreadable

theorem move_dispatch (hdispatch : before.dispatch = some after) :
    Move before .dispatch before after := by
  unfold Scheduler.dispatch at hdispatch
  split at hdispatch
  · rename_i hdispatcher
    split at hdispatch
    · simp at hdispatch
    · rename_i hnot
      obtain rfl := Option.some.inj hdispatch
      exact move_look hdispatcher (by simpa using hnot)
  · rename_i task hdispatcher
    dsimp only at hdispatch
    cases hstart : before.agenda.start task with
    | mk agenda moved =>
        cases moved with
        | true =>
            obtain ⟨record, hrecord, hpending, rfl⟩ := Agenda.start_eq_true hstart
            rw [hstart] at hdispatch
            obtain rfl := Option.some.inj hdispatch
            exact .started _ hdispatcher hrecord hpending rfl rfl
        | false =>
            obtain ⟨rfl, hdead⟩ := Agenda.start_eq_false hstart
            rw [hstart] at hdispatch
            obtain rfl := Option.some.inj hdispatch
            exact .discarded _ hdispatcher hdead rfl rfl
  · rename_i hdispatcher
    split at hdispatch
    · rename_i hidle
      obtain rfl := Option.some.inj hdispatch
      exact .idled hdispatcher (List.isEmpty_iff.mp hidle.1) (List.isEmpty_iff.mp hidle.2)
    · simp at hdispatch
  · rename_i hdispatcher
    obtain rfl := Option.some.inj hdispatch
    exact .stopped hdispatcher rfl
  · simp at hdispatch
  · simp at hdispatch

theorem move_takeUp {position : Nat} (htakeUp : before.takeUp position = some after) :
    Move before (.takeUp position) before after := by
  unfold Scheduler.takeUp at htakeUp
  split at htakeUp
  · rename_i task worker htask hworker
    cases hreadable : before.agenda.clock.isReadable with
    | false =>
        rw [Agenda.now_of_unreadable hreadable] at htakeUp
        obtain rfl := Option.some.inj htakeUp
        exact .lostUnentered htask hworker rfl hreadable
    | true =>
        rw [Agenda.now_of_readable hreadable] at htakeUp
        obtain rfl := Option.some.inj htakeUp
        exact .tookUp htask hworker rfl hreadable
  · simp at htakeUp

/-! ## Bodies -/

variable {origin : Scheduler α} {action : Action α}

/-- A body that cancels a task pulls it out of the queue at once. -/
theorem cancelNow_of_live {task : TaskId} {record : Record α}
    (hrecord : before.record? task = some record) (hlive : record.isDone = false) :
    before.cancelNow task =
      (before.withRecord task { record with state := .cancelled }).withQueue
        (before.agenda.queue.apply (.remove task)) := by
  obtain ⟨found, hremove⟩ :=
    (before.agenda.withRecord task { record with state := .cancelled }).remove_eq task
  rw [cancelNow, Agenda.cancel_of_live hrecord hlive]
  dsimp only
  rw [hremove]
  rfl

/-- A body cancels a task that is not settled, and leaves any other alone. -/
theorem cancelNow_cases (before : Scheduler α) (task : TaskId) :
    before.cancelNow task = before ∨
      ∃ record, before.record? task = some record ∧ record.isDone = false ∧
        before.cancelNow task =
          (before.withRecord task { record with state := .cancelled }).withQueue
            (before.agenda.queue.apply (.remove task)) := by
  cases hcancel : before.agenda.cancel task with
  | mk agenda won =>
      cases won with
      | false => exact Or.inl (by rw [cancelNow, hcancel])
      | true =>
          obtain ⟨record, hrecord, hlive, -⟩ := Agenda.cancel_eq_true hcancel
          exact Or.inr ⟨record, hrecord, hlive, cancelNow_of_live hrecord hlive⟩

theorem moves_cancelNow {task : TaskId} (hbody : ∃ worker, action = .work worker)
    (hcancels : before.IsLive task → origin.Cancels action task)
    (hremoves : before.IsLive task →
      (origin.Removes action task ∧ origin.agenda.queue = before.agenda.queue) ∨
        before.agenda.queue.takers.asleep = []) :
    Relation.ReflTransGen (Move origin action) before (before.cancelNow task) := by
  rcases before.cancelNow_cases task with hsame | ⟨record, hrecord, hlive, hcancelled⟩
  · rw [hsame]
  · have hbegun := Move.cancelledInBody (hcancels ⟨record, hrecord, hlive⟩) hrecord hlive
    have hafter :
        (before.agenda.withRecord task { record with state := .cancelled }).records[task]? =
          some { record with state := .cancelled } :=
      (Agenda.records_withRecord hrecord).trans (if_pos rfl)
    rw [hcancelled]
    refine (Relation.ReflTransGen.single hbegun).tail ?_
    exact .pulledInBody hafter rfl (hremoves ⟨record, hrecord, hlive⟩) hbody

theorem reading_cancelNow (before : Scheduler α) (task : TaskId) :
    (before.cancelNow task).agenda.reading = before.agenda.reading := by
  rcases before.cancelNow_cases task with hsame | ⟨record, -, -, hcancelled⟩
  · rw [hsame]
  · rw [hcancelled]
    rfl

theorem moves_submitNow {submission : Submission α} {result : Except SchedulerError Unit}
    (hcause : origin.Submits action before.agenda.reading submission)
    (hbody : ∃ worker, action = .work worker)
    (hsubmit : before.submitNow submission = .ok (after, result)) :
    Relation.ReflTransGen (Move origin action) before after := by
  unfold submitNow at hsubmit
  split at hsubmit
  · simp at hsubmit
  · obtain ⟨rfl, -⟩ := Prod.mk.inj (Except.ok.inj hsubmit)
    exact .refl
  · rename_i due hdue
    dsimp only at hsubmit
    split at hsubmit
    · obtain ⟨rfl, -⟩ := Prod.mk.inj (Except.ok.inj hsubmit)
      exact .single (.submittedInVain hdue hcause)
    · rename_i agenda hok
      obtain ⟨hadmission, hroom, rfl⟩ := Agenda.tryInsert_eq_ok hok
      obtain ⟨rfl, -⟩ := Prod.mk.inj (Except.ok.inj hsubmit)
      exact .single (.submitted hdue hadmission hroom hcause hbody)

/-- A body that submits a task panics if its caller would. -/
theorem submitNow_eq_error {submission : Submission α} {fault : ClockFault} :
    before.submitNow submission = .error fault ↔ before.firstDue submission = .error fault := by
  unfold submitNow
  match before.firstDue submission with
  | .error other => simp
  | .ok (.error error) => simp
  | .ok (.ok due) =>
      dsimp only
      split <;> simp

theorem named?_passTime {agenda : Agenda α} {move? : Option Span}
    (hpass : before.agenda.passTime move? = .ok agenda) :
    Scheduler.named? { before with agenda } = before.named? := by
  funext name
  simp only [named?, Agenda.nameOf, Agenda.records_passTime hpass]

theorem isLive_passTime {agenda : Agenda α} {move? : Option Span}
    (hpass : before.agenda.passTime move? = .ok agenda) (task : TaskId) :
    Scheduler.IsLive { before with agenda } task ↔ before.IsLive task := by
  simp only [IsLive, record?, Agenda.records_passTime hpass]

/-- Time passes first, and unless it does, nobody has been woken when a task is pulled out. -/
theorem moves_passTime {worker : Nat} {turn : Turn α} {agenda : Agenda α}
    (hplays : before.Plays worker turn)
    (hpass : before.agenda.passTime turn.advance? = .ok agenda) :
    Relation.ReflTransGen (Move before (.work worker)) before { before with agenda } ∧
      (turn.advance? = none ∧ agenda = before.agenda ∨ agenda.queue.takers.asleep = []) := by
  cases hadvance : turn.advance? with
  | none =>
      rw [hadvance] at hpass
      obtain rfl := Except.ok.inj hpass
      exact ⟨.refl, Or.inl ⟨rfl, rfl⟩⟩
  | some move =>
      rw [hadvance] at hpass
      obtain ⟨clock, hclock, rfl⟩ := Agenda.advance_eq_ok hpass
      refine ⟨.single (.timePassed hclock ?_ ⟨worker, rfl⟩), Or.inr rfl⟩
      exact ⟨turn, move, clock, hplays, hadvance, hclock⟩

/-- What a body does up to the cancellation that it asks for, and what it does after that. -/
theorem moves_perform_of_cancel {worker : Nat} {turn : Turn α} {agenda : Agenda α} {task : TaskId}
    (hplays : before.Plays worker turn)
    (hpass : before.agenda.passTime turn.advance? = .ok agenda)
    (htask : turn.cancel?.bind before.named? = some task) :
    Relation.ReflTransGen (Move before (.work worker)) before
        (Scheduler.cancelNow { before with agenda } task) ∧
      Relation.ReflTransGen (Move before (.work worker))
        (Scheduler.cancelNow { before with agenda } task) (before.perform turn).1 := by
  obtain ⟨htime, hasleep⟩ := moves_passTime hplays hpass
  constructor
  · refine htime.trans (moves_cancelNow ⟨worker, rfl⟩ (fun hmid => ?_) fun hmid => ?_)
    · exact ⟨turn, agenda, hplays, hpass, htask, (isLive_passTime hpass task).mp hmid⟩
    · rcases hasleep with ⟨hadvance, rfl⟩ | hasleep
      · exact Or.inl ⟨⟨turn, hplays, hadvance, htask, hmid⟩, rfl⟩
      · exact Or.inr hasleep
  · -- The task that the body names is the same before and after time has passed.
    unfold perform
    rw [hpass]
    dsimp only
    rw [named?_passTime hpass, htask]
    dsimp only
    split
    · exact .refl
    · rename_i name delay script hturn
      split
      · exact .refl
      · rename_i state result hsubmit
        refine (moves_submitNow ?_ ⟨worker, rfl⟩ hsubmit).tail (.noted _ _ ⟨worker, rfl⟩)
        exact ⟨turn, agenda, name, delay, script, hplays, hpass, reading_cancelNow _ _, hturn, rfl⟩

/-- What a body does before it ends. -/
theorem moves_perform {worker : Nat} {turn : Turn α} (hplays : before.Plays worker turn) :
    Relation.ReflTransGen (Move before (.work worker)) before (before.perform turn).1 := by
  cases hpass : before.agenda.passTime turn.advance? with
  | error fault =>
      unfold perform
      rw [hpass]
  | ok agenda =>
      cases htask : turn.cancel?.bind before.named? with
      | some task =>
          obtain ⟨hfirst, hrest⟩ := moves_perform_of_cancel hplays hpass htask
          exact hfirst.trans hrest
      | none =>
          obtain ⟨htime, -⟩ := moves_passTime hplays hpass
          unfold perform
          rw [hpass]
          dsimp only
          rw [named?_passTime hpass, htask]
          dsimp only
          split
          · exact htime
          · rename_i name delay script hturn
            split
            · exact htime
            · rename_i state result hsubmit
              refine (htime.trans (moves_submitNow ?_ ⟨worker, rfl⟩ hsubmit)).tail
                (.noted _ _ ⟨worker, rfl⟩)
              exact ⟨turn, agenda, name, delay, script, hplays, hpass, rfl, hturn, rfl⟩

theorem jobs_cancelNow (before : Scheduler α) (task : TaskId) :
    (before.cancelNow task).jobs = before.jobs := by
  rcases before.cancelNow_cases task with hsame | ⟨record, -, -, hcancelled⟩
  · rw [hsame]
  · rw [hcancelled]
    rfl

theorem jobs_submitNow {submission : Submission α} {result : Except SchedulerError Unit}
    (hsubmit : before.submitNow submission = .ok (after, result)) : after.jobs = before.jobs := by
  unfold submitNow at hsubmit
  split at hsubmit
  · simp at hsubmit
  · obtain ⟨rfl, -⟩ := Prod.mk.inj (Except.ok.inj hsubmit)
    rfl
  · dsimp only at hsubmit
    split at hsubmit <;> (obtain ⟨rfl, -⟩ := Prod.mk.inj (Except.ok.inj hsubmit); rfl)

/-- What holds before a body does anything holds when it has done all, if whatever a body can do
keeps it. -/
theorem perform_induction {p : Scheduler α → Prop} (turn : Turn α) (hstart : p before)
    (htime : ∀ agenda, before.agenda.passTime turn.advance? = .ok agenda → p { before with agenda })
    (hcancel : ∀ state task, p state → p (state.cancelNow task))
    (hsubmit : ∀ state next submission name result, p state →
      state.submitNow submission = .ok (next, result) →
      p { next with agenda := next.agenda.note (.submitted name result) }) :
    p (before.perform turn).1 := by
  unfold perform
  split
  · exact hstart
  · rename_i agenda hpass
    have hpassed := htime agenda hpass
    dsimp only
    -- Whether there is a task to cancel or not, the submission comes next.
    cases turn.cancel?.bind (Scheduler.named? { before with agenda }) with
    | none =>
        dsimp only
        split
        · exact hpassed
        · split
          · exact hpassed
          · rename_i hnext
            exact hsubmit _ _ _ _ _ hpassed hnext
    | some task =>
        have hcancelled := hcancel _ task hpassed
        dsimp only
        split
        · exact hcancelled
        · split
          · exact hcancelled
          · rename_i hnext
            exact hsubmit _ _ _ _ _ hcancelled hnext

theorem jobs_perform (before : Scheduler α) (turn : Turn α) :
    (before.perform turn).1.jobs = before.jobs :=
  perform_induction (p := fun state => state.jobs = before.jobs) turn rfl (fun _ _ => rfl)
    (fun state task hsame => (jobs_cancelNow state task).trans hsame)
    fun _ _ _ _ _ hsame hsubmit => (jobs_submitNow hsubmit).trans hsame

theorem ends?_of_inside {worker : Nat} {job : Job α} {turn : Turn α}
    (hfind : (before.jobs.find? fun job => job.worker == worker) = some job)
    (hstage : job.stage = .inside (some turn)) (hpasses : before.passesGate turn = true) :
    before.ends? (.work worker) = some (job.task, (before.perform turn).2) := by
  simp only [ends?, hfind, hstage, hpasses, if_true]

/-- If a body ends, a worker is in it and gets past its gate. -/
theorem exists_inside_of_ends? {task : TaskId} {ending : Ending α}
    (hends : before.ends? action = some (task, ending)) :
    ∃ (worker : Nat) (job : Job α) (turn : Turn α), action = .work worker ∧
      (before.jobs.find? fun job => job.worker == worker) = some job ∧ job.task = task ∧
      job.stage = .inside (some turn) ∧ before.passesGate turn = true ∧
      (before.perform turn).2 = ending := by
  unfold ends? at hends
  split at hends
  · rename_i worker
    split at hends
    · rename_i job hfind
      split at hends
      · rename_i turn hstage
        split at hends
        · rename_i hpasses
          obtain ⟨htask, hending⟩ := Prod.mk.inj (Option.some.inj hends)
          exact ⟨worker, job, turn, rfl, hfind, htask, hstage, hpasses, hending⟩
        · simp at hends
      · simp at hends
    · simp at hends
  · simp at hends

theorem completes?_of_left {worker : Nat} {job : Job α} {error? : Option TaskError}
    (hfind : (before.jobs.find? fun job => job.worker == worker) = some job)
    (hstage : job.stage = .left error?) (hreadable : before.agenda.clock.isReadable = true) :
    before.completes? (.work worker) = some job.task := by
  simp only [completes?, hfind, hstage, hreadable, if_true]

/-- All that is left of a step in which a body plays is that the body ends. -/
theorem move_of_plays {worker : Nat} {turn : Turn α} (hplays : before.Plays worker turn)
    (hstep : before.step (.work worker) = some after) :
    Move before (.work worker) (before.perform turn).1 after := by
  obtain ⟨job, hfind, hstage, hpasses⟩ := hplays
  simp only [step, hfind, work, hstage, hpasses, if_true] at hstep
  obtain rfl := Option.some.inj hstep
  have hjob := List.mem_of_find?_eq_some hfind
  exact .ended _ ((jobs_perform before turn).symm ▸ hjob) hstage
    (ends?_of_inside hfind hstage hpasses)

/-- A worker is in a body, or what it does is a single move. -/
theorem plays_or_move_work {worker : Nat} {job : Job α}
    (hfind : (before.jobs.find? fun job => job.worker == worker) = some job)
    (hwork : before.work job = some after) :
    (∃ turn, before.Plays worker turn) ∨ Move before (.work worker) before after := by
  have hjob := List.mem_of_find?_eq_some hfind
  -- One case for each stage of a job, in the order of `Scheduler.work`.
  unfold work at hwork
  split at hwork
  · rename_i hstage
    obtain rfl := Option.some.inj hwork
    exact Or.inr (.skipped hjob hstage)
  · rename_i turn hstage
    split at hwork
    · rename_i hpasses
      exact Or.inl ⟨turn, job, hfind, hstage, hpasses⟩
    · simp at hwork
  · rename_i error? hstage
    cases hreadable : before.agenda.clock.isReadable with
    | false =>
        rw [Agenda.now_of_unreadable hreadable] at hwork
        obtain rfl := Option.some.inj hwork
        exact Or.inr (.lostUncounted hjob hstage ⟨worker, rfl⟩ hreadable)
    | true =>
        have hcause : before = before ∧ before.completes? (.work worker) = some job.task :=
          ⟨rfl, completes?_of_left hfind hstage hreadable⟩
        rw [Agenda.now_of_readable hreadable] at hwork
        dsimp only at hwork
        split at hwork
        · rename_i agenda hsettle
          obtain rfl := Option.some.inj hwork
          exact Or.inr (.rearmed hjob hstage hsettle hcause hreadable)
        · rename_i agenda hsettle
          obtain rfl := Option.some.inj hwork
          exact Or.inr (.settled hjob hstage hsettle hcause hreadable)
  · rename_i hstage
    split at hwork
    · rename_i agenda hrequeue
      obtain ⟨hadmission, hcancelled, rfl⟩ := Agenda.requeue_eq_true hrequeue
      obtain rfl := Option.some.inj hwork
      exact Or.inr (.requeued hjob hstage hadmission hcancelled)
    · rename_i agenda hrequeue
      have hrefused := Agenda.refused_of_requeue hrequeue
      obtain rfl := Agenda.requeue_eq_false hrequeue
      obtain rfl := Option.some.inj hwork
      exact Or.inr (.requeueRefused hjob hstage hrefused)
  · rename_i hstage
    obtain rfl := Option.some.inj hwork
    cases hcancel : before.agenda.cancel job.task with
    | mk agenda won =>
        cases won with
        | true =>
            obtain ⟨record, hrecord, hlive, rfl⟩ := Agenda.cancel_eq_true hcancel
            exact Or.inr (.dropped hjob hstage hrecord hlive)
        | false =>
            obtain ⟨rfl, hdead⟩ := Agenda.cancel_eq_false hcancel
            exact Or.inr (.letGo hjob hstage hdead)

theorem moves_work {worker : Nat} {job : Job α}
    (hfind : (before.jobs.find? fun job => job.worker == worker) = some job)
    (hwork : before.work job = some after) :
    Relation.ReflTransGen (Move before (.work worker)) before after := by
  rcases plays_or_move_work hfind hwork with ⟨turn, hplays⟩ | hmove
  · have hstep : before.step (.work worker) = some after := by simp only [step, hfind, hwork]
    exact (moves_perform hplays).tail (move_of_plays hplays hstep)
  · exact .single hmove

/-! ## All steps -/

/-- Every step is a single move, unless a worker goes on with its job. -/
theorem move_of_step (hother : ∀ worker, action ≠ .work worker)
    (hstep : before.step action = some after) : Move before action before after := by
  cases action with
  | request request =>
      obtain rfl := Option.some.inj hstep
      exact move_request before request
  | proceed call =>
      simp only [step] at hstep
      split at hstep
      · rename_i stage hlookup
        exact move_proceed hlookup hstep
      · simp at hstep
  | advance move =>
      simp only [step] at hstep
      split at hstep
      · rename_i clock hclock
        obtain rfl := Option.some.inj hstep
        exact .clockMoved hclock rfl
      · simp at hstep
  | announce =>
      simp only [step] at hstep
      split at hstep
      · simp at hstep
      · rename_i hmoved
        obtain rfl := Option.some.inj hstep
        exact .announced trivial ⟨rfl, hmoved⟩
  | expire =>
      obtain rfl := Option.some.inj hstep
      exact .expired trivial rfl
  | dispatch => exact move_dispatch hstep
  | takeUp position => exact move_takeUp hstep
  | work worker => exact absurd rfl (hother worker)
  | release gate =>
      obtain rfl := Option.some.inj hstep
      exact .gateOpened gate rfl
  | observe observer =>
      obtain rfl := Option.some.inj hstep
      exact .observed observer rfl

/-- Every step is a few moves in a row. -/
theorem moves_of_step (hstep : before.step action = some after) :
    Relation.ReflTransGen (Move before action) before after := by
  cases action with
  | work worker =>
      simp only [step] at hstep
      split at hstep
      · rename_i job hfind
        exact moves_work hfind hstep
      · simp at hstep
  | _ => exact .single (move_of_step (by simp) hstep)

end Scheduler

end TimedTasks
