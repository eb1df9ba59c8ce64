import TimedTasks.Proofs.Scheduler.Callers
import TimedTasks.Proofs.Scheduler.Cancelling
import TimedTasks.Proofs.Scheduler.Standstill

/-!
# What a shutdown reports

A call that shuts the scheduler down sweeps tasks out of the queue in one step, and cancels them
one by one in the steps that follow.  Whoever else holds one of these tasks can cancel it in
between, and a second call that shuts the scheduler down at once can go on beside the first.

What the call reports in the end are the tasks that were not settled when it came to them
(`Sweeping`): each of them has been cancelled in a step of this call (`CancelledBy`) and of no
other, since it is cancelled ever after.  While it is with the call nobody runs it, and nobody
starts what has been cancelled (`Retired`).

Only one of the calls that are to shut the scheduler down at once gets past its first stage
(`Claims`), and only this one adds to the count of abandoned tasks.
-/

namespace TimedTasks

namespace Scheduler

variable {α : Type} {origin before after scheduler : Scheduler α} {action : Action α}
variable {config : Config} {cores : Nat} {past : List (Scheduler α × Action α)}
variable {call other : CallId} {task : TaskId} {drain : Bool} {left done : List TaskId}

/-! ## Tasks that are over -/

/-- The task has been cancelled, and no run of it is in flight. -/
structure Retired (scheduler : Scheduler α) (task : TaskId) : Prop where
  cancelled : scheduler.Has task fun record => record.state = .cancelled
  not_in_flight : task ∉ scheduler.inFlight

theorem mem_inFlight_of_jobs (hmem : task ∈ after.inFlight)
    (hbacklog : after.backlog = before.backlog)
    (hjobs : ∀ job ∈ after.jobs, ∃ same ∈ before.jobs, same.task = job.task) :
    task ∈ before.inFlight := by
  rcases List.mem_append.mp hmem with hwaits | hruns
  · exact List.mem_append_left _ (hbacklog ▸ hwaits)
  · obtain ⟨job, hjob, rfl⟩ := List.mem_map.mp hruns
    obtain ⟨same, hsame, heq⟩ := hjobs job hjob
    exact List.mem_append_right _ (heq ▸ List.mem_map_of_mem hsame)

/-- The runs in flight are of tasks that were in flight before, and of the task that has just
been started. -/
theorem Move.inFlight_cases (hmove : Move origin action before after)
    (hmem : task ∈ after.inFlight) :
    task ∈ before.inFlight ∨ before.Has task fun record => record.state = .pending := by
  cases hmove with
  | @started moved record _ _ hrecord hpending =>
      rcases List.mem_append.mp hmem with hwaits | hruns
      · rcases List.mem_append.mp hwaits with hold | hnew
        · exact Or.inl (List.mem_append_left _ hold)
        · obtain rfl := List.mem_singleton.mp hnew
          exact Or.inr ⟨record, hrecord, hpending⟩
      · exact Or.inl (List.mem_append_right _ hruns)
  | @tookUp position moved worker htask =>
      refine Or.inl ?_
      rcases List.mem_append.mp hmem with hwaits | hruns
      · exact List.mem_append_left _ (List.mem_of_mem_eraseIdx hwaits)
      · rw [List.map_append, List.mem_append] at hruns
        rcases hruns with hold | hnew
        · exact List.mem_append_right _ hold
        · obtain ⟨turn?, hjob⟩ := before.agenda.enter_snd moved worker before.agenda.reading
          rw [hjob] at hnew
          obtain rfl := List.mem_singleton.mp hnew
          exact List.mem_append_left _ (List.mem_of_getElem? htask)
  | lostUnentered =>
      refine Or.inl ((List.Sublist.subset ?_) hmem)
      exact (List.eraseIdx_sublist ..).append_right (before.jobs.map Job.task)
  | skipped hjob | ended _ hjob | rearmed hjob | requeueRefused hjob =>
      refine Or.inl (mem_inFlight_of_jobs hmem rfl fun item hitem => ?_)
      rcases mem_jobs_goOnWith hitem with hold | rfl
      · exact ⟨item, hold, rfl⟩
      · exact ⟨_, hjob, rfl⟩
  | settled | requeued | dropped | letGo | lostUncounted =>
      refine Or.inl (mem_inFlight_of_jobs hmem rfl fun item hitem => ?_)
      exact ⟨item, List.mem_of_mem_filter hitem, rfl⟩
  | _ => exact Or.inl hmem

theorem Move.retired (hmove : Move origin action before after) (hsound : before.Sound)
    (hretired : before.Retired task) : after.Retired task where
  cancelled := (hmove.recordsEvolve hsound.custody).cancelled hretired.cancelled
  not_in_flight := by
    intro hmem
    rcases hmove.inFlight_cases hmem with hold | hpending
    · exact hretired.not_in_flight hold
    · obtain ⟨record, hrecord, hstate⟩ := hpending
      exact absurd (hstate.symm.trans (hretired.cancelled.holds hrecord)) (by decide)

theorem Retired.of_step (hretired : before.Retired task) (hsound : before.Sound)
    (hstep : before.step action = some after) : after.Retired task :=
  Scheduler.of_step (p := fun state => state.Retired task) hsound hstep hretired
    fun _ _ hfirst hmiddle hmove => hmove.retired hfirst hmiddle

/-! ## What has been asked for, and who has cancelled what -/

/-- The call was made to shut the scheduler down. -/
def Asked (past : List (Scheduler α × Action α)) (call : CallId) (drain : Bool) : Prop :=
  ∃ state, (state, .request (.shutdown drain)) ∈ past ∧ state.nextCall = call

/-- Whether a step moves the record of a task to the cancelled state. -/
def Revokes (scheduler : Scheduler α) (action : Action α) (task : TaskId) : Prop :=
  ∃ after, scheduler.step action = some after ∧ scheduler.IsLive task ∧
    after.Has task fun record => record.state = .cancelled

/-- The task was cancelled in a step of the call. -/
def CancelledBy (past : List (Scheduler α × Action α)) (call : CallId) (task : TaskId) : Prop :=
  ∃ state, (state, .proceed call) ∈ past ∧ state.Revokes (.proceed call) task

/-- The call has claimed the immediate shutdown, which nobody had done before. -/
def Claims (past : List (Scheduler α × Action α)) (call : CallId) : Prop :=
  ∃ state, (state, .proceed call) ∈ past ∧ state.calls.lookup call = some .claiming ∧
    state.claimed = false

theorem Asked.cons (hasked : Asked past call drain) (before : Scheduler α) (action : Action α) :
    Asked ((before, action) :: past) call drain := by
  obtain ⟨state, hmem, hcall⟩ := hasked
  exact ⟨state, List.mem_cons_of_mem _ hmem, hcall⟩

theorem asked_cons : Asked ((before, action) :: past) call drain ↔
    action = .request (.shutdown drain) ∧ before.nextCall = call ∨ Asked past call drain := by
  simp only [Asked, List.mem_cons, Prod.mk.injEq, or_and_right, exists_or]
  refine or_congr_left ⟨?_, ?_⟩
  · rintro ⟨state, ⟨rfl, rfl⟩, hcall⟩
    exact ⟨rfl, hcall⟩
  · rintro ⟨rfl, hcall⟩
    exact ⟨before, ⟨rfl, rfl⟩, hcall⟩

theorem cancelledBy_cons : CancelledBy ((before, action) :: past) call task ↔
    action = .proceed call ∧ before.Revokes action task ∨ CancelledBy past call task := by
  simp only [CancelledBy, List.mem_cons, Prod.mk.injEq, or_and_right, exists_or]
  refine or_congr_left ⟨?_, ?_⟩
  · rintro ⟨state, ⟨rfl, rfl⟩, hrevokes⟩
    exact ⟨rfl, hrevokes⟩
  · rintro ⟨rfl, hrevokes⟩
    exact ⟨before, ⟨rfl, rfl⟩, hrevokes⟩

theorem claims_cons : Claims ((before, action) :: past) call ↔
    action = .proceed call ∧ before.calls.lookup call = some .claiming ∧ before.claimed = false ∨
      Claims past call := by
  simp only [Claims, List.mem_cons, Prod.mk.injEq, or_and_right, exists_or]
  refine or_congr_left ⟨?_, ?_⟩
  · rintro ⟨state, ⟨rfl, rfl⟩, hclaims⟩
    exact ⟨rfl, hclaims⟩
  · rintro ⟨rfl, hclaims⟩
    exact ⟨before, ⟨rfl, rfl⟩, hclaims⟩

theorem cancelledBy_cons_of_ne (hother : action ≠ .proceed call) :
    CancelledBy ((before, action) :: past) call task ↔ CancelledBy past call task := by
  rw [cancelledBy_cons]
  exact or_iff_right fun hproceed => hother hproceed.1

theorem Run.cancelled_of_cancelledBy (hrun : Run config cores past scheduler)
    (hcancelled : CancelledBy past call task) :
    scheduler.Has task fun record => record.state = .cancelled := by
  induction hrun with
  | start => 
      obtain ⟨state, hmem, -⟩ := hcancelled
      exact absurd hmem List.not_mem_nil
  | @step past before after hrun action hstep ih =>
      rcases cancelledBy_cons.mp hcancelled with ⟨-, found, hfound, -, hnow⟩ | hearlier
      · obtain rfl := Option.some.inj (hstep.symm.trans hfound)
        exact hnow
      · exact (hrun.reachable.sound.recordsEvolve_of_step hstep).cancelled (ih hearlier)

/-- A task is cancelled once, and so by one call. -/
theorem Run.cancelledBy_unique (hrun : Run config cores past scheduler)
    (hfirst : CancelledBy past call task) (hsecond : CancelledBy past other task) :
    call = other := by
  induction hrun with
  | start =>
      obtain ⟨state, hmem, -⟩ := hfirst
      exact absurd hmem List.not_mem_nil
  | @step past before after hrun action hstep ih =>
      -- A task that has been cancelled before a step is not live in it.
      have hnot : ∀ {call : CallId}, CancelledBy past call task → ¬ before.Revokes action task := by
        rintro call hearlier ⟨found, -, hlive, -⟩
        obtain ⟨record, hrecord, hstate⟩ := hrun.cancelled_of_cancelledBy hearlier
        have hdone : record.isDone = true := (Record.isSettled_of_cancelled hstate).1
        exact not_isLive_of_done ⟨record, hrecord, hdone⟩ hlive
      rcases cancelledBy_cons.mp hfirst with ⟨hcall, hrevokes⟩ | hfirst
      · rcases cancelledBy_cons.mp hsecond with ⟨hother, -⟩ | hsecond
        · exact Action.proceed.inj (hcall.symm.trans hother)
        · exact absurd hrevokes (hnot hsecond)
      · rcases cancelledBy_cons.mp hsecond with ⟨-, hrevokes⟩ | hsecond
        · exact absurd hrevokes (hnot hfirst)
        · exact ih hfirst hsecond

theorem Run.lt_next_of_asked (hrun : Run config cores past scheduler)
    (hasked : Asked past call drain) : call < scheduler.nextCall := by
  obtain ⟨state, hmem, hcall⟩ := hasked
  exact hrun.lt_next_of_mem hmem hcall

theorem Run.lt_next_of_cancelledBy (hrun : Run config cores past scheduler)
    (hcancelled : CancelledBy past call task) : call < scheduler.nextCall := by
  obtain ⟨state, hmem, -⟩ := hcancelled
  exact hrun.lt_next_of_mem hmem rfl

theorem Run.asked_unique (hrun : Run config cores past scheduler) {first second : Bool}
    (hfirst : Asked past call first) (hsecond : Asked past call second) : first = second := by
  obtain ⟨state, hmem, hcall⟩ := hfirst
  obtain ⟨later, hlater, hsame⟩ := hsecond
  obtain ⟨-, heq⟩ := hrun.request_unique hmem hlater (hcall.trans hsame.symm)
  exact Request.shutdown.inj heq

theorem Run.claimed_of_claims (hrun : Run config cores past scheduler)
    (hclaims : Claims past call) : scheduler.claimed = true := by
  induction hrun with
  | start =>
      obtain ⟨state, hmem, -⟩ := hclaims
      exact absurd hmem List.not_mem_nil
  | @step past before after hrun action hstep ih =>
      rcases claims_cons.mp hclaims with ⟨rfl, hlookup, hunclaimed⟩ | hearlier
      · obtain ⟨stage, hfound, hproceeds⟩ := proceeds_of_step hstep
        obtain rfl := Option.some.inj (hlookup.symm.trans hfound)
        cases hproceeds with
        | claims => rfl
        | turnedAway hclaimed => exact absurd (hunclaimed.symm.trans hclaimed) Bool.false_ne_true
        | answers hstage | waits hstage => exact absurd trivial hstage
      · exact claimed_of_step hstep (ih hearlier)

theorem Run.claims_unique (hrun : Run config cores past scheduler) (hfirst : Claims past call)
    (hsecond : Claims past other) : call = other := by
  induction hrun with
  | start =>
      obtain ⟨state, hmem, -⟩ := hfirst
      exact absurd hmem List.not_mem_nil
  | @step past before after hrun action hstep ih =>
      have hnot : ∀ {call : CallId}, Claims past call → before.claimed ≠ false :=
        fun hearlier hunclaimed => Bool.false_ne_true
          (hunclaimed.symm.trans (hrun.claimed_of_claims hearlier))
      rcases claims_cons.mp hfirst with ⟨hcall, -, hunclaimed⟩ | hfirst
      · rcases claims_cons.mp hsecond with ⟨hother, -⟩ | hsecond
        · exact Action.proceed.inj (hcall.symm.trans hother)
        · exact absurd hunclaimed (hnot hsecond)
      · rcases claims_cons.mp hsecond with ⟨-, -, hunclaimed⟩ | hsecond
        · exact absurd hunclaimed (hnot hfirst)
        · exact ih hfirst hsecond

/-! ## What a call cancels -/

/-- A call cancels the task that it has come to, if nobody else has. -/
theorem Proceeds.revokes_iff {stage : Call} (hproceeds : before.Proceeds call stage after)
    (hstep : before.step (.proceed call) = some after) :
    before.Revokes (.proceed call) task ↔
      before.IsLive task ∧ ∃ drain left done, stage = .cancelling drain (task :: left) done := by
  have hrevokes : before.Revokes (.proceed call) task ↔ before.IsLive task ∧
      after.Has task fun record => record.state = .cancelled := by
    rw [Revokes, hstep]
    simp
  rw [hrevokes]
  refine and_congr_right fun hlive => ?_
  -- A step that leaves the records alone does not cancel anything.
  have hsame : after.agenda.records = before.agenda.records →
      ¬ after.Has task fun record => record.state = .cancelled := by
    rintro hrecords ⟨record, hrecord, hstate⟩
    have hbefore : before.record? task = some record := by rwa [record?, ← hrecords]
    have hdone : record.isDone = true := (Record.isSettled_of_cancelled hstate).1
    exact not_isLive_of_done ⟨record, hbefore, hdone⟩ hlive
  cases hproceeds with
  | turnedAway | claims | closes => exact iff_of_false (hsame rfl) (by simp)
  | reports hrecords => exact iff_of_false (hsame hrecords) (by simp)
  | answers hstage hrecords | waits hstage hrecords =>
      refine iff_of_false (hsame hrecords) ?_
      rintro ⟨drain, left, done, rfl⟩
      exact hstage trivial
  | passesOver hdead =>
      refine iff_of_false (hsame rfl) ?_
      rintro ⟨drain, left, done, heq⟩
      cases heq
      obtain ⟨record, hrecord, hnot⟩ := hlive
      exact absurd (hnot.symm.trans (hdead record hrecord)) Bool.false_ne_true
  | @cancels drain moved left done record hrecord =>
      by_cases htask : moved = task
      · subst htask
        exact iff_of_true (has_withRecord hrecord rfl) ⟨drain, left, done, rfl⟩
      · refine iff_of_false ?_ (by simp [htask])
        rintro ⟨later, hlater, hstate⟩
        have hkept := record?_withRecord hrecord { record with state := .cancelled } task
        rw [if_neg (Ne.symm htask)] at hkept
        have hbefore : before.record? task = some later := hkept.symm.trans hlater
        have hdone : later.isDone = true := (Record.isSettled_of_cancelled hstate).1
        exact not_isLive_of_done ⟨later, hbefore, hdone⟩ hlive

/-! ## What a call has done so far -/

/-- The queued tasks that a shutdown is to sweep out of the queue, in the order of their keys. -/
def sweepable (scheduler : Scheduler α) (drain : Bool) : List TaskId :=
  scheduler.agenda.queue.tasks.filter fun task => !drain || scheduler.agenda.periodicOf task

theorem Sound.close_removed (hsound : scheduler.Sound) (drain : Bool) :
    (scheduler.agenda.queue.close drain).2.map (·.task) = scheduler.sweepable drain := by
  rw [Queue.close_removed, sweepable, Queue.tasks, List.filter_map]
  refine congrArg (List.map _) (List.filter_congr fun entry hentry => ?_)
  rw [Function.comp, ← hsound.flagged.entry_eq entry hentry]
  cases drain <;> simp [Queue.staysOn]

/-- What a call has done with the tasks that it has swept out of the queue: it has handled some
of them, and cancelled some of these. -/
structure Sweeping (past : List (Scheduler α × Action α)) (scheduler : Scheduler α)
    (call : CallId) (drain : Bool) (left done : List TaskId) : Prop where
  asked : Asked past call drain
  claims : drain = false → Claims past call
  mem_done_iff : ∀ task, task ∈ done ↔ CancelledBy past call task
  swept : ∃ origin handled, (origin, .proceed call) ∈ past ∧
    origin.calls.lookup call = some (.closing drain) ∧
    origin.sweepable drain = handled ++ left ∧ done.Sublist handled ∧
    ∀ task ∈ handled, scheduler.Retired task

/-- What is known of a call that has come to a stage. -/
def OnRecord (past : List (Scheduler α × Action α)) (scheduler : Scheduler α) (call : CallId) :
    Call → Prop
  | .claiming => Asked past call false ∧ ∀ task, ¬ CancelledBy past call task
  | .closing drain =>
      Asked past call drain ∧ (drain = false → Claims past call) ∧
        ∀ task, ¬ CancelledBy past call task
  | .cancelling drain left done => Sweeping past scheduler call drain left done
  | .inserting _ _ | .parked _ | .removing _ => True

/-- What is known of a call as long as it is in progress, and after it has been answered. -/
structure Recorded (past : List (Scheduler α × Action α)) (scheduler : Scheduler α)
    (call : CallId) : Prop where
  in_progress : ∀ stage, scheduler.calls.lookup call = some stage →
    OnRecord past scheduler call stage
  answered : ∀ done, scheduler.answer? call = some (.shutDown (.ok done)) →
    ∃ drain, Sweeping past scheduler call drain [] done

/-- The steps of others change nothing. -/
theorem Sweeping.cons (hsweeping : Sweeping past before call drain left done)
    (hsound : before.Sound) (hstep : before.step action = some after)
    (hother : action ≠ .proceed call) :
    Sweeping ((before, action) :: past) after call drain left done where
  asked := hsweeping.asked.cons before action
  claims := fun himmediate => claims_cons.mpr (Or.inr (hsweeping.claims himmediate))
  mem_done_iff := fun task =>
    (hsweeping.mem_done_iff task).trans (cancelledBy_cons_of_ne hother).symm
  swept := by
    obtain ⟨origin, handled, hmem, hclosing, hsplit, hsublist, hretired⟩ := hsweeping.swept
    exact ⟨origin, handled, List.mem_cons_of_mem _ hmem, hclosing, hsplit, hsublist,
      fun task htask => (hretired task htask).of_step hsound hstep⟩

theorem OnRecord.cons {stage : Call} (hrecord : OnRecord past before call stage)
    (hsound : before.Sound) (hstep : before.step action = some after)
    (hother : action ≠ .proceed call) : OnRecord ((before, action) :: past) after call stage := by
  have hnone : (∀ task, ¬ CancelledBy past call task) →
      ∀ task, ¬ CancelledBy ((before, action) :: past) call task :=
    fun hnone task hcancelled => hnone task ((cancelledBy_cons_of_ne hother).mp hcancelled)
  cases stage with
  | claiming => exact ⟨hrecord.1.cons _ _, hnone hrecord.2⟩
  | closing =>
      obtain ⟨hasked, hclaims, hearlier⟩ := hrecord
      exact ⟨hasked.cons _ _, fun himmediate => claims_cons.mpr (Or.inr (hclaims himmediate)),
        hnone hearlier⟩
  | cancelling => exact Sweeping.cons hrecord hsound hstep hother
  | inserting | parked | removing => trivial

theorem Recorded.cons (hrecorded : Recorded past before call) (hsound : before.Sound)
    (hstep : before.step action = some after) (hother : action ≠ .proceed call)
    (hlookup : after.calls.lookup call = before.calls.lookup call)
    (hanswer : after.answer? call = before.answer? call) :
    Recorded ((before, action) :: past) after call where
  in_progress := fun stage hstage =>
    (hrecorded.in_progress stage (hlookup ▸ hstage)).cons hsound hstep hother
  answered := by
    intro done hdone
    obtain ⟨drain, hsweeping⟩ := hrecorded.answered done (hanswer ▸ hdone)
    exact ⟨drain, hsweeping.cons hsound hstep hother⟩

theorem Recorded.of_stage {stage : Call} (hlookup : scheduler.calls.lookup call = some stage)
    (hanswer : scheduler.answer? call = none) (hrecord : OnRecord past scheduler call stage) :
    Recorded past scheduler call where
  in_progress := fun found hfound => Option.some.inj (hlookup.symm.trans hfound) ▸ hrecord
  answered := fun done hdone => absurd (hanswer.symm.trans hdone) (by simp)

theorem Recorded.of_answer {answer : Answer} 
    (hlookup : scheduler.calls.lookup call = none) (hanswer : scheduler.answer? call = some answer)
    (hrecord : ∀ done, answer = .shutDown (.ok done) →
      ∃ drain, Sweeping past scheduler call drain [] done) :
    Recorded past scheduler call where
  in_progress := fun found hfound => absurd (hlookup.symm.trans hfound) (by simp)
  answered := fun done hdone => hrecord done (Option.some.inj (hanswer.symm.trans hdone))

theorem Run.recorded_of_request (hrun : Run config cores past before) {asked : Request α}
    (hstep : before.step (.request asked) = some after) :
    Recorded ((before, .request asked) :: past) after before.nextCall := by
  have hnone : ∀ task, ¬ CancelledBy ((before, .request asked) :: past) before.nextCall task := by
    intro task hcancelled
    have hearlier := (cancelledBy_cons_of_ne (by simp)).mp hcancelled
    exact Nat.lt_irrefl _ (hrun.lt_next_of_cancelledBy hearlier)
  obtain ⟨hnew, hunanswered⟩ := hrun.reachable.attended.made before.nextCall (Nat.le_refl _)
  cases receives_of_step hstep with
  | @refused state answer _ hanswer =>
      refine .of_answer (lookup_reply_self ..) (answer?_reply_self ..) fun done hdone => ?_
      rw [hdone] at hanswer
      exact hanswer.elim
  | @opened state stage hfront hstage =>
      have hcalls : state.calls = before.calls := congrArg Front.calls hfront
      have hanswers : state.answers = before.answers := congrArg Front.answers hfront
      have hlookup : (state.opened before.nextCall stage).calls.lookup before.nextCall =
          some stage := by
        rw [lookup_opened, hcalls, hnew, if_pos rfl]
        rfl
      have hanswer : (state.opened before.nextCall stage).answer? before.nextCall = none :=
        (congrArg (List.lookup before.nextCall) hanswers).trans hunanswered
      refine .of_stage hlookup hanswer ?_
      cases hstage with
      | hasten => exact ⟨asked_cons.mpr (Or.inl ⟨rfl, rfl⟩), hnone⟩
      | drain => exact ⟨asked_cons.mpr (Or.inl ⟨rfl, rfl⟩), by simp, hnone⟩
      | schedule | cancel => trivial

theorem Sound.not_mem_inFlight (hsound : before.Sound) (hswept : task ∈ before.sweptOut) :
    task ∉ before.inFlight := by
  have hplace : task ∈ before.tasksAt .swept := hswept
  intro hflies
  rcases List.mem_append.mp hflies with hwaits | hruns
  · have hbacklog : task ∈ before.tasksAt .backlog := hwaits
    exact hsound.custody.not_mem_of_mem hplace (by decide) hbacklog
  · obtain ⟨job, hjob, rfl⟩ := List.mem_map.mp hruns
    refine hsound.custody.not_mem_of_mem hplace ?_ (mem_tasksAt_place hjob)
    rcases job.place_eq with hrunning | hreturning
    · rw [hrunning]; decide
    · rw [hreturning]; decide

/-- A task that a call comes to is retired in the step, whoever has cancelled it. -/
theorem Proceeds.retired (hsound : before.Sound)
    (hcall : (call, .cancelling drain (task :: left) done) ∈ before.calls)
    (hproceeds : before.Proceeds call (.cancelling drain (task :: left) done) after) :
    after.Retired task := by
  have hswept : task ∈ before.sweptOut :=
    List.mem_flatMap.mpr ⟨_, hcall, List.mem_cons_self ..⟩
  have hnot := hsound.not_mem_inFlight hswept
  cases hproceeds with
  | cancels hrecord => exact ⟨has_withRecord hrecord rfl, hnot⟩
  | passesOver hdead =>
      have hplace : task ∈ before.tasksAt .swept := hswept
      obtain ⟨-, record, hrecord, hidle, -⟩ := hsound.custody.fitsAt_of_mem hplace
      refine ⟨⟨record, hrecord, hidle.resolve_left fun hpending => ?_⟩, hnot⟩
      exact state_ne_pending_of_isDone (hdead record hrecord) hpending
  | answers hstage | waits hstage => exact absurd trivial hstage

/-- The next task is handled: it is on the list if the call has cancelled it. -/
theorem Sweeping.handle (hsweeping : Sweeping past before call drain (task :: left) done)
    (hsound : before.Sound)
    (hlookup : before.calls.lookup call = some (.cancelling drain (task :: left) done))
    (hstep : before.step (.proceed call) = some after) {now : List TaskId}
    (hnow : now = done ++ [task] ∧ before.IsLive task ∨ now = done ∧ ¬ before.IsLive task) :
    Sweeping ((before, .proceed call) :: past) after call drain left now := by
  obtain ⟨stage, hfound, hproceeds⟩ := proceeds_of_step hstep
  obtain rfl := Option.some.inj (hlookup.symm.trans hfound)
  have hcancelled : ∀ other, CancelledBy ((before, .proceed call) :: past) call other ↔
      before.IsLive other ∧ other = task ∨ other ∈ done := by
    intro other
    rw [cancelledBy_cons, hproceeds.revokes_iff hstep, hsweeping.mem_done_iff other]
    simp [eq_comm]
  have hretired := hproceeds.retired hsound (mem_calls_of_lookup hlookup)
  obtain ⟨origin, handled, hmem, hclosing, hsplit, hsublist, hearlier⟩ := hsweeping.swept
  refine ⟨hsweeping.asked.cons _ _,
    fun himmediate => claims_cons.mpr (Or.inr (hsweeping.claims himmediate)), fun other => ?_,
    origin, handled ++ [task], List.mem_cons_of_mem _ hmem, hclosing, ?_, ?_, ?_⟩
  · rw [hcancelled]
    rcases hnow with ⟨rfl, hlive⟩ | ⟨rfl, hdead⟩
    · rw [List.mem_append, List.mem_singleton, or_comm]
      exact or_congr_left (iff_and_self.mpr fun heq => heq ▸ hlive)
    · refine (or_iff_right ?_).symm
      rintro ⟨hlive, rfl⟩
      exact hdead hlive
  · rw [hsplit, List.append_assoc, List.singleton_append]
  · rcases hnow with ⟨rfl, -⟩ | ⟨rfl, -⟩
    · exact hsublist.append (List.Sublist.refl _)
    · exact hsublist.trans (List.sublist_append_left _ _)
  · intro other hother
    rcases List.mem_append.mp hother with hold | hnew
    · exact (hearlier other hold).of_step hsound hstep
    · exact List.mem_singleton.mp hnew ▸ hretired

/-- A step of a call is put on its record. -/
theorem Run.recorded_of_proceed (hrun : Run config cores past before)
    (hrecorded : Recorded past before call) (hstep : before.step (.proceed call) = some after) :
    Recorded ((before, .proceed call) :: past) after call := by
  have hsound := hrun.reachable.sound
  obtain ⟨stage, hlookup, hproceeds⟩ := proceeds_of_step hstep
  have hrecord := hrecorded.in_progress stage hlookup
  have hunanswered := hrun.reachable.attended.unanswered hlookup
  -- A step outside the stage in which tasks are cancelled cancels nothing.
  have hnone : (∀ drain task left done, stage ≠ .cancelling drain (task :: left) done) →
      ∀ task, CancelledBy ((before, .proceed call) :: past) call task ↔
        CancelledBy past call task := by
    intro hstage task
    rw [cancelledBy_cons, hproceeds.revokes_iff hstep]
    refine or_iff_right ?_
    rintro ⟨-, -, drain, left, done, heq⟩
    exact hstage _ _ _ _ heq
  cases hproceeds with
  | turnedAway =>
      exact .of_answer (lookup_reply_self ..) (answer?_reply_self ..) (by simp)
  | claims hclaimed =>
      refine .of_stage (lookup_goOn_self hlookup _) hunanswered ?_
      obtain ⟨hasked, hearlier⟩ := hrecord
      exact ⟨hasked.cons _ _, fun _ => claims_cons.mpr (Or.inl ⟨rfl, hlookup, hclaimed⟩),
        fun task hcancelled => hearlier task ((hnone (by simp) task).mp hcancelled)⟩
  | closes drain =>
      refine .of_stage (lookup_goOn_self hlookup _) hunanswered ?_
      obtain ⟨hasked, hclaims, hearlier⟩ := hrecord
      refine ⟨hasked.cons _ _, fun himmediate => claims_cons.mpr (Or.inr (hclaims himmediate)),
        fun task => ?_, before, [], List.mem_cons_self .., hlookup, ?_,
        List.Sublist.refl _, by simp⟩
      · rw [hnone (by simp)]
        exact iff_of_false List.not_mem_nil (hearlier task)
      · rw [hsound.close_removed, List.nil_append]
  | cancels hfound hlive =>
      refine .of_stage (lookup_goOn_self hlookup _) hunanswered ?_
      exact Sweeping.handle hrecord hsound hlookup hstep (Or.inl ⟨rfl, _, hfound, hlive⟩)
  | passesOver hdead =>
      refine .of_stage (lookup_goOn_self hlookup _) hunanswered ?_
      refine Sweeping.handle hrecord hsound hlookup hstep (Or.inr ⟨rfl, ?_⟩)
      rintro ⟨record, hfound, hlive⟩
      exact absurd (hlive.symm.trans (hdead record hfound)) Bool.false_ne_true
  | @reports drain done state =>
      refine .of_answer (lookup_reply_self ..) (answer?_reply_self ..) fun found hfound => ?_
      obtain rfl : done = found := by simpa using hfound
      refine ⟨drain, hrecord.asked.cons _ _,
        fun himmediate => claims_cons.mpr (Or.inr (hrecord.claims himmediate)), fun task => ?_, ?_⟩
      · rw [hnone (by simp)]
        exact hrecord.mem_done_iff task
      · obtain ⟨origin, handled, hmem, hclosing, hsplit, hsublist, hretired⟩ := hrecord.swept
        exact ⟨origin, handled, List.mem_cons_of_mem _ hmem, hclosing, hsplit, hsublist,
          fun task htask => (hretired task htask).of_step hsound hstep⟩
  | answers hstage _ _ hanswer =>
      refine .of_answer (lookup_reply_self ..) (answer?_reply_self ..) fun done hdone => ?_
      exact absurd hdone (hanswer _)
  | @waits _ state _ hstage _ hfront =>
      have hcalls : state.calls = before.calls := congrArg Front.calls hfront
      have hanswers : state.answers = before.answers := congrArg Front.answers hfront
      refine .of_stage (lookup_goOn_self (hcalls ▸ hlookup) _) ?_ trivial
      exact (congrArg (List.lookup call) hanswers).trans hunanswered

theorem Run.recorded (hrun : Run config cores past scheduler) (call : CallId) :
    Recorded past scheduler call := by
  induction hrun with
  | start hcreated =>
      obtain rfl := new_eq_ok hcreated
      exact ⟨fun stage hstage => absurd hstage (by simp), fun done hdone =>
        absurd hdone (by simp [answer?])⟩
  | @step past before after hrun action hstep ih =>
      -- The call goes on, or it is made, or the step is none of its business.
      by_cases hproceed : action = .proceed call
      · subst hproceed
        exact hrun.recorded_of_proceed ih hstep
      · by_cases hnew : (∃ asked, action = .request asked) ∧ call = before.nextCall
        · obtain ⟨⟨asked, rfl⟩, rfl⟩ := hnew
          exact hrun.recorded_of_request hstep
        · obtain ⟨hlookup, hanswer⟩ := aside_of_step hstep
            (fun asked hasked hcall => hnew ⟨⟨asked, hasked⟩, hcall⟩) hproceed
          exact ih.cons hrun.reachable.sound hstep hproceed hlookup hanswer

/-! ## Abandoned tasks -/

/-- The count of abandoned tasks is what the call that has shut the scheduler down at once
reports, if there is one. -/
structure Counted (past : List (Scheduler α × Action α)) (scheduler : Scheduler α) : Prop where
  eq_length : ∀ call list, Asked past call false →
    scheduler.answer? call = some (.shutDown (.ok list)) →
      scheduler.agenda.metrics.abandoned = list.length
  eq_zero : (∀ call list, Asked past call false →
    scheduler.answer? call ≠ some (.shutDown (.ok list))) →
      scheduler.agenda.metrics.abandoned = 0

theorem Run.claims_of_answer (hrun : Run config cores past scheduler)
    (hasked : Asked past call false)
    (hanswer : scheduler.answer? call = some (.shutDown (.ok done))) : Claims past call := by
  obtain ⟨drain, hsweeping⟩ := (hrun.recorded call).answered done hanswer
  exact hsweeping.claims (hrun.asked_unique hsweeping.asked hasked)

/-- A call reports the tasks that it has abandoned. -/
theorem Run.counted_of_report (hrun : Run config cores past before)
    (hcounted : Counted past before) (hstep : before.step (.proceed call) = some after)
    (hlookup : before.calls.lookup call = some (.cancelling false [] done))
    (habandoned : after.agenda.metrics.abandoned =
      before.agenda.metrics.abandoned + done.length) :
    Counted ((before, .proceed call) :: past) after := by
  have hattended := hrun.reachable.attended
  have hsweeping : Sweeping past before call false [] done :=
    (hrun.recorded call).in_progress _ hlookup
  -- No other call can have claimed the shutdown, and this one has not been answered.
  have hfirst : ∀ other list, Asked past other false →
      before.answer? other ≠ some (.shutDown (.ok list)) := by
    intro other list hasked hanswer
    obtain rfl := hrun.claims_unique (hrun.claims_of_answer hasked hanswer)
      (hsweeping.claims rfl)
    exact absurd ((hattended.unanswered hlookup).symm.trans hanswer) (by simp)
  rw [hcounted.eq_zero hfirst, Nat.zero_add] at habandoned
  refine ⟨fun other list hasked hanswer => ?_, fun hnone => ?_⟩
  · have hearlier : Asked past other false := by
      refine (asked_cons.mp hasked).resolve_left ?_
      rintro ⟨heq, -⟩
      cases heq
    rcases (hattended.told_iff hstep).mp hanswer with hold | ⟨heq, drain, hfound⟩
    · exact absurd hold (hfirst other list hearlier)
    · obtain rfl := Action.proceed.inj heq
      obtain ⟨-, -, rfl⟩ := Call.cancelling.inj (Option.some.inj (hlookup.symm.trans hfound))
      exact habandoned
  · have htold := (hattended.told_iff hstep).mpr (Or.inr ⟨rfl, false, hlookup⟩)
    exact absurd htold (hnone call done (hsweeping.asked.cons _ _))

/-- Nobody else reports abandoned tasks. -/
theorem Run.told_of_told (hrun : Run config cores past before)
    (hstep : before.step action = some after)
    (hother : ∀ call done, action = .proceed call →
      before.calls.lookup call ≠ some (.cancelling false [] done))
    (hasked : Asked ((before, action) :: past) call false)
    (hanswer : after.answer? call = some (.shutDown (.ok done))) :
    Asked past call false ∧ before.answer? call = some (.shutDown (.ok done)) := by
  have hattended := hrun.reachable.attended
  rcases (hattended.told_iff hstep).mp hanswer with hold | ⟨rfl, drain, hlookup⟩
  · refine ⟨(asked_cons.mp hasked).resolve_left ?_, hold⟩
    rintro ⟨-, rfl⟩
    exact absurd ((hattended.made _ (Nat.le_refl _)).2.symm.trans hold) (by simp)
  · have hsweeping : Sweeping past before call drain [] done :=
      (hrun.recorded call).in_progress _ hlookup
    have hearlier : Asked past call false := by
      refine (asked_cons.mp hasked).resolve_left ?_
      rintro ⟨heq, -⟩
      cases heq
    obtain rfl := hrun.asked_unique hearlier hsweeping.asked
    exact absurd hlookup (hother call done rfl)

theorem Run.counted (hrun : Run config cores past scheduler) : Counted past scheduler := by
  induction hrun with
  | start hcreated =>
      obtain rfl := new_eq_ok hcreated
      exact ⟨fun call list _ hanswer => absurd hanswer (by simp [answer?]), fun _ => rfl⟩
  | @step past before after hrun action hstep ih =>
      rcases abandoned_of_step hstep with
        ⟨call, done, rfl, hlookup, habandoned⟩ | ⟨hother, habandoned⟩
      · exact hrun.counted_of_report ih hstep hlookup habandoned
      · refine ⟨fun call list hasked hanswer => ?_, fun hnone => ?_⟩
        · obtain ⟨hearlier, hold⟩ := hrun.told_of_told hstep hother hasked hanswer
          exact habandoned.trans (ih.eq_length call list hearlier hold)
        · refine habandoned.trans (ih.eq_zero fun call list hasked hanswer => ?_)
          have htold := (hrun.reachable.attended.told_iff hstep).mpr (Or.inl hanswer)
          exact hnone call list (hasked.cons before action) htold

/-! ## The report -/

/-- A retired task is never run again. -/
theorem Retired.of_leads (hretired : before.Retired task)
    (hreachable : Reachable config cores before) (hleads : before.Leads after) :
    after.Retired task ∧ after.agenda.entries task = before.agenda.entries task := by
  -- Both are kept by moves, and steps may be several of them.
  have hrecalled : Recalled before after task ∧ after.Retired task := by
    induction hleads with
    | refl => exact ⟨⟨hretired.cancelled, rfl, Nat.le_refl _, Nat.le_refl _⟩, hretired⟩
    | tail hmiddle hlast ih =>
        obtain ⟨action, hstep⟩ := hlast
        have hsound := (Leads.reachable hmiddle hreachable).sound
        exact Scheduler.of_step (p := fun state => Recalled before state task ∧ state.Retired task)
          hsound hstep ih fun _ _ hfirst hboth hmove =>
            ⟨hmove.recalled hfirst hboth.1, hmove.retired hfirst hboth.2⟩
  obtain ⟨hrecalled, hlast⟩ := hrecalled
  have hwaits : task ∉ before.backlog := fun hmem =>
    hretired.not_in_flight (List.mem_append_left _ hmem)
  exact ⟨hlast, hrecalled.entries_eq hwaits⟩

/-- What a list says that a shutdown call has reported. -/
structure Reports (past : List (Scheduler α × Action α)) (scheduler : Scheduler α)
    (call : CallId) (list : List TaskId) : Prop where
  /-- The list consists of tasks that were queued when the call closed the queue, periodic ones
  if it was to drain, in the order of their keys. -/
  swept : ∃ drain origin, Asked past call drain ∧ (origin, .proceed call) ∈ past ∧
    origin.calls.lookup call = some (.closing drain) ∧
    (origin.agenda.queue.entries.Pairwise fun first second => first.key < second.key) ∧
    list.Sublist (origin.sweepable drain) ∧
    ∀ task ∈ origin.sweepable drain, task ∉ list →
      (scheduler.Has task fun record => record.state = .cancelled) ∧ ¬ CancelledBy past call task
  nodup : list.Nodup
  mem_iff : ∀ task, task ∈ list ↔ CancelledBy past call task
  /-- No run of the tasks is in flight, now or later, and none is made any more. -/
  retired : ∀ task ∈ list, ∀ later, scheduler.Leads later →
    task ∉ later.inFlight ∧ later.agenda.entries task = scheduler.agenda.entries task

theorem Run.reports_of_answer (hrun : Run config cores past scheduler)
    (hanswer : scheduler.answer? call = some (.shutDown (.ok done))) :
    Reports past scheduler call done := by
  obtain ⟨drain, hsweeping⟩ := (hrun.recorded call).answered done hanswer
  obtain ⟨origin, handled, hmem, hclosing, hsplit, hsublist, hretired⟩ := hsweeping.swept
  rw [List.append_nil] at hsplit
  obtain ⟨later, earlier, rfl⟩ := List.append_of_mem hmem
  have hqueue := hrun.at_step.1.reachable.sound.queue.wellFormed
  have hordered : done.Sublist (origin.sweepable drain) := hsplit ▸ hsublist
  refine ⟨⟨drain, origin, hsweeping.asked, hmem, hclosing, hqueue.sorted, hordered, ?_⟩,
    hqueue.tasks_nodup.sublist (hordered.trans List.filter_sublist), hsweeping.mem_done_iff, ?_⟩
  · intro task htask hnot
    exact ⟨(hretired task (hsplit ▸ htask)).cancelled,
      fun hcancelled => hnot ((hsweeping.mem_done_iff task).mpr hcancelled)⟩
  · intro task htask later hleads
    obtain ⟨hlast, hsame⟩ :=
      (hretired task (hsublist.subset htask)).of_leads hrun.reachable hleads
    exact ⟨hlast.not_in_flight, hsame⟩

/-- A call that has shut the scheduler down has reported exactly the tasks that it has
cancelled, and no two calls have reported the same task.  The abandoned tasks are those that
the call reports which has shut the scheduler down at once. -/
theorem Run.shutdown_reports (hrun : Run config cores past scheduler) :
    (∀ call list, scheduler.answer? call = some (.shutDown (.ok list)) →
      Reports past scheduler call list) ∧
    (∀ call other list others, call ≠ other →
      scheduler.answer? call = some (.shutDown (.ok list)) →
      scheduler.answer? other = some (.shutDown (.ok others)) → list.Disjoint others) ∧
    (∀ call list, Asked past call false →
      scheduler.answer? call = some (.shutDown (.ok list)) →
        scheduler.agenda.metrics.abandoned = list.length) ∧
    ((∀ call list, Asked past call false →
      scheduler.answer? call ≠ some (.shutDown (.ok list))) →
        scheduler.agenda.metrics.abandoned = 0) := by
  have hcounted := hrun.counted
  refine ⟨fun call list hanswer => hrun.reports_of_answer hanswer, ?_, hcounted.eq_length,
    hcounted.eq_zero⟩
  intro call other list others hne hanswer hother task hmem hmemOther
  exact hne (hrun.cancelledBy_unique
    (((hrun.reports_of_answer hanswer).mem_iff task).mp hmem)
    (((hrun.reports_of_answer hother).mem_iff task).mp hmemOther))

/-- A shutdown that drains has swept two periodic tasks out of the queue when the holder of the
first cancels it and somebody else shuts the scheduler down at once, which sweeps out a one-shot
task.  Each of the two calls reports one task, and one task has been abandoned. -/
theorem shutdown_reports_of_two_calls :
    ∃ (past : List (Scheduler Unit × Action Unit)) (scheduler : Scheduler Unit),
      Run {} 1 past scheduler ∧ Reports past scheduler 3 [1] ∧ Reports past scheduler 5 [2] ∧
        Asked past 5 false ∧ scheduler.agenda.metrics.abandoned = [2].length ∧
        scheduler.Has 0 fun record => record.state = .cancelled := by
  have hview : ((played {} 1
      [.request (.schedule (plainTask (.fixedRate (.ofSeconds 1)) (.ofSeconds 1)) true),
        .proceed 0,
        .request (.schedule (plainTask (.fixedDelay (.ofSeconds 1)) (.ofSeconds 2)) true),
        .proceed 1, .request (.schedule (plainTask .oneShot (.ofSeconds 3)) true), .proceed 2,
        .request (.shutdown true), .proceed 3, .request (.cancel 0), .proceed 4]).bind fun first =>
      (replay first.1 first.2
        [.request (.shutdown false), .proceed 5, .proceed 5, .proceed 3, .proceed 5, .proceed 3,
          .proceed 3, .proceed 5]).map fun second =>
        ((second.2.answer? 3, second.2.answer? 5), first.2.nextCall,
          (second.2.record? 0).map Record.state)) =
      some ((some (.shutDown (.ok [1])), some (.shutDown (.ok [2]))), 5, some .cancelled) := by
    decide +kernel
  obtain ⟨⟨past, middle⟩, hplayed, hrest⟩ := Option.bind_eq_some_iff.mp hview
  obtain ⟨⟨whole, scheduler⟩, hreplay, hparts⟩ := Option.map_eq_some_iff.mp hrest
  simp only [Prod.mk.injEq] at hparts
  obtain ⟨⟨hdrained, hhastened⟩, hnext, hstate⟩ := hparts
  obtain ⟨later, rfl⟩ := exists_append_of_replay_cons hreplay
  have hrun := (Run.of_played hplayed).of_replay hreplay
  have hasked : Asked (later ++ (middle, .request (.shutdown false)) :: past) 5 false :=
    ⟨middle, List.mem_append_right _ (List.mem_cons_self ..), hnext⟩
  obtain ⟨hreports, -, habandoned, -⟩ := hrun.shutdown_reports
  exact ⟨_, scheduler, hrun, hreports 3 [1] hdrained, hreports 5 [2] hhastened, hasked,
    habandoned 5 [2] hasked hhastened, Option.map_eq_some_iff.mp hstate⟩

end Scheduler

end TimedTasks
