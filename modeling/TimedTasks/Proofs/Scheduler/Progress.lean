import TimedTasks.Proofs.Scheduler.Stopping

/-!
# What a scheduler can still come to

`before.Leads after` says that some steps lead from one state to the other.  A scheduler
whose queue drains can always be led on: the clock is moved to the due time of the first
entry, the dispatcher takes the entry, and so on until the queue is empty and a producer
that waits gets in (`Reachable.leads_to_hand`).

The clock can be moved that far because all due times can be represented (`Timely`).
-/

namespace TimedTasks

namespace Scheduler

variable {α : Type} {origin before after scheduler : Scheduler α} {action : Action α}
variable {config : Config} {cores : Nat} {past : List (Scheduler α × Action α)} {task : TaskId}

/-! ## Due times -/

/-- All due times can be represented. -/
structure Timely (scheduler : Scheduler α) : Prop where
  record : ∀ task record, scheduler.record? task = some record →
    record.nextRunAt.isRepresentable = true
  entry : ∀ entry ∈ scheduler.agenda.queue.entries, entry.key.due.isRepresentable = true

theorem dueOf_isRepresentable
    (hrecords : ∀ task record, scheduler.record? task = some record →
      record.nextRunAt.isRepresentable = true) (task : TaskId) :
    (scheduler.agenda.dueOf task).isRepresentable = true := by
  cases hrecord : scheduler.record? task with
  | none =>
      have hnone : scheduler.agenda.records[task]? = none := hrecord
      rw [Agenda.dueOf, hnone]
      rfl
  | some record =>
      have hsome : scheduler.agenda.records[task]? = some record := hrecord
      rw [Agenda.dueOf, hsome]
      exact hrecords task record hrecord

theorem Move.timely (hmove : Move origin action before after) (hsound : before.Sound)
    (htimely : before.Timely) : after.Timely := by
  have hrecords : ∀ task record, after.record? task = some record →
      record.nextRunAt.isRepresentable = true :=
    fun task _ hlater => (hmove.fate hsound.custody task).holds
      (fun _ _ hdue => Moment.isRepresentable_of_add? (firstDue_eq_ok hdue).2.2.1)
      (fun _ _ hevolves hdue => hevolves.due hdue) (htimely.record task) hlater
  refine ⟨hrecords, fun entry hentry => ?_⟩
  rcases hmove.entry_of_mem hsound hentry with hold | ⟨-, hdue⟩
  · exact htimely.entry entry hold
  · rw [hdue]
    exact dueOf_isRepresentable hrecords entry.task

theorem Reachable.timely (hreachable : Reachable config cores scheduler) : scheduler.Timely := by
  refine hreachable.induction_on_moves (fun first hcreated => ?_)
    fun _ _ _ _ hsound htimely hmove => hmove.timely hsound htimely
  constructor
  · intro task record hrecord
    have hnone := congrArg Prod.fst (standing_new hcreated task)
    exact absurd (hnone.symm.trans hrecord) (by simp)
  · intro entry hentry
    rw [queue_new hcreated] at hentry
    exact absurd hentry List.not_mem_nil

/-! ## Going on -/

/-- Some steps lead from one state to another. -/
def Leads (before after : Scheduler α) : Prop :=
  Relation.ReflTransGen (fun first second => ∃ action, first.step action = some second)
    before after

theorem Leads.step (hleads : before.Leads scheduler) (hstep : scheduler.step action = some after) :
    before.Leads after :=
  hleads.tail ⟨action, hstep⟩

theorem Leads.reachable (hleads : before.Leads after) (hreachable : Reachable config cores before) :
    Reachable config cores after := by
  induction hleads with
  | refl => exact hreachable
  | tail _ hlast ih =>
      obtain ⟨action, hstep⟩ := hlast
      exact .step ih action hstep

theorem Leads.recordsEvolve (hleads : before.Leads after)
    (hreachable : Reachable config cores before) : RecordsEvolve before after := by
  induction hleads with
  | refl => exact .refl before
  | tail hmiddle hlast ih =>
      obtain ⟨action, hstep⟩ := hlast
      exact ih.trans ((Leads.reachable hmiddle hreachable).sound.recordsEvolve_of_step hstep)

theorem Leads.of_replay {actions : List (Action α)}
    {result : List (Scheduler α × Action α) × Scheduler α} (hleads : before.Leads scheduler)
    (hreplay : replay past scheduler actions = some result) : before.Leads result.2 := by
  induction actions generalizing past scheduler with
  | nil =>
      obtain rfl := Option.some.inj hreplay
      exact hleads
  | cons action rest ih =>
      unfold replay at hreplay
      split at hreplay
      · rename_i after hstep
        exact ih (hleads.step hstep) hreplay
      · simp at hreplay

theorem Leads.exists_run (hleads : before.Leads after) (hrun : Run config cores past before) :
    ∃ later, Run config cores (later ++ past) after := by
  induction hleads with
  | refl => exact ⟨[], hrun⟩
  | @tail middle after _ hlast ih =>
      obtain ⟨action, hstep⟩ := hlast
      obtain ⟨later, hrun⟩ := ih
      exact ⟨(middle, action) :: later, .step hrun action hstep⟩

/-- A clock that can be read can be moved to any moment that can be represented. -/
theorem leads_to_moment (hreadable : scheduler.agenda.clock.isReadable = true) {due : Moment}
    (hdue : due.isRepresentable = true) :
    ∃ clock unannounced, scheduler.Leads
      { scheduler with agenda := { scheduler.agenda with clock }, unannounced } ∧
        due ≤ clock.reading ∧ clock.isReadable = true := by
  by_cases hpassed : due ≤ scheduler.agenda.reading
  · exact ⟨scheduler.agenda.clock, scheduler.unannounced, .refl, hpassed, hreadable⟩
  · have hfuture : scheduler.agenda.clock.elapsed.nanos < due.nanos := Nat.lt_of_not_le hpassed
    have hbound : due.nanos < Moment.horizon := of_decide_eq_true hdue
    have hsum : scheduler.agenda.clock.elapsed.nanos +
        (due.nanos - scheduler.agenda.clock.elapsed.nanos) = due.nanos :=
      Nat.add_sub_cancel' (Nat.le_of_lt hfuture)
    have hadvance : scheduler.agenda.clock.advance
        ⟨due.nanos - scheduler.agenda.clock.elapsed.nanos⟩ = .ok ⟨⟨due.nanos⟩⟩ := by
      rw [ManualClock.advance_of_representable (hsum.symm ▸ hbound), hsum]
    have hstep : scheduler.step
        (.advance ⟨due.nanos - scheduler.agenda.clock.elapsed.nanos⟩) =
          some { scheduler with
            agenda := { scheduler.agenda with clock := ⟨⟨due.nanos⟩⟩ }
            unannounced := scheduler.unannounced + 1 } := by
      simp only [step, hadvance]
    exact ⟨_, _, Leads.step .refl hstep, Nat.le_refl _, hdue⟩

/-! ## Emptying the queue -/

/-- The next step of the dispatcher takes the task from the queue. -/
def HandsOut (scheduler : Scheduler α) (task : TaskId) : Prop :=
  scheduler.dispatcher = .seeking ∧
    ∃ after, scheduler.step .dispatch = some after ∧ after.dispatcher = .holding task

theorem dispatch_of_due (scheduler : Scheduler α) (hseeking : scheduler.dispatcher = .seeking)
    (hawake : scheduler.agenda.queue.isAsleep dispatcherCaller = false)
    (hadmission : scheduler.agenda.queue.admission ≠ .closed) {first : Entry} {rest : List Entry}
    (hentries : scheduler.agenda.queue.entries = first :: rest)
    (hdue : first.key.due ≤ scheduler.agenda.reading)
    (hreadable : scheduler.agenda.clock.isReadable = true) :
    ∃ after, scheduler.step .dispatch = some after ∧ after.dispatcher = .holding first.task ∧
      after.agenda.queue.entries = rest ∧
      after.agenda.queue.admission = scheduler.agenda.queue.admission ∧
      after.agenda.queue.producers = scheduler.agenda.queue.producers.wakeOne ∧
      after.agenda.clock = scheduler.agenda.clock := by
  have htake := Agenda.take_eq (fun _ => hreadable)
    (Queue.take_of_due hentries hadmission dispatcherCaller hdue)
  simp only [step, dispatch, look, hseeking, hawake, htake]
  exact ⟨_, rfl, rfl, rfl, rfl, rfl, rfl⟩

/-- The first entry of a queue can be taken while the clock can be read. -/
theorem Reachable.leads_to_take (hreachable : Reachable config cores scheduler)
    (hseeking : scheduler.dispatcher = .seeking)
    (hadmission : scheduler.agenda.queue.admission ≠ .closed) {first : Entry}
    {rest : List Entry} (hentries : scheduler.agenda.queue.entries = first :: rest)
    (hreadable : scheduler.agenda.clock.isReadable = true) :
    ∃ middle after, scheduler.Leads middle ∧ middle.dispatcher = .seeking ∧
      middle.step .dispatch = some after ∧ after.dispatcher = .holding first.task ∧
      after.agenda.queue.entries = rest ∧
      after.agenda.queue.admission = scheduler.agenda.queue.admission ∧
      after.agenda.queue.producers = scheduler.agenda.queue.producers.wakeOne ∧
      after.agenda.clock.isReadable = true := by
  have hfirst : first ∈ scheduler.agenda.queue.entries := hentries ▸ List.mem_cons_self ..
  obtain ⟨clock, unannounced, hleads, hdue, hlegible⟩ :=
    leads_to_moment hreadable (hreachable.timely.entry first hfirst)
  have hasleep : (scheduler.agenda.queue.expire dispatcherCaller).takers.asleep = [] :=
    Queue.asleep_expire_of_entries hreachable.sound.queue (by rw [hentries]; simp)
  -- The timer of the dispatcher runs out, and then it finds the entry due.
  have hawake := Queue.isAsleep_eq_false_of_asleep_eq_nil hasleep dispatcherCaller
  obtain ⟨after, hstep, hholding, hrest, hsame, hproducers, hclock⟩ := dispatch_of_due
    { scheduler with
      agenda := { scheduler.agenda with
        clock, queue := scheduler.agenda.queue.expire dispatcherCaller }
      unannounced }
    hseeking hawake hadmission hentries hdue hlegible
  exact ⟨_, after, hleads.tail ⟨.expire, rfl⟩, hseeking, hstep, hholding, hrest, hsame, hproducers,
    hclock ▸ hlegible⟩

theorem dispatch_of_holding (hholding : scheduler.dispatcher = .holding task) :
    ∃ after, scheduler.step .dispatch = some after ∧ after.dispatcher = .seeking ∧
      after.agenda.queue = scheduler.agenda.queue ∧
      after.agenda.clock = scheduler.agenda.clock := by
  simp only [step, dispatch, hholding]
  cases hstart : scheduler.agenda.start task with
  | mk agenda started =>
      cases started with
      | true =>
          obtain ⟨record, -, -, rfl⟩ := Agenda.start_eq_true hstart
          exact ⟨_, rfl, rfl, rfl, rfl⟩
      | false =>
          obtain ⟨rfl, -⟩ := Agenda.start_eq_false hstart
          exact ⟨_, rfl, rfl, rfl, rfl⟩

theorem Reachable.leads_to_empty (hreachable : Reachable config cores scheduler)
    (hseeking : scheduler.dispatcher = .seeking)
    (hadmission : scheduler.agenda.queue.admission ≠ .closed) {producer : Producer}
    (hwoken : producer ∈ scheduler.agenda.queue.producers.woken)
    (hreadable : scheduler.agenda.clock.isReadable = true) :
    ∃ after, scheduler.Leads after ∧ after.dispatcher = .seeking ∧
      after.agenda.queue.entries = [] ∧ after.agenda.queue.admission ≠ .closed ∧
      producer ∈ after.agenda.queue.producers.woken ∧
      after.agenda.clock.isReadable = true := by
  induction hentries : scheduler.agenda.queue.entries generalizing scheduler with
  | nil => exact ⟨scheduler, .refl, hseeking, hentries, hadmission, hwoken, hreadable⟩
  | cons first rest ih =>
      -- Two steps for each entry: it is taken, and the dispatcher lets go of it.
      obtain ⟨middle, taken, hmiddle, -, htake, hholding, hrest, hsame, hproducers, hlegible⟩ :=
        hreachable.leads_to_take hseeking hadmission hentries hreadable
      obtain ⟨next, hstep, hnext, hqueue, hclock⟩ := dispatch_of_holding hholding
      have hleads := (hmiddle.step htake).step hstep
      have hopen : next.agenda.queue.admission ≠ .closed := by
        rw [hqueue, hsame]
        exact hadmission
      have hstill : producer ∈ next.agenda.queue.producers.woken := by
        rw [hqueue, hproducers]
        exact Parking.mem_woken_wakeOne hwoken
      have hleft : next.agenda.queue.entries = rest := by rw [hqueue, hrest]
      obtain ⟨after, hafter, hparts⟩ :=
        ih (hleads.reachable hreachable) hnext hopen hstill (hclock ▸ hlegible) hleft
      exact ⟨after, hleads.trans hafter, hparts⟩

/-! ## Letting a producer in -/

theorem Sound.proceed_of_empty (hsound : scheduler.Sound)
    (hadmission : scheduler.agenda.queue.admission ≠ .closed)
    (hentries : scheduler.agenda.queue.entries = []) {producer : Producer}
    (hwoken : producer ∈ scheduler.agenda.queue.producers.woken) :
    ∃ after first, scheduler.step (.proceed producer.caller) = some after ∧
      after.dispatcher = scheduler.dispatcher ∧
      after.agenda.clock = scheduler.agenda.clock ∧
      after.agenda.queue.admission = scheduler.agenda.queue.admission ∧
      after.agenda.queue.entries = [first] ∧ first.task = producer.task := by
  have hcall := hsound.parked_mem (List.mem_append_right _ hwoken)
  have hlookup := hsound.numbered.lookup_eq hcall
  have hfind := hsound.queue.counted.find?_woken hwoken
  have hroom := hsound.queue.isFull_eq_false hentries
  have hresume : scheduler.agenda.resume producer = _ :=
    Agenda.resume_eq (Queue.resume_of_room hroom hadmission producer _)
  simp only [step, hlookup, proceed, hfind, hresume]
  refine ⟨_, ⟨⟨scheduler.agenda.dueOf producer.task, scheduler.agenda.queue.nextSeq⟩,
    producer.task, producer.periodic⟩, rfl, rfl, rfl, rfl, ?_, rfl⟩
  show insertEntry _ scheduler.agenda.queue.entries = _
  rw [hentries]
  rfl

/-- The task of a producer that was woken can come into the dispatcher's hand, unless the
queue has been closed for good or the clock cannot be read. -/
theorem Reachable.leads_to_hand (hreachable : Reachable config cores scheduler)
    (hadmission : scheduler.agenda.queue.admission ≠ .closed) {producer : Producer}
    (hwoken : producer ∈ scheduler.agenda.queue.producers.woken)
    (hreadable : scheduler.agenda.clock.isReadable = true) :
    ∃ after, scheduler.Leads after ∧ after.HandsOut producer.task := by
  -- The dispatcher waits for the producer, so it looks for tasks or has one in hand.
  have hseeks : ∃ middle, scheduler.Leads middle ∧ middle.dispatcher = .seeking ∧
      middle.agenda.queue = scheduler.agenda.queue ∧
      middle.agenda.clock = scheduler.agenda.clock := by
    have hnot : ¬ scheduler.dispatcher.HasCeased := by
      intro hceased
      rcases hreachable.concluded.isOver hceased with hclosed | ⟨-, -, hblocked⟩
      · exact hadmission hclosed
      · have hpos := hreachable.sound.queue.counted.blocked_pos hwoken
        exact absurd hblocked (Nat.ne_of_gt hpos)
    cases hdispatcher : scheduler.dispatcher with
    | seeking => exact ⟨scheduler, .refl, hdispatcher, rfl, rfl⟩
    | holding task =>
        obtain ⟨middle, hstep, hseeking, hqueue, hclock⟩ := dispatch_of_holding hdispatcher
        exact ⟨middle, Leads.step .refl hstep, hseeking, hqueue, hclock⟩
    | winding | idle | gone => exact absurd (by rw [hdispatcher]; trivial) hnot
    | broken => exact absurd hdispatcher (hreachable.sound.intact hreadable).2
  obtain ⟨middle, hmiddle, hseeking, hqueue, hclock⟩ := hseeks
  rw [← hqueue] at hadmission hwoken
  rw [← hclock] at hreadable
  -- The queue is emptied, the producer gets in, and its task is the only one to take.
  obtain ⟨empty, hempty, hseeking, hentries, hopen, hwoken, hreadable⟩ :=
    (hmiddle.reachable hreachable).leads_to_empty hseeking hadmission hwoken hreadable
  have hleads : scheduler.Leads empty := hmiddle.trans hempty
  obtain ⟨admitted, first, hstep, hsame, hclock, hstill, hfirst, htask⟩ :=
    (hleads.reachable hreachable).sound.proceed_of_empty hopen hentries hwoken
  have hadmitted := hleads.step hstep
  rw [← hclock] at hreadable
  obtain ⟨last, after, hlast, hlooks, htake, hholding, -⟩ :=
    (hadmitted.reachable hreachable).leads_to_take (hsame.trans hseeking) (hstill ▸ hopen) hfirst
      hreadable
  exact ⟨last, hadmitted.trans hlast, hlooks, after, htake, htask ▸ hholding⟩

end Scheduler

end TimedTasks
