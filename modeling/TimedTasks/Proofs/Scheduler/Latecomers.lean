import TimedTasks.Proofs.Scheduler.Progress

/-!
# Periodic tasks in a queue that drains

A draining shutdown sweeps the periodic tasks out of the queue, and a run in flight is not
followed by another one.  What it does not reach are the tasks of the producers that wait
for room at that moment: each of them is let in later like any other.

These are all.  A periodic task can be handed out after the queue has begun to drain exactly
if its producer waited then, and every other one is never queued again.  How often a task
can still run is counted by `expected`: what has begun, what is in hand, and what is on the
way in.
-/

namespace TimedTasks

namespace Scheduler

open Queue (SealedBut)

variable {α : Type} {origin before after scheduler : Scheduler α} {action : Action α}
variable {config : Config} {cores : Nat} {past : List (Scheduler α × Action α)} {task : TaskId}

/-! ## Closing the queue -/

theorem step_closing {call : CallId} {drain : Bool}
    (hclose : before.calls.lookup call = some (.closing drain)) :
    before.step (.proceed call) =
      some ((before.withQueue (before.agenda.queue.close drain).1).goOn call
        (.cancelling drain ((before.agenda.queue.close drain).2.map (·.task)) [])) := by
  simp only [step, hclose]
  rfl

theorem Move.sealedBut (hmove : Move origin action before after) (hsound : before.Sound)
    {waiting : List TaskId} (hsealed : SealedBut waiting before.agenda.queue) :
    SealedBut waiting after.agenda.queue := by
  rcases hmove.change hsound with heq | ⟨operation, hchange, -⟩
  · rw [heq]
    exact hsealed
  · exact hchange.sealedBut hsealed

theorem Move.closed_of_closed (hmove : Move origin action before after) (hsound : before.Sound)
    (hclosed : before.agenda.queue.admission = .closed) :
    after.agenda.queue.admission = .closed := by
  rcases hmove.change hsound with heq | ⟨operation, hchange, -⟩
  · rw [heq]
    exact hclosed
  · exact hchange.closed_of_closed hclosed

/-! ## Runs to come -/

/-- The runs of a task that have begun, and those that its dispatcher and its workers have
in hand and may still begin. -/
def begun (scheduler : Scheduler α) (task : TaskId) : Nat :=
  scheduler.agenda.entries task + (scheduler.dispatcher.hand ++ scheduler.backlog).count task

theorem begun_le_of_count_le
    (hentries : after.agenda.entries task = before.agenda.entries task)
    (hcount : (after.dispatcher.hand ++ after.backlog).count task ≤
      (before.dispatcher.hand ++ before.backlog).count task) :
    after.begun task ≤ before.begun task := by
  rw [begun, begun, hentries]
  exact Nat.add_le_add_left hcount _

/-- What the dispatcher takes is not on the way in any more. -/
theorem begun_of_took {first : Entry} {rest : List Entry}
    (hseeking : before.dispatcher = .seeking)
    (hentries : before.agenda.queue.entries = first :: rest)
    (hagenda : after.agenda.entries = before.agenda.entries)
    (hrest : after.agenda.queue.entries = rest)
    (hproducers : after.agenda.queue.producers = before.agenda.queue.producers.wakeOne)
    (hdispatcher : after.dispatcher = .holding first.task)
    (hbacklog : after.backlog = before.backlog) (task : TaskId) :
    after.begun task + after.agenda.queue.inbound.count task =
      before.begun task + before.agenda.queue.inbound.count task := by
  have hcount := (Queue.inbound_perm_of_take hentries hrest hproducers).count_eq task
  rw [List.count_cons] at hcount
  have hhand : Dispatcher.hand .seeking = [] := rfl
  rw [begun, begun, hagenda, hdispatcher, hseeking, hbacklog, hhand, Dispatcher.hand,
    List.singleton_append, List.count_cons, List.nil_append]
  omega

theorem begun_of_tookUp (hcustody : before.Custody) {position : Nat} {entered : TaskId}
    (htask : before.backlog[position]? = some entered) (worker : Nat)
    (hagenda : after.agenda = (before.agenda.enter entered worker before.agenda.reading).1)
    (hbacklog : after.backlog = before.backlog.eraseIdx position)
    (hdispatcher : after.dispatcher = before.dispatcher) (task : TaskId) :
    after.begun task = before.begun task := by
  obtain ⟨record, run, turn, hrecord, hbody⟩ := hcustody.exists_body htask
  have hcount := (perm_cons_eraseIdx htask).count_eq task
  have hentries : after.agenda.entries task =
      before.agenda.entries task + if entered = task then 1 else 0 := by
    rw [hagenda, Agenda.enter_eq hrecord hbody worker]
    exact Agenda.entries_note_entered ..
  rw [List.count_cons] at hcount
  simp only [beq_iff_eq] at hcount
  rw [begun, begun, hentries, hbacklog, hdispatcher, List.count_append, List.count_append]
  omega

theorem begun_of_settle (hcustody : before.Custody) {job : Job α} (hjob : job ∈ before.jobs)
    {error? : Option TaskError} {agenda : Agenda α} {again : Bool}
    (hsettle : before.agenda.settle job before.agenda.reading error? = (agenda, again))
    (hafter : after.agenda = agenda) (hdispatcher : after.dispatcher = before.dispatcher)
    (hbacklog : after.backlog = before.backlog) (task : TaskId) :
    after.begun task = before.begun task := by
  obtain ⟨record, hrecord⟩ := (hcustody.fitsAt_of_mem (mem_tasksAt_place hjob)).exists_record
  obtain ⟨later, hsettles⟩ := Agenda.settles_settle hrecord hsettle
  rw [begun, begun, hafter, hsettles.entries_eq, hdispatcher, hbacklog]

/-- A run comes out of what the dispatcher and the workers have in hand, and what the
dispatcher has comes out of the queue. -/
theorem Move.begun_le (hmove : Move origin action before after) (hcustody : before.Custody)
    (task : TaskId) :
    after.begun task ≤ before.begun task ∨
      after.begun task + after.agenda.queue.inbound.count task =
        before.begun task + before.agenda.queue.inbound.count task := by
  cases hmove with
  | @took first rest hdispatcher _ _ hentries =>
      refine Or.inr (begun_of_took hdispatcher hentries ?_ ?_ ?_ ?_ ?_ task)
      all_goals rfl
  | ceased hdispatcher | idled hdispatcher | stopped hdispatcher | broke hdispatcher =>
      exact Or.inl (begun_le_of_count_le rfl (by rw [hdispatcher]; exact Nat.le_refl _))
  | started _ hdispatcher =>
      -- The task moves from the hand to the end of the backlog.
      refine Or.inl (begun_le_of_count_le rfl (Nat.le_of_eq ?_))
      rw [hdispatcher]
      show (before.backlog ++ [_]).count task = ([_] ++ before.backlog).count task
      exact List.perm_append_comm.count_eq task
  | discarded _ hdispatcher =>
      refine Or.inl (begun_le_of_count_le rfl ?_)
      rw [hdispatcher]
      exact (List.sublist_append_right _ _).count_le task
  | @tookUp _ _ worker htask =>
      refine Or.inl (Nat.le_of_eq (begun_of_tookUp hcustody htask worker ?_ ?_ ?_ task))
      all_goals rfl
  | lostUnentered =>
      -- The run is not begun, and nobody has it in hand any more.
      refine Or.inl (begun_le_of_count_le rfl ?_)
      exact ((List.eraseIdx_sublist ..).append_left before.dispatcher.hand).count_le task
  | settled hjob _ hsettle | rearmed hjob _ hsettle =>
      refine Or.inl (Nat.le_of_eq (begun_of_settle hcustody hjob hsettle ?_ ?_ ?_ task))
      all_goals rfl
  | _ => exact Or.inl (begun_le_of_count_le rfl (Nat.le_refl _))

/-- The runs of a task that have begun, and the one that may still come of it as long as the
queue does not accept it again. -/
def expected (scheduler : Scheduler α) (task : TaskId) : Nat :=
  scheduler.begun task + scheduler.agenda.queue.inbound.count task

theorem Move.expected_le (hmove : Move origin action before after) (hsound : before.Sound)
    (hnot : before.agenda.queue.admission ≠ .accepting) (task : TaskId) :
    after.expected task ≤ before.expected task := by
  have hinbound : after.agenda.queue.inbound.Subperm before.agenda.queue.inbound := by
    rcases hmove.change hsound with heq | ⟨operation, hchange, -⟩
    · rw [heq]
    · exact hchange.inbound_subperm hsound.queue.counted hnot
  -- Taking a task is the one move in which the two parts do not shrink separately.
  rcases hmove.begun_le hsound.custody task with hbegun | hboth
  · exact Nat.add_le_add hbegun (hinbound.count_le task)
  · exact Nat.le_of_eq hboth

/-! ## Handing out -/

/-- A task comes into the dispatcher's hand from the queue only. -/
theorem Move.holding_cases (hmove : Move origin action before after)
    (hholding : after.dispatcher = .holding task) :
    before.dispatcher = .holding task ∨
      task ∈ before.agenda.queue.tasks ∧ before.agenda.queue.admission ≠ .closed ∧
        before.agenda.clock.isReadable = true := by
  cases hmove with
  | took _ _ hadmission hentries _ _ hreadable =>
      obtain rfl := Dispatcher.holding.inj hholding
      exact Or.inr
        ⟨List.mem_map_of_mem (hentries ▸ List.mem_cons_self ..), hadmission, hreadable⟩
  | ceased | started | discarded | idled | stopped | broke =>
      exact absurd hholding Dispatcher.noConfusion
  | _ => exact Or.inl hholding

theorem HandsOut.mem_tasks (hhands : scheduler.HandsOut task) :
    task ∈ scheduler.agenda.queue.tasks ∧ scheduler.agenda.queue.admission ≠ .closed ∧
      scheduler.agenda.clock.isReadable = true := by
  obtain ⟨hseeking, after, hstep, hholding⟩ := hhands
  refine ((move_dispatch hstep).holding_cases hholding).resolve_left fun hbefore => ?_
  exact absurd (hseeking.symm.trans hbefore) Dispatcher.noConfusion

/-! ## A queue that has begun to drain -/

/-- The tasks whose producers wait. -/
def waitingTasks (scheduler : Scheduler α) : List TaskId :=
  scheduler.agenda.queue.producers.everyone.map Producer.task

/-- The next step of the dispatcher starts the task that it has in hand. -/
def Starts (scheduler : Scheduler α) (task : TaskId) : Prop :=
  scheduler.dispatcher = .holding task ∧ scheduler.Has task fun record => record.state = .pending

/-- What holds ever after of a scheduler whose queue has begun to drain in `origin`. -/
structure Sealed (origin scheduler : Scheduler α) : Prop where
  sealedBut : SealedBut origin.waitingTasks scheduler.agenda.queue
  evolve : RecordsEvolve origin scheduler
  closed : origin.agenda.queue.admission = .closed → scheduler.agenda.queue.admission = .closed
  readable : scheduler.agenda.clock.isReadable = true → origin.agenda.clock.isReadable = true
  expected_le : ∀ task, origin.agenda.periodicOf task = true →
    scheduler.expected task ≤ origin.begun task + origin.waitingTasks.count task
  holding : ∀ task, origin.agenda.periodicOf task = true → task ∉ origin.waitingTasks →
    scheduler.dispatcher = .holding task → origin.dispatcher = .holding task

namespace Sealed

/-- Of the periodic tasks only those whose producers waited are queued again. -/
theorem mem_waitingTasks (hsealed : Sealed origin scheduler) (hsound : scheduler.Sound)
    (hperiodic : scheduler.agenda.periodicOf task = true)
    (hqueued : task ∈ scheduler.agenda.queue.tasks) : task ∈ origin.waitingTasks := by
  obtain ⟨entry, hentry, rfl⟩ := List.mem_map.mp hqueued
  have hflag := (hsound.flagged.entry_eq entry hentry).trans hperiodic
  exact hsealed.sealedBut.periodic_mem entry hentry hflag

theorem not_queued (hsealed : Sealed origin scheduler) (hsound : scheduler.Sound)
    (hperiodic : origin.agenda.periodicOf task = true) (hwaiting : task ∉ origin.waitingTasks) :
    task ∉ scheduler.agenda.queue.tasks := by
  have hrecord : ∃ record, origin.record? task = some record := by
    cases hrecord : origin.record? task with
    | some record => exact ⟨record, rfl⟩
    | none =>
        have hnone : origin.agenda.records[task]? = none := hrecord
        simp [Agenda.periodicOf, hnone] at hperiodic
  intro hqueued
  have hstill := (hsealed.evolve.periodicOf_eq hrecord).trans hperiodic
  exact hwaiting (hsealed.mem_waitingTasks hsound hstill hqueued)

/-- A run must be in hand already, or its producer must wait. -/
theorem entries_le (hsealed : Sealed origin scheduler)
    (hperiodic : origin.agenda.periodicOf task = true) :
    scheduler.agenda.entries task ≤ origin.agenda.entries task +
      (origin.dispatcher.hand ++ origin.backlog ++ origin.waitingTasks).count task := by
  calc scheduler.agenda.entries task
      ≤ scheduler.expected task := by
        rw [expected, begun]
        omega
    _ ≤ origin.begun task + origin.waitingTasks.count task := hsealed.expected_le task hperiodic
    _ = _ := by rw [begun, Nat.add_assoc, ← List.count_append]

theorem of_move {cause : Scheduler α} (hsealed : Sealed origin before) (hsound : before.Sound)
    (hmove : Move cause action before after) : Sealed origin after where
  sealedBut := hmove.sealedBut hsound hsealed.sealedBut
  evolve := hsealed.evolve.trans (hmove.recordsEvolve hsound.custody)
  closed := fun hclosed => hmove.closed_of_closed hsound (hsealed.closed hclosed)
  readable := fun hreadable => hsealed.readable (hmove.isReadable_of_after hreadable)
  expected_le := fun task hperiodic =>
    Nat.le_trans (hmove.expected_le hsound hsealed.sealedBut.not_accepting task)
      (hsealed.expected_le task hperiodic)
  holding := fun task hperiodic hwaiting hholding =>
    hsealed.holding task hperiodic hwaiting <| (hmove.holding_cases hholding).resolve_right
      fun hqueued => hsealed.not_queued hsound hperiodic hwaiting hqueued.1

end Sealed

/-- Nothing is left of a periodic task on the way in, unless its producer waits. -/
theorem Sound.count_inbound_close (hsound : before.Sound) (drain : Bool)
    (hperiodic : before.agenda.periodicOf task = true) :
    (before.agenda.queue.close drain).1.inbound.count task = before.waitingTasks.count task := by
  have hperm := (Parking.everyone_wakeAll before.agenda.queue.producers).map Producer.task
  have hswept : task ∉ (before.agenda.queue.close drain).1.tasks := by
    intro hqueued
    obtain ⟨entry, hentry, rfl⟩ := List.mem_map.mp hqueued
    rw [Queue.close_entries] at hentry
    obtain ⟨hbefore, hstays⟩ := List.mem_filter.mp hentry
    have hflag := (hsound.flagged.entry_eq entry hbefore).trans hperiodic
    simp [Queue.staysOn, hflag] at hstays
  rw [Queue.inbound, List.count_append, List.count_eq_zero_of_not_mem hswept, Nat.add_zero]
  exact hperm.count_eq task

theorem isSealed_of_closing {call : CallId} {drain : Bool} (hsound : before.Sound)
    (hclose : before.calls.lookup call = some (.closing drain))
    (hstep : before.step (.proceed call) = some after) : Sealed before after := by
  obtain rfl := Option.some.inj ((step_closing hclose).symm.trans hstep)
  constructor
  · exact Queue.sealedBut_close _ _
  · exact RecordsEvolve.refl before
  · exact fun hclosed => if_pos hclosed
  · exact id
  · intro task hperiodic
    exact Nat.le_of_eq
      (congrArg (before.begun task + ·) (hsound.count_inbound_close drain hperiodic))
  · exact fun _ _ _ hholding => hholding

theorem Run.isSealed {call : CallId} {drain : Bool} {later : List (Scheduler α × Action α)}
    (hrun : Run config cores (later ++ (origin, .proceed call) :: past) scheduler)
    (hclose : origin.calls.lookup call = some (.closing drain)) : Sealed origin scheduler := by
  have hsound := hrun.at_step.1.reachable.sound
  exact hrun.ever_after (fun _ hstep => isSealed_of_closing hsound hclose hstep)
    fun _ _ _ _ hfirst hsealed hmove => hsealed.of_move hfirst hmove

/-- A task in hand that can be started could be started all the time. -/
theorem Sound.starts_of_starts (hsound : origin.Sound) (hevolve : RecordsEvolve origin scheduler)
    (hholding : origin.dispatcher = .holding task) (hstarts : scheduler.Starts task) :
    origin.Starts task := by
  obtain ⟨-, later, hlater, hpending⟩ := hstarts
  have hheld : task ∈ origin.tasksAt .held := by
    rw [tasksAt, hholding]
    exact List.mem_singleton_self task
  obtain ⟨-, record, hrecord, hidle, -⟩ := hsound.custody.fitsAt_of_mem hheld
  obtain ⟨found, hfound, hevolves⟩ := hevolve task record hrecord
  obtain rfl := Option.some.inj (hlater.symm.trans hfound)
  rcases hidle with hbefore | hcancelled
  · exact ⟨hholding, record, hrecord, hbefore⟩
  · have hsame := hevolves.state_eq (by rw [Record.isDone, hcancelled]; rfl)
    exact absurd (hpending.symm.trans (hsame.trans hcancelled)) (by decide)

/-! ## Who is handed out after all -/

/-- A periodic task that waits to be let in while the queue begins to drain can be handed
out later, if the clock can be read. -/
theorem Run.exists_hands_out (hrun : Run config cores past origin) {call : CallId}
    (hclose : origin.calls.lookup call = some (.closing true))
    (hadmission : origin.agenda.queue.admission ≠ .closed)
    (hreadable : origin.agenda.clock.isReadable = true) {producer : Producer}
    (hproducer : producer ∈ origin.agenda.queue.producers.everyone) :
    ∃ later final, Run config cores (later ++ (origin, .proceed call) :: past) final ∧
      final.HandsOut producer.task := by
  have hclosed := hrun.step (.proceed call) (step_closing hclose)
  have hopen : (origin.agenda.queue.close true).1.admission ≠ .closed := by
    show (if origin.agenda.queue.admission = .closed then Admission.closed else .draining) ≠ _
    rw [if_neg hadmission]
    decide
  have hwoken : producer ∈ (origin.agenda.queue.close true).1.producers.woken := by
    rcases List.mem_append.mp hproducer with hasleep | hwoken
    · exact List.mem_append_right _ hasleep
    · exact List.mem_append_left _ hwoken
  obtain ⟨final, hleads, hhands⟩ := hclosed.reachable.leads_to_hand hopen hwoken hreadable
  obtain ⟨later, hlater⟩ := hleads.exists_run hclosed
  exact ⟨later, final, hlater, hhands⟩

/-- A periodic task that is handed out after the queue has begun to drain has waited. -/
theorem Run.waits_of_hands_out {call : CallId} {drain : Bool} (hsound : origin.Sound)
    {later : List (Scheduler α × Action α)}
    (hrun : Run config cores (later ++ (origin, .proceed call) :: past) scheduler)
    (hclose : origin.calls.lookup call = some (.closing drain))
    (hperiodic : scheduler.agenda.periodicOf task = true) (hhands : scheduler.HandsOut task) :
    origin.agenda.queue.admission ≠ .closed ∧ origin.agenda.clock.isReadable = true ∧
      ∃ producer ∈ origin.agenda.queue.producers.everyone,
        producer.task = task ∧ producer.periodic = true := by
  have hsealed := hrun.isSealed hclose
  obtain ⟨hqueued, hopen, hreadable⟩ := hhands.mem_tasks
  have hwaits := hsealed.mem_waitingTasks hrun.reachable.sound hperiodic hqueued
  obtain ⟨producer, hproducer, rfl⟩ := List.mem_map.mp hwaits
  refine ⟨fun hclosed => hopen (hsealed.closed hclosed), hsealed.readable hreadable, producer,
    hproducer, rfl, ?_⟩
  have hrecord := hsound.exists_record_of_waiting hproducer
  rw [hsound.flagged.producer_eq producer hproducer, ← hsealed.evolve.periodicOf_eq hrecord]
  exact hperiodic

/-- After the queue has begun to drain, a periodic task can be handed out exactly if its
producer waited at that moment and the clock could be read then.  Such a task runs once more
at most.  Every other one is never queued again, is started only if the dispatcher had it in
hand already, and runs no more often than that and the backlog allow. -/
theorem Run.hands_out_periodic_iff (hrun : Run config cores past origin) {call : CallId}
    (hclose : origin.calls.lookup call = some (.closing true)) (task : TaskId) :
    ((∃ later final, Run config cores (later ++ (origin, .proceed call) :: past) final ∧
        final.agenda.periodicOf task = true ∧ final.HandsOut task) ↔
      origin.agenda.queue.admission ≠ .closed ∧ origin.agenda.clock.isReadable = true ∧
        ∃ producer ∈ origin.agenda.queue.producers.everyone,
          producer.task = task ∧ producer.periodic = true) ∧
    (origin.agenda.periodicOf task = true →
      (∀ later final, Run config cores (later ++ (origin, .proceed call) :: past) final →
        final.agenda.entries task ≤ origin.agenda.entries task +
          (origin.dispatcher.hand ++ origin.backlog ++ origin.waitingTasks).count task) ∧
      (task ∉ origin.waitingTasks →
        (∀ later final, Run config cores (later ++ (origin, .proceed call) :: past) final →
          task ∉ final.agenda.queue.tasks) ∧
        ((∃ later final, Run config cores (later ++ (origin, .proceed call) :: past) final ∧
          final.Starts task) ↔ origin.Starts task))) := by
  have hsound := hrun.reachable.sound
  refine ⟨⟨?_, ?_⟩, fun hperiodic => ⟨?_, fun hwaiting => ⟨?_, ?_, fun hstarts => ?_⟩⟩⟩
  · rintro ⟨later, final, hfinal, hperiodic, hhands⟩
    exact hfinal.waits_of_hands_out hsound hclose hperiodic hhands
  · rintro ⟨hadmission, hreadable, producer, hproducer, rfl, hperiodic⟩
    obtain ⟨later, final, hfinal, hhands⟩ :=
      hrun.exists_hands_out hclose hadmission hreadable hproducer
    refine ⟨later, final, hfinal, ?_, hhands⟩
    have hrecord := hsound.exists_record_of_waiting hproducer
    rw [(hfinal.isSealed hclose).evolve.periodicOf_eq hrecord,
      ← hsound.flagged.producer_eq producer hproducer]
    exact hperiodic
  · intro later final hfinal
    exact (hfinal.isSealed hclose).entries_le hperiodic
  · intro later final hfinal
    exact (hfinal.isSealed hclose).not_queued hfinal.reachable.sound hperiodic hwaiting
  · rintro ⟨later, final, hfinal, hstarts⟩
    have hsealed := hfinal.isSealed hclose
    have hholding := hsealed.holding task hperiodic hwaiting hstarts.1
    exact hsound.starts_of_starts hsealed.evolve hholding hstarts
  · exact ⟨[], _, hrun.step (.proceed call) (step_closing hclose), hstarts⟩

/-- Of two periodic tasks one is queued and the other waits for room when the queue begins
to drain: only the second can still be handed out. -/
theorem hands_out_waiting_only :
    ∃ (past : List (Scheduler Unit × Action Unit)) (origin : Scheduler Unit),
      Run { capacity := 1 } 1 past origin ∧
        origin.calls.lookup 2 = some (.closing true) ∧
        (∃ later final, Run { capacity := 1 } 1 (later ++ (origin, .proceed 2) :: past) final ∧
          final.agenda.periodicOf 1 = true ∧ final.HandsOut 1) ∧
        ∀ later final, Run { capacity := 1 } 1 (later ++ (origin, .proceed 2) :: past) final →
          0 ∉ final.agenda.queue.tasks ∧ final.agenda.entries 0 = 0 := by
  have hview : (played { capacity := 1 } 1
      [.request (.schedule (plainTask (.fixedRate (.ofSeconds 1)) .zero) true), .proceed 0,
        .request (.schedule (plainTask (.fixedRate (.ofSeconds 1)) .zero) true), .proceed 1,
        .request (.shutdown true)]).map (fun result =>
          ((result.2.calls.lookup 2, decide (result.2.agenda.queue.admission ≠ .closed ∧
            result.2.agenda.clock.isReadable = true ∧
            ∃ producer ∈ result.2.agenda.queue.producers.everyone,
              producer.task = 1 ∧ producer.periodic = true)),
            (result.2.waitingTasks, result.2.agenda.periodicOf 0),
            result.2.dispatcher, result.2.backlog, result.2.agenda.entries 0)) =
      some ((some (.closing true), true), ([1], true), .seeking, [], 0) := by
    decide +kernel
  obtain ⟨⟨past, origin⟩, hplayed, hparts⟩ := Option.map_eq_some_iff.mp hview
  simp only [Prod.mk.injEq, decide_eq_true_eq] at hparts
  obtain ⟨⟨hclose, hwaits⟩, ⟨hwaiting, hperiodic⟩, hdispatcher, hbacklog, hentries⟩ := hparts
  have hrun := Run.of_played hplayed
  obtain ⟨hlate, -⟩ := hrun.hands_out_periodic_iff hclose 1
  obtain ⟨-, hswept⟩ := hrun.hands_out_periodic_iff hclose 0
  obtain ⟨hbound, hnever⟩ := hswept hperiodic
  refine ⟨past, origin, hrun, hclose, hlate.mpr hwaits, fun later final hfinal => ?_⟩
  have hzero := hbound later final hfinal
  rw [hentries, hdispatcher, hbacklog, hwaiting] at hzero
  exact ⟨(hnever (by rw [hwaiting]; decide)).1 later final hfinal, Nat.le_zero.mp hzero⟩

/-- A periodic task that had not been accepted, let alone run, is let in and runs while the
queue drains. -/
theorem enters_periodic_after_closing :
    ∃ (past later : List (Scheduler Unit × Action Unit)) (origin final : Scheduler Unit),
      Run { capacity := 1 } 1 past origin ∧
        origin.calls.lookup 2 = some (.closing true) ∧
        Run { capacity := 1 } 1 (later ++ (origin, .proceed 2) :: past) final ∧
        origin.agenda.periodicOf 1 = true ∧ origin.active = 0 ∧
        origin.agenda.entries 1 = 0 ∧ final.agenda.entries 1 = 1 := by
  have hview : ((played { capacity := 1 } 1
      [.request (.schedule (plainTask .oneShot (.ofSeconds 1)) true), .proceed 0,
        .request (.schedule (plainTask (.fixedRate (.ofSeconds 1)) .zero) true), .proceed 1,
        .request (.shutdown true)]).bind fun first =>
      (replay first.1 first.2
        [.proceed 2, .advance (.ofSeconds 1), .announce, .dispatch, .dispatch, .proceed 1,
          .dispatch, .dispatch, .takeUp 0, .work 0, .work 0, .takeUp 0]).map fun second =>
      ((first.2.calls.lookup 2, first.2.agenda.periodicOf 1, first.2.active),
        first.2.agenda.entries 1, second.2.agenda.entries 1)) =
      some ((some (.closing true), true, 0), 0, 1) := by
    decide +kernel
  obtain ⟨⟨past, origin⟩, hplayed, hrest⟩ := Option.bind_eq_some_iff.mp hview
  obtain ⟨⟨whole, final⟩, hreplay, hparts⟩ := Option.map_eq_some_iff.mp hrest
  simp only [Prod.mk.injEq] at hparts
  obtain ⟨⟨hclose, hperiodic, hactive⟩, hentries⟩ := hparts
  obtain ⟨later, rfl⟩ := exists_append_of_replay_cons hreplay
  have hrun := Run.of_played hplayed
  exact ⟨past, later, origin, final, hrun, hclose, hrun.of_replay hreplay, hperiodic, hactive,
    hentries⟩

end Scheduler

end TimedTasks
