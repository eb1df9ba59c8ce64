import Mathlib.Data.List.Chain
import TimedTasks.Proofs.Task.Record

/-!
# Calls that compete for a record

Holders, workers, the dispatcher and a shutdown all call on the same record, and nobody holds it
for a whole call.  What a caller does without anybody coming in between is one `Access`; a call
consists of one access or of several (`Access.next?`), and between two of them anything can
happen to the record.  A call that cancels a task first looks at its state and then tries to
swap it, and as long as someone else has moved the record meanwhile it looks and tries again.

A `Contest` is what any number of such calls come to, begun at any time and taking turns in any
order.  All that it says about the state of the record (`Lifetime`) rests on three facts about a
single access: it moves the state along an arrow or not at all, it moves the state only if it
tells its caller so, and it settles a record that is not settled or does not change that.  The
one thing to watch is a caller that acts on what it has seen: what it swaps was never settled
(`Contest.careful`).
-/

namespace TimedTasks

/-- Where a task can go from a state. -/
inductive TaskState.Arrow : TaskState → TaskState → Prop
  | started : Arrow .pending .running
  | completed : Arrow .running .completed
  | failed : Arrow .running .failed
  | rearmed : Arrow .running .pending
  | withdrawn : Arrow .pending .cancelled
  | interrupted : Arrow .running .cancelled

theorem TaskState.Arrow.not_isTerminal {before after : TaskState} (harrow : Arrow before after) :
    before.isTerminal = false := by
  cases harrow <;> rfl

/-- What a caller does to a record without anybody coming in between. -/
inductive Access (α : Type) where
  | start
  | finish (outcome : TaskState) (hfinal : outcome = .completed ∨ outcome = .failed)
  /-- The due time of the next run is set. -/
  | date (next : Moment)
  /-- A record whose next run has its due time becomes pending again. -/
  | rearm
  /-- A caller that is to cancel the task looks at its state. -/
  | look
  /-- The caller cancels the task, unless the state is not the one that it has seen. -/
  | swap (seen : TaskState)
  /-- A run is counted. -/
  | count
  /-- The body for that run is picked up, if there is one left. -/
  | seize
  | leave (ending : Ending α)
  | note (error : TaskError)

/-- What a caller can ask of a record.  A run of the body is two calls, since the body takes as
long as it likes and may do anything in between. -/
inductive Errand (α : Type) where
  | start
  | finish (outcome : TaskState) (hfinal : outcome = .completed ∨ outcome = .failed)
  | rearm (next : Moment)
  | cancel
  | enter
  | leave (ending : Ending α)
  | note (error : TaskError)

/-- How a call begins. -/
def Errand.first {α : Type} : Errand α → Access α
  | .start => .start
  | .finish outcome hfinal => .finish outcome hfinal
  | .rearm next => .date next
  | .cancel => .look
  | .enter => .count
  | .leave ending => .leave ending
  | .note error => .note error

namespace Access

variable {α : Type} {record : Record α} {access : Access α}

/-- The record after an access. -/
def after (record : Record α) : Access α → Record α
  | .start => record.start?.getD record
  | .finish outcome _ => (record.finish? outcome).getD record
  | .date next => { record with nextRunAt := next }
  | .rearm => if record.state = .running then { record with state := .pending } else record
  | .look => record
  | .swap seen => if record.state = seen then { record with state := .cancelled } else record
  | .count => { record with runs := record.runs + 1 }
  | .seize => if record.isPeriodic then record else { record with bodySpent := true }
  | .leave ending => record.leave ending
  | .note error => record.noteFailure error

/-- What the caller is told, or `none` if it is not told anything or has to go on. -/
def answer? (record : Record α) : Access α → Option Bool
  | .start => some record.start?.isSome
  | .finish outcome _ => some (record.finish? outcome).isSome
  | .rearm => some (record.state == .running)
  | .look => if record.isDone then some false else none
  | .swap seen =>
      if record.state = seen then some true else if record.isDone then some false else none
  | .date _ | .count | .seize | .leave _ | .note _ => none

/-- How the call goes on, or `none` if it is over. -/
def next? (record : Record α) : Access α → Option (Access α)
  | .date _ => some .rearm
  | .look => if record.isDone then none else some (.swap record.state)
  | .swap seen =>
      if record.state = seen ∨ record.isDone then none else some (.swap record.state)
  | .count => some .seize
  | .start | .finish _ _ | .rearm | .seize | .leave _ | .note _ => none

/-- Whether a call that is to finish or to cancel the task is told that it has done so. -/
def settles (record : Record α) (access : Access α) : Bool :=
  match access with
  | .finish _ _ | .look | .swap _ => access.answer? record == some true
  | .start | .date _ | .rearm | .count | .seize | .leave _ | .note _ => false

/-- Whether a body is entered. -/
def enters (record : Record α) : Access α → Bool
  | .seize => record.isPeriodic || !record.bodySpent
  | _ => false

/-- What a caller is going to swap is not final. -/
def Careful : Access α → Prop
  | .swap seen => seen.isTerminal = false
  | _ => True

/-- Which state an access expects, and to which state it moves a record that is in it. -/
def attempt? : Access α → Option (TaskState × TaskState)
  | .start => some (.pending, .running)
  | .finish outcome _ => some (.running, outcome)
  | .rearm => some (.running, .pending)
  | .swap seen => some (seen, .cancelled)
  | .date _ | .look | .count | .seize | .leave _ | .note _ => none

/-! ## One access -/

variable {expected target : TaskState}

theorem after_of_attempt (hattempt : access.attempt? = some (expected, target)) :
    access.after record =
      if record.state = expected then { record with state := target } else record := by
  cases access with
  | start | finish =>
      obtain ⟨rfl, rfl⟩ := Prod.mk.inj (Option.some.inj hattempt)
      simp only [after, Record.start?, Record.finish?]
      split <;> rfl
  | rearm | swap =>
      obtain ⟨rfl, rfl⟩ := Prod.mk.inj (Option.some.inj hattempt)
      rfl
  | date | look | count | seize | leave | note => simp [attempt?] at hattempt

theorem answer?_of_attempt (hattempt : access.attempt? = some (expected, target)) :
    access.answer? record = some true ↔ record.state = expected := by
  cases access with
  | start | finish =>
      obtain ⟨rfl, rfl⟩ := Prod.mk.inj (Option.some.inj hattempt)
      simp only [answer?, Record.start?, Record.finish?]
      split <;> simp [*]
  | rearm =>
      obtain ⟨rfl, rfl⟩ := Prod.mk.inj (Option.some.inj hattempt)
      simp [answer?]
  | swap =>
      obtain ⟨rfl, rfl⟩ := Prod.mk.inj (Option.some.inj hattempt)
      simp only [answer?]
      split
      · simp [*]
      · split <;> simp [*]
  | date | look | count | seize | leave | note => simp [attempt?] at hattempt

/-- An access that attempts nothing leaves the state alone, and nobody is told otherwise. -/
theorem rests_of_attempt (hattempt : access.attempt? = none) :
    access.answer? record ≠ some true ∧ (access.after record).state = record.state := by
  cases access with
  | start | finish | rearm | swap => simp [attempt?] at hattempt
  | look =>
      refine ⟨?_, rfl⟩
      simp only [answer?]
      split <;> simp
  | seize =>
      refine ⟨by simp [answer?], ?_⟩
      simp only [after]
      split <;> rfl
  | leave ending =>
      obtain ⟨result?, failures, lastError?, hleave⟩ := record.leave_eq ending
      exact ⟨by simp [answer?], by rw [after, hleave]⟩
  | date | count | note => exact ⟨by simp [answer?], rfl⟩

theorem careful_first (errand : Errand α) : errand.first.Careful := by
  cases errand <;> trivial

/-- A caller goes on to swap only what it has just seen, and only if that is not final. -/
theorem careful_next {next : Access α} (hnext : access.next? record = some next) :
    next.Careful := by
  cases access with
  | look =>
      simp only [next?] at hnext
      split at hnext
      · simp at hnext
      · rename_i hlive
        obtain rfl := Option.some.inj hnext
        exact Bool.eq_false_iff.mpr hlive
  | swap seen =>
      simp only [next?] at hnext
      split at hnext
      · simp at hnext
      · rename_i hlive
        obtain rfl := Option.some.inj hnext
        exact Bool.eq_false_iff.mpr (not_or.mp hlive).2
  | date | count =>
      obtain rfl := Option.some.inj hnext
      trivial
  | start | finish | rearm | seize | leave | note => simp [next?] at hnext

/-- What is attempted is a move along an arrow. -/
theorem Careful.arrow (hcareful : access.Careful)
    (hattempt : access.attempt? = some (expected, target)) :
    TaskState.Arrow expected target := by
  cases access with
  | start =>
      obtain ⟨rfl, rfl⟩ := Prod.mk.inj (Option.some.inj hattempt)
      exact .started
  | finish outcome hfinal =>
      obtain ⟨rfl, rfl⟩ := Prod.mk.inj (Option.some.inj hattempt)
      rcases hfinal with rfl | rfl
      · exact .completed
      · exact .failed
  | rearm =>
      obtain ⟨rfl, rfl⟩ := Prod.mk.inj (Option.some.inj hattempt)
      exact .rearmed
  | swap seen =>
      obtain ⟨rfl, rfl⟩ := Prod.mk.inj (Option.some.inj hattempt)
      cases seen with
      | pending => exact .withdrawn
      | running => exact .interrupted
      | completed | failed | cancelled =>
          exact absurd hcareful (by simp [Careful, TaskState.isTerminal])
  | date | look | count | seize | leave | note => simp [attempt?] at hattempt

/-- An access moves the state along an arrow and says so, or leaves the state where it is. -/
theorem Careful.moves (hcareful : access.Careful) (record : Record α) :
    access.answer? record = some true ∧
        TaskState.Arrow record.state (access.after record).state ∨
      access.answer? record ≠ some true ∧ (access.after record).state = record.state := by
  cases hattempt : access.attempt? with
  | none => exact Or.inr (rests_of_attempt hattempt)
  | some attempt =>
      obtain ⟨expected, target⟩ := attempt
      by_cases hhit : record.state = expected
      · refine Or.inl ⟨(answer?_of_attempt hattempt).mpr hhit, ?_⟩
        rw [after_of_attempt hattempt, if_pos hhit, hhit]
        exact hcareful.arrow hattempt
      · refine Or.inr ⟨mt (answer?_of_attempt hattempt).mp hhit, ?_⟩
        rw [after_of_attempt hattempt, if_neg hhit]

/-- Whoever is told that it has settled the task has done so, and nobody had before. -/
theorem Careful.isDone_of_settles (hcareful : access.Careful)
    (hsettles : access.settles record = true) :
    record.isDone = false ∧ (access.after record).isDone = true := by
  cases access with
  | finish outcome hfinal =>
      have hrunning : record.state = .running :=
        (answer?_of_attempt rfl).mp (eq_of_beq hsettles)
      refine ⟨by rw [Record.isDone, hrunning]; rfl, ?_⟩
      rw [after_of_attempt rfl, if_pos hrunning]
      rcases hfinal with rfl | rfl <;> rfl
  | swap seen =>
      have hseen : record.state = seen := (answer?_of_attempt rfl).mp (eq_of_beq hsettles)
      refine ⟨by rw [Record.isDone, hseen]; exact hcareful, ?_⟩
      rw [after_of_attempt rfl, if_pos hseen]
      rfl
  | look => exact absurd (eq_of_beq hsettles) (rests_of_attempt rfl).1
  | start | date | rearm | count | seize | leave | note => simp [settles] at hsettles

/-- Nobody else settles the task, or changes anything about it once it is settled. -/
theorem Careful.isDone_of_not_settles (hcareful : access.Careful)
    (hnot : access.settles record = false) :
    (access.after record).isDone = record.isDone := by
  rcases hcareful.moves record with ⟨htold, harrow⟩ | ⟨-, hsame⟩
  · cases access with
    | start =>
        have hpending : record.state = .pending := (answer?_of_attempt rfl).mp htold
        rw [after_of_attempt rfl, if_pos hpending, Record.isDone, Record.isDone, hpending]
        rfl
    | rearm =>
        have hrunning : record.state = .running := (answer?_of_attempt rfl).mp htold
        rw [after_of_attempt rfl, if_pos hrunning, Record.isDone, Record.isDone, hrunning]
        rfl
    | finish | look | swap => simp [settles, htold] at hnot
    | date | count | seize | leave | note => simp [answer?] at htold
  · rw [Record.isDone, hsame, Record.isDone]

/-! ### The body -/

theorem schedule_after (record : Record α) (access : Access α) :
    (access.after record).schedule = record.schedule := by
  cases hattempt : access.attempt? with
  | some attempt =>
      obtain ⟨expected, target⟩ := attempt
      rw [after_of_attempt hattempt]
      split <;> rfl
  | none =>
      cases access with
      | start | finish | rearm | swap => simp [attempt?] at hattempt
      | seize =>
          simp only [after]
          split <;> rfl
      | leave ending => exact (record.leave_evolves ending).schedule_eq
      | date | look | count | note => rfl

theorem isPeriodic_after (record : Record α) (access : Access α) :
    (access.after record).isPeriodic = record.isPeriodic := by
  rw [Record.isPeriodic, schedule_after, Record.isPeriodic]

/-- The body of a one-shot task is used up by whoever enters it, and by nobody else. -/
theorem bodySpent_after (honce : record.isPeriodic = false) (access : Access α) :
    (access.after record).bodySpent = (access.enters record || record.bodySpent) := by
  cases hattempt : access.attempt? with
  | some attempt =>
      obtain ⟨expected, target⟩ := attempt
      rw [after_of_attempt hattempt]
      cases access with
      | start | finish | rearm | swap => split <;> rfl
      | date | look | count | seize | leave | note => simp [attempt?] at hattempt
  | none =>
      cases access with
      | start | finish | rearm | swap => simp [attempt?] at hattempt
      | seize => cases hspent : record.bodySpent <;> simp [after, enters, honce, hspent]
      | leave ending =>
          obtain ⟨result?, failures, lastError?, hleave⟩ := record.leave_eq ending
          rw [after, hleave]
          rfl
      | date | look | count | note => rfl

/-! ## Whole calls

Each operation on a record is what the accesses of a call come to if nobody comes in between. -/

theorem rearm_after_date (record : Record α) (next : Moment) :
    Access.rearm.after ((Access.date next).after record) = (record.rearm next).1 ∧
      Access.rearm.answer? ((Access.date next).after record) = some (record.rearm next).2 := by
  by_cases hrunning : record.state = .running
  · simp [after, answer?, Record.rearm, hrunning]
  · simp [after, answer?, Record.rearm, hrunning]

theorem swap_after_look (hlive : record.isDone = false) :
    Access.look.next? record = some (.swap record.state) ∧
      (Access.swap record.state).answer? record = some true ∧
      (Access.swap record.state).next? record = none ∧
      record.cancel? = some ((Access.swap record.state).after record) := by
  refine ⟨if_neg (Bool.eq_false_iff.mp hlive), if_pos rfl, if_pos (Or.inl rfl), ?_⟩
  exact Record.cancel?_eq_some.mpr ⟨hlive, if_pos rfl⟩

theorem seize_after_count (record : Record α) :
    Access.seize.after (Access.count.after record) = record.enter.1 ∧
      Access.seize.enters (Access.count.after record) = record.enter.2.isSome := by
  have hmode : (Access.count.after record).isPeriodic = record.isPeriodic := rfl
  have hbody : (Access.count.after record).bodySpent = record.bodySpent := rfl
  cases hperiodic : record.isPeriodic with
  | true =>
      rw [Record.enter_of_periodic hperiodic, enters, hmode, hperiodic]
      exact ⟨if_pos (hmode.trans hperiodic), rfl⟩
  | false =>
      have hnot : ¬ (Access.count.after record).isPeriodic = true :=
        Bool.eq_false_iff.mp (hmode.trans hperiodic)
      cases hspent : record.bodySpent with
      | true =>
          rw [Record.enter_of_spent hperiodic hspent, enters, hmode, hperiodic, hbody, hspent]
          refine ⟨(if_neg hnot).trans ?_, rfl⟩
          rw [after, hspent]
      | false =>
          rw [Record.enter_of_fresh hperiodic hspent, enters, hmode, hperiodic, hbody, hspent]
          exact ⟨if_neg hnot, rfl⟩

end Access

/-! ## Calls taking turns -/

/-- The accesses that have led to a record, the newest first and each with the record that it
found, and how the calls that are not over yet go on.  Calls are begun at any time, and any of
them may be the next. -/
inductive Contest {α : Type} : List (Record α × Access α) → List (Access α) → Record α → Prop
  | start (name : String) (schedule : Schedule) (script : Script α) (due : Moment) :
      Contest [] [] { name, schedule, script, nextRunAt := due }
  | call {past : List (Record α × Access α)} {calls : List (Access α)} {record : Record α}
      (hcontest : Contest past calls record) (errand : Errand α) :
      Contest past (errand.first :: calls) record
  | turn {past : List (Record α × Access α)} {earlier later : List (Access α)}
      {access : Access α} {record : Record α}
      (hcontest : Contest past (earlier ++ access :: later) record) :
      Contest ((record, access) :: past) (earlier ++ (access.next? record).toList ++ later)
        (access.after record)

namespace Contest

variable {α : Type} {past : List (Record α × Access α)} {calls : List (Access α)}
variable {record : Record α}

/-- How many calls to finish or to cancel the task have been told that they have done so. -/
def settlements (past : List (Record α × Access α)) : Nat :=
  past.countP fun moment => moment.2.settles moment.1

/-- How often the body has been entered. -/
def entries (past : List (Record α × Access α)) : Nat :=
  past.countP fun moment => moment.2.enters moment.1

theorem careful (hcontest : Contest past calls record) : ∀ access ∈ calls, access.Careful := by
  induction hcontest with
  | start => exact fun _ haccess => absurd haccess List.not_mem_nil
  | call _ errand ih =>
      intro access haccess
      rcases List.mem_cons.mp haccess with rfl | haccess
      · exact Access.careful_first errand
      · exact ih access haccess
  | turn _ ih =>
      intro access haccess
      rw [List.append_assoc, List.mem_append, List.mem_append, Option.mem_toList] at haccess
      rcases haccess with haccess | hnext | haccess
      · exact ih access (List.mem_append_left _ haccess)
      · exact Access.careful_next hnext
      · exact ih access (List.mem_append_right _ (List.mem_cons_of_mem _ haccess))

/-- The states that a record has been in, the newest first. -/
def states (past : List (Record α × Access α)) (record : Record α) : List TaskState :=
  record.state :: past.map fun moment => moment.1.state

/-- What can be said of a record, whoever has called on it. -/
structure Lifetime (past : List (Record α × Access α)) (record : Record α) : Prop where
  /-- From one access to the next the state stays or moves along an arrow. -/
  path : (states past record).IsChain fun later earlier =>
    later = earlier ∨ TaskState.Arrow earlier later
  /-- No caller has moved the state without being told so. -/
  told : ∀ moment ∈ past, moment.2.answer? moment.1 ≠ some true →
    (moment.2.after moment.1).state = moment.1.state
  final : ∀ state ∈ states past record, state.isTerminal = true → record.state = state
  settlements_eq : settlements past = if record.isDone then 1 else 0
  entries_le : record.isPeriodic = false → entries past ≤ 1

theorem entries_eq (hcontest : Contest past calls record) (honce : record.isPeriodic = false) :
    entries past = if record.bodySpent then 1 else 0 := by
  induction hcontest with
  | start => rfl
  | call _ _ ih => exact ih honce
  | @turn past earlier later access record _ ih =>
      rw [Access.isPeriodic_after] at honce
      have hbefore := ih honce
      rw [entries] at hbefore ⊢
      rw [List.countP_cons, hbefore, Access.bodySpent_after honce]
      cases hspent : record.bodySpent with
      | true =>
          have hnot : access.enters record = false := by
            cases access <;> simp [Access.enters, honce, hspent]
          simp [hnot]
      | false => simp

theorem moves {earlier later : List (Access α)} {access : Access α}
    (hcontest : Contest past (earlier ++ access :: later) record) :
    access.answer? record = some true ∧
        TaskState.Arrow record.state (access.after record).state ∨
      access.answer? record ≠ some true ∧ (access.after record).state = record.state :=
  (hcontest.careful access (List.mem_append_right _ (List.mem_cons_self ..))).moves record

theorem path (hcontest : Contest past calls record) :
    (states past record).IsChain fun later earlier =>
      later = earlier ∨ TaskState.Arrow earlier later := by
  induction hcontest with
  | start => exact List.isChain_singleton _
  | call _ _ ih => exact ih
  | turn hcontest ih =>
      refine List.isChain_cons_cons.mpr ⟨?_, ih⟩
      rcases hcontest.moves with ⟨-, harrow⟩ | ⟨-, hsame⟩
      · exact Or.inr harrow
      · exact Or.inl hsame

theorem told (hcontest : Contest past calls record) :
    ∀ moment ∈ past, moment.2.answer? moment.1 ≠ some true →
      (moment.2.after moment.1).state = moment.1.state := by
  induction hcontest with
  | start => exact fun _ hmoment => absurd hmoment List.not_mem_nil
  | call _ _ ih => exact ih
  | turn hcontest ih =>
      intro moment hmoment hnot
      rcases List.mem_cons.mp hmoment with rfl | hmoment
      · rcases hcontest.moves with ⟨htold, -⟩ | ⟨-, hsame⟩
        · exact absurd htold hnot
        · exact hsame
      · exact ih moment hmoment hnot

theorem eq_of_isTerminal {first state : TaskState} {earlier : List TaskState}
    (hpath : (first :: earlier).IsChain fun later earlier =>
      later = earlier ∨ TaskState.Arrow earlier later)
    (hstate : state ∈ first :: earlier) (hfinal : state.isTerminal = true) : first = state := by
  induction earlier generalizing first with
  | nil => exact (List.mem_singleton.mp hstate).symm
  | cons second earlier ih =>
      obtain ⟨hlast, hpath⟩ := List.isChain_cons_cons.mp hpath
      rcases List.mem_cons.mp hstate with rfl | hstate
      · rfl
      · obtain rfl := ih hpath hstate
        refine hlast.resolve_right fun harrow => ?_
        exact absurd (harrow.not_isTerminal.symm.trans hfinal) Bool.false_ne_true

theorem settlements_eq (hcontest : Contest past calls record) :
    settlements past = if record.isDone then 1 else 0 := by
  induction hcontest with
  | start => rfl
  | call _ _ ih => exact ih
  | @turn past earlier later access record hcontest ih =>
      have hcareful := hcontest.careful access (List.mem_append_right _ (List.mem_cons_self ..))
      rw [settlements] at ih ⊢
      rw [List.countP_cons, ih]
      -- Whoever settles the task has found it live and leaves it done. Nobody else changes that.
      cases hsettles : access.settles record with
      | true =>
          obtain ⟨hlive, hdone⟩ := hcareful.isDone_of_settles hsettles
          simp [hlive, hdone]
      | false =>
          rw [hcareful.isDone_of_not_settles hsettles]
          simp

theorem lifetime (hcontest : Contest past calls record) : Lifetime past record where
  path := hcontest.path
  told := hcontest.told
  final := fun _ hstate hfinal => eq_of_isTerminal hcontest.path hstate hfinal
  settlements_eq := hcontest.settlements_eq
  entries_le := fun honce => by
    rw [hcontest.entries_eq honce]
    split <;> decide

/-- Begin the calls of a list, and let the call at a position make its next access, one after the
other. -/
def play (past : List (Record α × Access α)) (calls : List (Access α)) (record : Record α) :
    List (Errand α ⊕ Nat) → Option (List (Record α × Access α) × List (Access α) × Record α)
  | [] => some (past, calls, record)
  | .inl errand :: rest => play past (errand.first :: calls) record rest
  | .inr position :: rest =>
    match calls[position]? with
    | some access =>
      play ((record, access) :: past)
        (calls.take position ++ (access.next? record).toList ++ calls.drop (position + 1))
        (access.after record) rest
    | none => none

theorem of_play {turns : List (Errand α ⊕ Nat)}
    {result : List (Record α × Access α) × List (Access α) × Record α}
    (hcontest : Contest past calls record) (hplay : play past calls record turns = some result) :
    Contest result.1 result.2.1 result.2.2 := by
  induction turns generalizing past calls record with
  | nil =>
      obtain rfl := Option.some.inj hplay
      exact hcontest
  | cons turn rest ih =>
      cases turn with
      | inl errand => exact ih (hcontest.call errand) hplay
      | inr position =>
          unfold play at hplay
          split at hplay
          · rename_i access haccess
            obtain ⟨hlt, rfl⟩ := List.getElem?_eq_some_iff.mp haccess
            -- The caller whose turn it is stands at some position of the list.
            rw [← List.take_append_drop position calls, List.drop_eq_getElem_cons hlt] at hcontest
            exact ih hcontest.turn hplay
          · simp at hplay

end Contest

/-! ## Operations on a record -/

/-- The record has been brought about by calls that are all over. -/
def Record.Contested {α : Type} (record : Record α) : Prop := ∃ past, Contest past [] record

namespace Record.Contested

variable {α : Type} {record moved : Record α}

theorem of_access (hcontested : record.Contested) (errand : Errand α)
    (hnext : errand.first.next? record = none) : (errand.first.after record).Contested := by
  obtain ⟨past, hcontest⟩ := hcontested
  have hafter : Contest _ ([] ++ (errand.first.next? record).toList ++ []) _ :=
    (hcontest.call errand : Contest past ([] ++ errand.first :: []) record).turn
  rw [hnext] at hafter
  exact ⟨_, hafter⟩

theorem of_accesses (hcontested : record.Contested) (errand : Errand α) {second : Access α}
    (hnext : errand.first.next? record = some second)
    (hlast : second.next? (errand.first.after record) = none) :
    (second.after (errand.first.after record)).Contested := by
  obtain ⟨past, hcontest⟩ := hcontested
  have hmiddle : Contest _ ([] ++ (errand.first.next? record).toList ++ []) _ :=
    (hcontest.call errand : Contest past ([] ++ errand.first :: []) record).turn
  rw [hnext] at hmiddle
  have hafter : Contest _ ([] ++ (second.next? (errand.first.after record)).toList ++ []) _ :=
    (hmiddle : Contest _ ([] ++ second :: []) _).turn
  rw [hlast] at hafter
  exact ⟨_, hafter⟩

theorem new (name : String) (schedule : Schedule) (script : Script α) (due : Moment) :
    Record.Contested { name, schedule, script, nextRunAt := due } :=
  ⟨[], .start name schedule script due⟩

theorem start (hcontested : record.Contested) : (record.start?.getD record).Contested :=
  hcontested.of_access .start rfl

theorem finish (hcontested : record.Contested) {outcome : TaskState}
    (hfinal : outcome = .completed ∨ outcome = .failed) :
    ((record.finish? outcome).getD record).Contested :=
  hcontested.of_access (.finish outcome hfinal) rfl

theorem rearm (hcontested : record.Contested) (next : Moment) :
    (record.rearm next).1.Contested :=
  (Access.rearm_after_date record next).1 ▸ hcontested.of_accesses (.rearm next) rfl rfl

theorem cancel (hcontested : record.Contested) (hcancel : record.cancel? = some moved) :
    moved.Contested := by
  obtain ⟨hlive, -⟩ := Record.cancel?_eq_some.mp hcancel
  obtain ⟨hnext, -, hlast, hmoved⟩ := Access.swap_after_look hlive
  rw [Option.some.inj (hcancel.symm.trans hmoved)]
  exact hcontested.of_accesses .cancel hnext hlast

theorem enter (hcontested : record.Contested) : record.enter.1.Contested :=
  (Access.seize_after_count record).1 ▸ hcontested.of_accesses .enter rfl rfl

theorem leave (hcontested : record.Contested) (ending : Ending α) :
    (record.leave ending).Contested :=
  hcontested.of_access (.leave ending) rfl

theorem noteFailure (hcontested : record.Contested) (error : TaskError) :
    (record.noteFailure error).Contested :=
  hcontested.of_access (.note error) rfl

/-- What a verdict on a run does to the record is done by calls. -/
theorem judged (hcontested : record.Contested) {schedule : Schedule} {policy : FailurePolicy}
    {dueAt completedAt : Moment} {error? : Option TaskError} :
    (record.judged (schedule.verdict policy dueAt completedAt error?)).1.Contested := by
  cases hverdict : schedule.verdict policy dueAt completedAt error? with
  | giveUp error => exact (hcontested.noteFailure error).finish (Or.inr rfl)
  | finish outcome => exact hcontested.finish (Schedule.eq_or_eq_of_verdict_finish hverdict)
  | rearm next => exact hcontested.rearm next

end Record.Contested

end TimedTasks
