import Mathlib.Logic.Relation
import TimedTasks.Proofs.Queue.Invariant
import TimedTasks.Time.Clock

/-!
# The vigil of a taker

A taker that finds nothing due goes to sleep with a timer, and by then what it has seen may
be out of date: it has read the clock a moment earlier, and from now on entries come and go
and the clock moves on without it.

A `Vigil` is a queue with its clock and its one taker, taken apart finely enough for this to
matter.  The taker reads the clock in one step (`look`) and acts on what it has read in
another (`settle`).  Between the two it holds the queue, so that nobody else can do anything
to it, but the clock can be moved.  A move of the clock is one step, and that the queue is
told of it another (`announce`), for which the queue has to be free.  A taker that cannot read
the clock panics, and does not come back.

`Attentive` is what all of this keeps, whatever the order of the steps.  The taker never
sleeps past the first entry, because a new entry that comes first wakes it; and its timer has
not run out, because a move of the clock wakes it as well.  The one gap is the time between a
move of the clock and its announcement.
-/

namespace TimedTasks

namespace Queue

variable {caller : Nat} {queue after : Queue} {operation : Operation}

/-- Who sleeps has slept before or has just found that nothing is due. -/
theorem Change.asleep_cases (hchange : Change caller queue operation after) {taker : Taker}
    (htaker : taker ∈ after.takers.asleep) :
    taker ∈ queue.takers.asleep ∨
      ∃ now, operation = .take caller now ∧ ∀ due, taker.timer? = some due → now < due := by
  cases hchange with
  | unchanged | parked | parkedAgain | finished | taken | removed => exact Or.inl htaker
  | pushed | resumed =>
      left
      simp only [push] at htaker
      split at htaker
      · exact List.mem_of_mem_tail (Parking.asleep_wakeOne _ ▸ htaker)
      · exact htaker
  | refused => exact Or.inl (List.mem_of_mem_tail (Parking.asleep_wakeOne _ ▸ htaker))
  | @slept now timer? _ _ htimer _ hearly =>
      change taker ∈ queue.takers.asleep ++ [⟨caller, timer?⟩] at htaker
      rcases List.mem_append.mp htaker with hold | hnew
      · exact Or.inl hold
      · refine Or.inr ⟨now, rfl, fun due hdue => ?_⟩
        rw [List.mem_singleton] at hnew
        subst hnew htimer
        obtain ⟨first, hfirst, rfl⟩ := Option.map_eq_some_iff.mp hdue
        exact hearly first hfirst
  | closed | woken => exact absurd htaker List.not_mem_nil
  | expired => exact Or.inl (List.mem_of_mem_filter htaker)

theorem NothingBefore.lt_due {timer? : Option Moment} (hnothing : queue.NothingBefore timer?)
    {now : Moment} (hearly : ∀ due, timer? = some due → now < due) {entry : Entry}
    (hentry : entry ∈ queue.entries) : now < entry.key.due := by
  cases timer? with
  | none =>
      have hempty : queue.entries = [] := hnothing
      exact absurd hentry (hempty ▸ List.not_mem_nil)
  | some due => exact Nat.lt_of_lt_of_le (hearly due rfl) (hnothing entry hentry)

end Queue

/-- A queue with its clock and its one taker. -/
structure Vigil where
  queue : Queue
  clock : ManualClock
  /-- How many moves of the clock have not been announced yet. -/
  unannounced : Nat
  /-- What the taker has read from the clock, while it holds the queue. -/
  reading? : Option Moment
  /-- Whether the taker has panicked, as it could not read the clock. -/
  broken : Bool

namespace Vigil

/-- What can happen next. -/
inductive Action where
  /-- Anyone but the taker does something to the queue. -/
  | operate (operation : Queue.Operation)
  /-- The taker gets hold of the queue, and reads the clock if there is anything that might be
  due. -/
  | look
  /-- The taker takes an entry that is due or falls asleep. -/
  | settle
  | advance (move : Span)
  | announce

/-- The queue and its clock before anything has happened. -/
def new (capacity : Nat) : Vigil := ⟨.new capacity, .new, 0, none, false⟩

/-- One step; `none` if it cannot be made now. -/
def step (caller : Nat) (vigil : Vigil) : Action → Option Vigil
  | .operate (.take _ _) => none
  | .operate operation =>
    if vigil.reading? = none ∧ vigil.queue.Allows caller operation then
      some { vigil with queue := vigil.queue.apply operation }
    else none
  | .look =>
    if vigil.reading? = none ∧ vigil.broken = false ∧ vigil.queue.isAsleep caller = false then
      match vigil.queue.asksTime, vigil.clock.now with
      | true, .error _ => some { vigil with broken := true }
      | _, _ => some { vigil with reading? := some vigil.clock.reading }
    else none
  | .settle =>
    match vigil.reading? with
    | none => none
    | some now =>
      some { vigil with queue := vigil.queue.apply (.take caller now), reading? := none }
  | .advance move =>
    match vigil.clock.advance move with
    | .ok clock => some { vigil with clock, unannounced := vigil.unannounced + 1 }
    | .error _ => none
  | .announce =>
    if vigil.reading? = none ∧ vigil.unannounced ≠ 0 then
      some { vigil with queue := vigil.queue.wake, unannounced := vigil.unannounced - 1 }
    else none

/-- The vigils that steps lead to, in any order. -/
def Reached (caller capacity : Nat) (vigil : Vigil) : Prop :=
  Relation.ReflTransGen (fun first second => ∃ action, step caller first action = some second)
    (new capacity) vigil

/-- Make the steps of a list one after the other, if all of them can be made. -/
def follow (caller : Nat) (vigil : Vigil) : List Action → Option Vigil
  | [] => some vigil
  | action :: rest =>
    match vigil.step caller action with
    | some after => follow caller after rest
    | none => none

variable {caller capacity : Nat} {vigil after : Vigil}

theorem Reached.of_follow {actions : List Action} (hreached : Reached caller capacity vigil)
    (hfollow : vigil.follow caller actions = some after) : Reached caller capacity after := by
  induction actions generalizing vigil with
  | nil =>
      obtain rfl := Option.some.inj hfollow
      exact hreached
  | cons action rest ih =>
      unfold follow at hfollow
      split at hfollow
      · rename_i middle hstep
        exact ih (hreached.tail ⟨action, hstep⟩) hfollow
      · simp at hfollow

/-! ## What keeps the taker from oversleeping -/

/-- The taker sleeps for a good reason, what it has read from the clock is out of date only
if a move has not been announced, and so is its timer. -/
structure Attentive (caller : Nat) (vigil : Vigil) : Prop where
  ordered : vigil.queue.Ordered
  singleTaker : vigil.queue.SingleTaker caller
  watchful : vigil.queue.Watchful
  reading : ∀ now, vigil.reading? = some now → vigil.queue.isAsleep caller = false ∧
    (vigil.unannounced = 0 → now = vigil.clock.reading)
  timer : vigil.unannounced = 0 → ∀ taker ∈ vigil.queue.takers.asleep,
    ∀ due, taker.timer? = some due → vigil.clock.reading < due

theorem attentive_new (caller capacity : Nat) : Attentive caller (new capacity) := by
  have hqueue := Queue.sound_new caller capacity
  constructor
  · exact hqueue.wellFormed.ordered
  · exact hqueue.singleTaker
  · exact hqueue.watchful
  · exact fun now hreading => absurd hreading (by simp [new])
  · exact fun _ taker htaker => absurd htaker List.not_mem_nil

/-- Whatever is done to the queue, the taker stays attentive if its timer does not run out. -/
theorem Attentive.of_change {operation : Queue.Operation} {queue : Queue}
    (hvigil : Attentive caller vigil)
    (hchange : Queue.Change caller vigil.queue operation queue)
    (htimer : vigil.unannounced = 0 → ∀ taker ∈ queue.takers.asleep,
      ∀ due, taker.timer? = some due → vigil.clock.reading < due) :
    Attentive caller { vigil with queue, reading? := none } where
  ordered := hchange.ordered hvigil.ordered
  singleTaker := hchange.singleTaker hvigil.singleTaker
  watchful := hchange.watchful hvigil.ordered hvigil.singleTaker hvigil.watchful
  reading := fun now hreading => absurd hreading (by simp)
  timer := htimer

/-- Others do anything but take entries, and only while the taker does not hold the queue. -/
theorem operate_eq_some {operation : Queue.Operation}
    (hstep : vigil.step caller (.operate operation) = some after) :
    vigil.reading? = none ∧ vigil.queue.Allows caller operation ∧
      (∀ now, operation ≠ .take caller now) ∧
        after = { vigil with queue := vigil.queue.apply operation } := by
  cases operation with
  | take taker now => simp [step] at hstep
  | _ =>
      simp only [step] at hstep
      split at hstep
      · rename_i hfree
        exact ⟨hfree.1, hfree.2, fun now htake => by simp at htake, (Option.some.inj hstep).symm⟩
      · simp at hstep

theorem Attentive.step {action : Action} (hvigil : Attentive caller vigil)
    (hstep : vigil.step caller action = some after) : Attentive caller after := by
  obtain ⟨queue, clock, unannounced, reading?, broken⟩ := vigil
  cases action with
  | operate operation =>
      -- Somebody else has the queue, so nobody falls asleep as a taker.
      obtain ⟨rfl, hallows, hother, rfl⟩ := operate_eq_some hstep
      have hchange := Queue.change_apply hallows
      refine hvigil.of_change hchange fun hannounced taker htaker due hdue => ?_
      rcases hchange.asleep_cases htaker with hold | ⟨now, htake, -⟩
      · exact hvigil.timer hannounced taker hold due hdue
      · exact absurd htake (hother now)
  | look =>
      simp only [Vigil.step] at hstep
      split at hstep
      · rename_i hfree
        split at hstep
        · obtain rfl := Option.some.inj hstep
          exact ⟨hvigil.ordered, hvigil.singleTaker, hvigil.watchful, hvigil.reading,
            hvigil.timer⟩
        · obtain rfl := Option.some.inj hstep
          refine ⟨hvigil.ordered, hvigil.singleTaker, hvigil.watchful, ?_, hvigil.timer⟩
          intro now hreading
          obtain rfl := Option.some.inj hreading
          exact ⟨hfree.2.2, fun _ => rfl⟩
      · simp at hstep
  | settle =>
      cases reading? with
      | none => simp [Vigil.step] at hstep
      | some now =>
          obtain rfl := Option.some.inj hstep
          obtain ⟨hawake, hcurrent⟩ := hvigil.reading now rfl
          have hchange : Queue.Change caller queue (.take caller now)
              (queue.apply (.take caller now)) := Queue.change_apply ⟨rfl, hawake⟩
          refine hvigil.of_change hchange fun hannounced taker htaker due hdue => ?_
          rcases hchange.asleep_cases htaker with hold | ⟨read, htake, hearly⟩
          · exact hvigil.timer hannounced taker hold due hdue
          · obtain ⟨-, rfl⟩ := Queue.Operation.take.inj htake
            have hnow : now = clock.reading := hcurrent hannounced
            exact hnow ▸ hearly due hdue
  | advance move =>
      -- From here on the announcement is missing, and with it all that it would bring.
      simp only [Vigil.step] at hstep
      split at hstep
      · obtain rfl := Option.some.inj hstep
        refine ⟨hvigil.ordered, hvigil.singleTaker, hvigil.watchful, ?_, ?_⟩
        · exact fun now hreading => ⟨(hvigil.reading now hreading).1,
            fun hannounced => absurd hannounced (Nat.succ_ne_zero _)⟩
        · exact fun hannounced => absurd hannounced (Nat.succ_ne_zero _)
      · simp at hstep
  | announce =>
      simp only [Vigil.step] at hstep
      split at hstep
      · rename_i hfree
        obtain rfl := Option.some.inj hstep
        obtain ⟨rfl, -⟩ := hfree
        have hchange : Queue.Change caller queue .wake queue.wake := .woken
        refine ⟨hchange.ordered hvigil.ordered, hchange.singleTaker hvigil.singleTaker,
          hchange.watchful hvigil.ordered hvigil.singleTaker hvigil.watchful, ?_, ?_⟩
        · exact fun now hreading => absurd hreading (by simp)
        · exact fun _ taker htaker => absurd htaker List.not_mem_nil
      · simp at hstep

theorem Reached.attentive (hreached : Reached caller capacity vigil) :
    Attentive caller vigil := by
  induction hreached with
  | refl => exact attentive_new caller capacity
  | tail _ hlast ih =>
      obtain ⟨action, hstep⟩ := hlast
      exact ih.step hstep

/-- The taker sleeps only while the queue is not closed and nothing comes before its timer,
and nothing is due unless a move of the clock is still to be announced. -/
theorem Attentive.good_reason (hvigil : Attentive caller vigil) {taker : Taker}
    (htaker : taker ∈ vigil.queue.takers.asleep) :
    vigil.queue.admission ≠ .closed ∧ vigil.queue.NothingBefore taker.timer? ∧
      (vigil.unannounced = 0 →
        ∀ entry ∈ vigil.queue.entries, vigil.clock.reading < entry.key.due) := by
  obtain ⟨hopen, hsleep⟩ := hvigil.watchful taker htaker
  refine ⟨hopen, hsleep.nothingBefore, fun hannounced entry hentry => ?_⟩
  exact hsleep.nothingBefore.lt_due (hvigil.timer hannounced taker htaker) hentry

end Vigil

end TimedTasks
