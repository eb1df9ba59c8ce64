import Mathlib.Algebra.GroupWithZero.Nat
import TimedTasks.Time.Clock

/-!
# What a clock has been through

A clock that is moved by hand is asked for three things: to take on a listener, to move, and to
show the time.  A request is carried out bit by bit, and what has been done by the time that it is
refused is not undone (`Deed`): a move first counts for the clock, and then the listeners are
called, one after the other (`move`).  Only the first of these steps can be refused, and that is
why a refusal leaves no trace and why a move as a whole is `WatchedClock.advance` (`on_move`).

From the requests and from what they came to one can tell where the clock should be: how far it
has been moved (`moved`), who listens (`listeners`), and what the listeners should have counted
(`counted`).  A clock that agrees with all of this (`Tallies`) still does after one more request,
whatever it is (`Tallies.serve`).  So every clock does (`tallies_after`), and what it shows is how
far it has been moved, which only ever grows.
-/

namespace TimedTasks

namespace WatchedClock

variable {watched : WatchedClock} {β γ : Type}

/-! ## Requests, bit by bit -/

/-- Something that is done to a watched clock and may be refused on the way.  What has been changed
by then stays changed. -/
abbrev Deed (β : Type) := ExceptT ClockFault (StateM WatchedClock) β

/-- What comes of a deed, and the clock that it leaves, whether or not it is refused. -/
def Deed.on (deed : Deed β) (watched : WatchedClock) : Except ClockFault β × WatchedClock :=
  (ExceptT.run deed).run watched

/-- Call one listener. -/
def call (watched : WatchedClock) (weight : Nat) : WatchedClock :=
  { watched with count := watched.count + weight }

/-- Call listeners one after the other. -/
def notify (weights : List Nat) : Deed Unit :=
  weights.forM fun weight => modify fun watched => watched.call weight

/-- Move the clock, and then call everyone who listens by now. -/
def move (span : Span) : Deed Unit := do
  let clock ← MonadExcept.ofExcept ((← get).clock.advance span)
  modify fun watched => { watched with clock }
  notify (← get).weights

/-- What a watched clock can be asked for. -/
inductive Request where
  | listen (weight : Nat)
  | advance (span : Span)
  | now
  deriving DecidableEq, Repr

/-- What a request comes to: a moment if it has asked for one, or a refusal. -/
abbrev Answer := Except ClockFault (Option Moment)

/-- How a request is carried out. -/
def Request.deed : Request → Deed (Option Moment)
  | .listen weight => do
    modify fun watched => watched.listen weight
    return none
  | .advance span => do
    move span
    return none
  | .now => do
    let moment ← MonadExcept.ofExcept (← get).clock.now
    return some moment

/-- The answer to a request, and the clock that is left behind. -/
def serve (watched : WatchedClock) (request : Request) : Answer × WatchedClock :=
  request.deed.on watched

theorem on_bind (deed : Deed β) (next : β → Deed γ) (watched : WatchedClock) :
    (deed >>= next).on watched =
      match deed.on watched with
      | (.ok value, after) => (next value).on after
      | (.error fault, after) => (.error fault, after) := by
  simp only [Deed.on, ExceptT.run_bind, StateT.run_bind]
  rcases (ExceptT.run deed).run watched with ⟨result, after⟩
  cases result <;> rfl

theorem on_ofExcept (result : Except ClockFault β) (watched : WatchedClock) :
    (MonadExcept.ofExcept result : Deed β).on watched = (result, watched) := by
  cases result <;> rfl

theorem on_notify (weights : List Nat) (watched : WatchedClock) :
    (notify weights).on watched =
      (.ok (), { watched with count := watched.count + weights.sum }) := by
  induction weights generalizing watched with
  | nil => rfl
  | cons weight rest ih =>
      show (notify rest).on (watched.call weight) = _
      rw [ih, List.sum_cons, ← Nat.add_assoc]
      rfl

/-- A move is made as a whole or not at all. -/
theorem on_move (span : Span) (watched : WatchedClock) :
    (move span).on watched =
      match watched.advance span with
      | .ok after => (.ok (), after)
      | .error fault => (.error fault, watched) := by
  show (MonadExcept.ofExcept (watched.clock.advance span) >>= fun clock => do
    modify fun watched => { watched with clock }
    notify (← get).weights : Deed Unit).on watched = _
  rw [on_bind, on_ofExcept, advance]
  -- a refusal ends the deed before anything has been changed
  cases watched.clock.advance span with
  | error fault => rfl
  | ok clock => exact on_notify watched.weights { watched with clock }

/-! ## One request -/

theorem serve_listen (watched : WatchedClock) (weight : Nat) :
    watched.serve (.listen weight) = (.ok none, watched.listen weight) := rfl

theorem serve_advance (watched : WatchedClock) (span : Span) :
    watched.serve (.advance span) =
      match watched.advance span with
      | .ok after => (.ok none, after)
      | .error fault => (.error fault, watched) := by
  show (move span >>= fun _ => pure none : Deed (Option Moment)).on watched = _
  rw [on_bind, on_move]
  cases watched.advance span <;> rfl

theorem serve_now (watched : WatchedClock) :
    watched.serve .now = (watched.clock.now.map some, watched) := by
  show (MonadExcept.ofExcept watched.clock.now >>= fun moment => pure (some moment) :
    Deed (Option Moment)).on watched = _
  rw [on_bind, on_ofExcept]
  cases watched.clock.now <;> rfl

theorem serve_eq_of_refused {request : Request} {fault : ClockFault}
    (hrefused : (watched.serve request).1 = .error fault) :
    (watched.serve request).2 = watched := by
  cases request with
  | listen weight => simp [serve_listen] at hrefused
  | advance span =>
      rw [serve_advance] at hrefused ⊢
      cases hadvance : watched.advance span with
      | ok after => simp [hadvance] at hrefused
      | error fault => rfl
  | now => rw [serve_now]

theorem serve_advance_of_le {span : Span}
    (hle : watched.clock.elapsed.nanos + span.nanos ≤ Span.longest.nanos) :
    watched.serve (.advance span) =
      (.ok none, ⟨⟨⟨watched.clock.elapsed.nanos + span.nanos⟩⟩, watched.weights,
        watched.count + watched.weights.sum⟩) := by
  rw [serve_advance, advance, ManualClock.advance_of_le hle]
  rfl

theorem serve_advance_of_lt {span : Span}
    (hlt : Span.longest.nanos < watched.clock.elapsed.nanos + span.nanos) :
    watched.serve (.advance span) = (.error .spanOverflow, watched) := by
  rw [serve_advance, advance, ManualClock.advance_of_lt hlt]

/-! ## A history of requests -/

/-- A request that has been made, and what it came to. -/
structure Event where
  request : Request
  answer : Answer

/-- How far the clock has been moved, unless it has been refused. -/
def Event.move? : Event → Option Span
  | ⟨.advance span, .ok _⟩ => some span
  | ⟨.advance _, .error _⟩ | ⟨.listen _, _⟩ | ⟨.now, _⟩ => none

/-- Who listens from now on. -/
def Event.listener? : Event → Option Nat
  | ⟨.listen weight, _⟩ => some weight
  | ⟨.advance _, _⟩ | ⟨.now, _⟩ => none

/-- What the clock has shown. -/
def Event.moment? : Event → Option Moment
  | ⟨.now, .ok moment?⟩ => moment?
  | ⟨.now, .error _⟩ | ⟨.listen _, _⟩ | ⟨.advance _, _⟩ => none

/-- How far the clock has been moved altogether, in nanoseconds. -/
def moved (past : List Event) : Nat :=
  ((past.filterMap Event.move?).map Span.nanos).sum

/-- The weights of all who listen, in the order of registration. -/
def listeners (past : List Event) : List Nat :=
  (past.filterMap Event.listener?).reverse

/-- What the listeners have counted: with each move, everyone who listened by then. -/
def counted : List Event → Nat
  | [] => 0
  | event :: earlier =>
    counted earlier + if event.move?.isSome then (listeners earlier).sum else 0

/-- What the clock has shown, the latest first. -/
def shown (past : List Event) : List Moment :=
  past.filterMap Event.moment?

/-- The clock after requests that were made one after the other, the latest first. -/
def after : List Request → WatchedClock
  | [] => new
  | request :: earlier => ((after earlier).serve request).2

/-- What these requests came to. -/
def events : List Request → List Event
  | [] => []
  | request :: earlier => ⟨request, ((after earlier).serve request).1⟩ :: events earlier

/-- A clock agrees with what it has been through. -/
structure Tallies (past : List Event) (watched : WatchedClock) : Prop where
  elapsed_eq : watched.clock.elapsed.nanos = moved past
  elapsed_le : watched.clock.elapsed.nanos ≤ Span.longest.nanos
  weights_eq : watched.weights = listeners past
  count_eq : watched.count = counted past
  /-- The clock does not stand before anything that it has shown. -/
  shown_le : ∀ moment ∈ shown past, moment ≤ watched.clock.reading
  shown_pairwise : (shown past).Pairwise fun later earlier => earlier ≤ later

variable {past : List Event}

theorem tallies_new : Tallies [] new where
  elapsed_eq := rfl
  elapsed_le := Nat.zero_le _
  weights_eq := rfl
  count_eq := rfl
  shown_le := fun _ hmoment => absurd hmoment List.not_mem_nil
  shown_pairwise := List.Pairwise.nil

/-- A request that does nothing to the clock and shows nothing does not matter. -/
theorem Tallies.of_idle (htallies : Tallies past watched) {event : Event}
    (hmove : event.move? = none) (hlistener : event.listener? = none)
    (hmoment : event.moment? = none) : Tallies (event :: past) watched where
  elapsed_eq := by
    rw [moved, List.filterMap_cons_none hmove]
    exact htallies.elapsed_eq
  elapsed_le := htallies.elapsed_le
  weights_eq := by
    rw [listeners, List.filterMap_cons_none hlistener]
    exact htallies.weights_eq
  count_eq := by
    rw [counted, hmove]
    exact htallies.count_eq
  shown_le := by
    rw [shown, List.filterMap_cons_none hmoment]
    exact htallies.shown_le
  shown_pairwise := by
    rw [shown, List.filterMap_cons_none hmoment]
    exact htallies.shown_pairwise

theorem Tallies.listen (htallies : Tallies past watched) (weight : Nat) :
    Tallies (⟨.listen weight, .ok none⟩ :: past) (watched.listen weight) where
  elapsed_eq := htallies.elapsed_eq
  elapsed_le := htallies.elapsed_le
  weights_eq := by
    rw [WatchedClock.listen, htallies.weights_eq]
    exact (List.reverse_cons ..).symm
  count_eq := htallies.count_eq
  shown_le := htallies.shown_le
  shown_pairwise := htallies.shown_pairwise

theorem Tallies.move (htallies : Tallies past watched) {span : Span}
    (hle : watched.clock.elapsed.nanos + span.nanos ≤ Span.longest.nanos) :
    Tallies (⟨.advance span, .ok none⟩ :: past)
      ⟨⟨⟨watched.clock.elapsed.nanos + span.nanos⟩⟩, watched.weights,
        watched.count + watched.weights.sum⟩ where
  elapsed_eq := by
    rw [htallies.elapsed_eq, Nat.add_comm]
    rfl
  elapsed_le := hle
  weights_eq := htallies.weights_eq
  count_eq := by
    rw [htallies.count_eq, htallies.weights_eq]
    rfl
  shown_le := fun moment hmoment =>
    Nat.le_trans (htallies.shown_le moment hmoment) (Nat.le_add_right ..)
  shown_pairwise := htallies.shown_pairwise

/-- What the clock shows now is not before anything that it has shown. -/
theorem Tallies.look (htallies : Tallies past watched) :
    Tallies (⟨.now, .ok (some watched.clock.reading)⟩ :: past) watched where
  elapsed_eq := htallies.elapsed_eq
  elapsed_le := htallies.elapsed_le
  weights_eq := htallies.weights_eq
  count_eq := htallies.count_eq
  shown_le := by
    intro moment hmoment
    rcases List.mem_cons.mp hmoment with rfl | hmoment
    · exact Nat.le_refl _
    · exact htallies.shown_le moment hmoment
  shown_pairwise := List.Pairwise.cons htallies.shown_le htallies.shown_pairwise

theorem Tallies.serve (htallies : Tallies past watched) (request : Request) :
    Tallies (⟨request, (watched.serve request).1⟩ :: past) (watched.serve request).2 := by
  cases request with
  | listen weight => exact htallies.listen weight
  | advance span =>
      -- a refused move counts neither for the clock nor for its listeners
      rcases Nat.lt_or_ge Span.longest.nanos (watched.clock.elapsed.nanos + span.nanos) with
        hlt | hle
      · rw [serve_advance_of_lt hlt]
        exact htallies.of_idle rfl rfl rfl
      · rw [serve_advance_of_le hle]
        exact htallies.move hle
  | now =>
      rw [serve_now, ManualClock.now]
      split
      · exact htallies.look
      · exact htallies.of_idle rfl rfl rfl

theorem tallies_after (requests : List Request) :
    Tallies (events requests) (after requests) := by
  induction requests with
  | nil => exact tallies_new
  | cons request earlier ih => exact ih.serve request

theorem Tallies.answer_advance (htallies : Tallies past watched) (span : Span) :
    ((watched.serve (.advance span)).1 = .error .spanOverflow ↔
        Span.longest.nanos < moved past + span.nanos) ∧
      ((watched.serve (.advance span)).1 = .ok none ↔
        moved past + span.nanos ≤ Span.longest.nanos) := by
  rw [← htallies.elapsed_eq]
  rcases Nat.lt_or_ge Span.longest.nanos (watched.clock.elapsed.nanos + span.nanos) with
    hlt | hle
  · simp [serve_advance_of_lt hlt, hlt]
  · simp [serve_advance_of_le hle, hle]

/-- The clock shows the moment that it has been moved to, unless it cannot be represented. -/
theorem Tallies.answer_now (htallies : Tallies past watched) :
    (watched.serve .now).1 =
      match Moment.origin.add? ⟨moved past⟩ with
      | some moment => .ok (some moment)
      | none => .error .momentOverflow := by
  have hreading : (⟨Moment.origin.nanos + moved past⟩ : Moment) = watched.clock.reading := by
    rw [ManualClock.reading, htallies.elapsed_eq, Moment.origin, Nat.zero_add]
  rw [serve_now, ManualClock.now, ManualClock.isReadable, Moment.add?, hreading]
  cases watched.clock.reading.isRepresentable <;> rfl

/-- A clock keeps the time.

Whatever a clock has been asked for: it has been moved by exactly the sum of the moves that were
not refused, and this is no more than the longest span; its listeners have counted, with each of
these moves, the weights of all who were registered by then; and what it has shown has never gone
back.

Whatever it is asked for next: a listener is accepted.  A move is refused if the sum of the moves
would pass the longest span, and made otherwise.  The clock shows the moment that lies this sum
after its origin, or refuses if there is no such moment, and does not change by being looked at.
Neither does it change by anything that it refuses. -/
theorem keeps_time (requests : List Request) :
    (after requests).clock.elapsed.nanos = moved (events requests) ∧
      moved (events requests) ≤ Span.longest.nanos ∧
      (after requests).weights = listeners (events requests) ∧
      (after requests).count = counted (events requests) ∧
      ((shown (events requests)).Pairwise fun later earlier => earlier ≤ later) ∧
      (∀ weight, ((after requests).serve (.listen weight)).1 = .ok none) ∧
      (∀ span,
        (((after requests).serve (.advance span)).1 = .error .spanOverflow ↔
          Span.longest.nanos < moved (events requests) + span.nanos) ∧
        (((after requests).serve (.advance span)).1 = .ok none ↔
          moved (events requests) + span.nanos ≤ Span.longest.nanos)) ∧
      ((after requests).serve .now).1 =
        (match Moment.origin.add? ⟨moved (events requests)⟩ with
        | some moment => .ok (some moment)
        | none => .error .momentOverflow) ∧
      ((after requests).serve .now).2 = after requests ∧
      ∀ request fault, ((after requests).serve request).1 = .error fault →
        ((after requests).serve request).2 = after requests := by
  have htallies := tallies_after requests
  have hlongest : moved (events requests) ≤ Span.longest.nanos :=
    htallies.elapsed_eq ▸ htallies.elapsed_le
  have hlook : ((after requests).serve .now).2 = after requests := by rw [serve_now]
  exact ⟨htallies.elapsed_eq, hlongest, htallies.weights_eq, htallies.count_eq,
    htallies.shown_pairwise, fun _ => rfl, htallies.answer_advance, htallies.answer_now, hlook,
    fun _ _ => serve_eq_of_refused⟩

/-- One listener counts two moves of 600 ms, another that is registered in between counts the second
of them, and both count a third move, which takes the clock to the longest span.  There it can
neither be moved by another nanosecond nor show the time. -/
theorem keeps_time_up_to_longest_span :
    ∃ requests, (after requests).clock.elapsed = Span.longest ∧
      (after requests).count = 23 ∧ shown (events requests) = [⟨1200000000⟩] ∧
      ((after requests).serve .now).1 = .error .momentOverflow ∧
      ((after requests).serve (.advance ⟨1⟩)).1 = .error .spanOverflow ∧
      ((after requests).serve (.advance ⟨1⟩)).2 = after requests := by
  let requests : List Request :=
    [.advance ⟨Span.longest.nanos - 1200000000⟩, .now, .advance ⟨600000000⟩, .listen 10,
      .advance ⟨600000000⟩, .listen 1]
  have hmoved : moved (events requests) = Span.longest.nanos := by decide +kernel
  have hcounted : counted (events requests) = 23 := by decide +kernel
  have hshown : shown (events requests) = [⟨1200000000⟩] := by decide +kernel
  obtain ⟨helapsed, -, -, hcount, -, -, hadvance, hnow, -, hrefused⟩ := keeps_time requests
  have hpast : Moment.origin.add? ⟨moved (events requests)⟩ = none := by
    rw [hmoved]
    decide +kernel
  rw [hpast] at hnow
  have hfull := (hadvance ⟨1⟩).1.mpr (by rw [hmoved]; exact Nat.lt_succ_self _)
  exact ⟨requests, congrArg Span.mk (helapsed.trans hmoved), hcount.trans hcounted, hshown, hnow,
    hfull, hrefused _ _ hfull⟩

end WatchedClock

end TimedTasks
