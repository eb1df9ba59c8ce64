import TimedTasks.Proofs.Queue.Conservation
import TimedTasks.Proofs.Queue.Draining

/-!
# When a taker may leave

A taker that is told that nothing will come any more leaves for good, and nobody comes in its
place.  Were it told too early, an entry that comes in afterwards would stay for ever.  It is
told in two situations, which are safe for different reasons.

* The queue drains, nothing is queued and no producer is counted.  The count is exact, so there
  is nobody left whom a draining queue would let in.
* The queue is closed for good.  Producers may still be on their way, but closing has woken all
  of them, and whoever looks again at a closed queue gives up, even if there is room by then.

`Queue.Deserted` is what both come down to.  No operation changes it (`Change.deserted`), and it
settles every answer that the queue can still give.
-/

namespace TimedTasks

namespace Queue

variable {caller : Nat} {queue after : Queue} {operation : Operation} {capacity : Nat}
variable {past later : List (Queue × Operation)}

/-! ## Who is told -/

theorem take_of_isOver (hover : queue.IsOver) (caller : Nat) (now : Moment) :
    queue.take caller now = (queue.alert caller, .finished) := by
  rcases hover with hclosed | ⟨hdraining, hentries, hblocked⟩
  · exact take_of_closed hclosed caller now
  · exact take_of_over hentries hdraining hblocked caller now

theorem take_finished_iff {now : Moment} :
    (queue.take caller now).2 = .finished ↔ queue.IsOver := by
  constructor
  · intro hfinished
    by_cases hclosed : queue.admission = .closed
    · exact Or.inl hclosed
    · cases hentries : queue.entries with
      | nil =>
          by_cases hover : queue.admission = .draining ∧ queue.blockedProducers = 0
          · exact Or.inr ⟨hover.1, hentries, hover.2⟩
          · rw [take_of_empty hentries hclosed fun hdraining hblocked =>
              hover ⟨hdraining, hblocked⟩] at hfinished
            exact Taken.noConfusion hfinished
      | cons first rest =>
          by_cases hdue : first.key.due ≤ now
          · rw [take_of_due hentries hclosed caller hdue] at hfinished
            exact Taken.noConfusion hfinished
          · rw [take_of_early hentries hclosed caller hdue] at hfinished
            exact Taken.noConfusion hfinished
  · exact fun hover => congrArg Prod.snd (take_of_isOver hover caller now)

/-! ## Nobody is left -/

/-- Nobody sleeps in front of a queue that is closed for good. -/
theorem Change.asleep_of_closed (hchange : Change caller queue operation after)
    (hqueue : queue.admission = .closed → queue.producers.asleep = []) :
    after.admission = .closed → after.producers.asleep = [] := by
  cases hchange with
  | unchanged | pushed | finished | slept | woken | expired => exact hqueue
  | parked hadmission => exact fun hclosed => absurd (hadmission.symm.trans hclosed) (by decide)
  | parkedAgain _ _ hadmission | resumed _ hadmission | taken _ hadmission =>
      exact fun hclosed => absurd hclosed hadmission
  | refused _ hadmission => exact fun _ => hqueue hadmission
  | removed =>
      exact fun hclosed => (Parking.asleep_wakeOne _).trans (congrArg List.tail (hqueue hclosed))
  | closed => exact fun _ => rfl

theorem Counted.everyone_eq_nil (hqueue : queue.Counted) (hblocked : queue.blockedProducers = 0) :
    queue.producers.everyone = [] :=
  List.eq_nil_of_length_eq_zero (hqueue.blocked_eq.symm.trans hblocked)

/-- Nothing is queued, nobody is let in any more, and whoever still waits may look again. -/
structure Deserted (queue : Queue) : Prop where
  isOver : queue.IsOver
  counted : queue.Counted
  entries_eq_nil : queue.entries = []
  asleep_eq_nil : queue.producers.asleep = []

theorem deserted_of_isOver (hover : queue.IsOver) (hcounted : queue.Counted)
    (hempty : queue.admission = .closed → queue.entries = [])
    (hasleep : queue.admission = .closed → queue.producers.asleep = []) : queue.Deserted := by
  rcases hover with hclosed | hdrained
  · exact ⟨Or.inl hclosed, hcounted, hempty hclosed, hasleep hclosed⟩
  · have hnobody := hcounted.everyone_eq_nil hdrained.2.2
    exact ⟨Or.inr hdrained, hcounted, hdrained.2.1, (List.append_eq_nil_iff.mp hnobody).1⟩

theorem Change.deserted (hchange : Change caller queue operation after)
    (hqueue : queue.Deserted) : after.Deserted :=
  deserted_of_isOver (hchange.isOver hqueue.counted hqueue.isOver) (hchange.counted hqueue.counted)
    (hchange.closed_empty fun _ => hqueue.entries_eq_nil)
    (hchange.asleep_of_closed fun _ => hqueue.asleep_eq_nil)

/-- A queue that is over is deserted, however it has come to that. -/
theorem Course.deserted (hcourse : Course (new capacity) past queue) (hover : queue.IsOver) :
    queue.Deserted := by
  have hcounted := hcourse.counted ⟨rfl, List.nodup_nil⟩
  have hempty : queue.admission = .closed → queue.entries = [] :=
    hcourse.keeps (p := fun queue => queue.admission = .closed → queue.entries = [])
      (fun _ => rfl) fun _ _ _ _ hqueue hchange => hchange.closed_empty hqueue
  have hasleep : queue.admission = .closed → queue.producers.asleep = [] :=
    hcourse.keeps (p := fun queue => queue.admission = .closed → queue.producers.asleep = [])
      (fun _ => rfl) fun _ _ _ _ hqueue hchange => hchange.asleep_of_closed hqueue
  exact deserted_of_isOver hover hcounted hempty hasleep

/-! ## What a deserted queue answers -/

namespace Deserted

theorem not_accepting (hqueue : queue.Deserted) : queue.admission ≠ .accepting := by
  intro haccepting
  rcases hqueue.isOver with hclosed | ⟨hdraining, -⟩
  · exact absurd (haccepting.symm.trans hclosed) (by decide)
  · exact absurd (haccepting.symm.trans hdraining) (by decide)

/-- A producer that waited before a queue was deserted gives up.  If the queue drains, there is
none. -/
theorem resume_eq (hqueue : queue.Deserted) {producer : Producer}
    (hwoken : producer ∈ queue.producers.woken) (due : Moment) :
    (queue.resume producer due).2 = .refused .closed := by
  rcases hqueue.isOver with hclosed | ⟨-, -, hblocked⟩
  · rw [resume_of_closed hclosed]
  · exact absurd hblocked (Nat.ne_of_gt (hqueue.counted.blocked_pos hwoken))

/-- Nothing comes into a deserted queue and nothing goes out, since it is empty before and
afterwards. -/
theorem entering_eq_nil (hqueue : queue.Deserted) (hallows : Allows caller queue operation) :
    queue.entering operation = [] := by
  have hafter := ((change_apply hallows).deserted hqueue).entries_eq_nil
  cases queue.flow operation with
  | inserts _ _ _ _ _ htakesIn | putsBack _ _ _ _ htakesIn =>
      have hperm := htakesIn.entries_perm
      rw [hafter] at hperm
      exact absurd hperm.symm.eq_nil (List.cons_ne_nil _ _)
  | letsGo hentering => exact hentering

theorem course (hqueue : queue.Deserted) (hcourse : Course queue later after) :
    after.Deserted ∧ gathered entering later = [] := by
  induction hcourse with
  | start => exact ⟨hqueue, rfl⟩
  | step _ hallows ih =>
      refine ⟨(change_apply hallows).deserted ih.1, ?_⟩
      rw [gathered_cons, ih.1.entering_eq_nil hallows, ih.2, List.append_nil]

/-- All that the callers of a deserted queue can be told. -/
theorem answers (hqueue : queue.Deserted) :
    (∀ taker moment, (queue.take taker moment).2 = .finished) ∧
      (∀ producer due, (queue.insert producer due).2 = .refused .closed) ∧
      (∀ task periodic due, queue.tryInsert task periodic due = .error .closed) ∧
      (∀ task periodic cancelled due, queue.requeue task periodic cancelled due = none) ∧
      ∀ producer ∈ queue.producers.everyone, producer ∈ queue.producers.woken ∧
        ∀ due, (queue.resume producer due).2 = .refused .closed := by
  have hnot := hqueue.not_accepting
  refine ⟨fun _ _ => take_finished_iff.mpr hqueue.isOver, fun producer due => ?_,
    fun _ _ _ => if_pos hnot, fun _ _ _ _ => if_pos (Or.inl hnot), fun producer hproducer => ?_⟩
  · rw [insert_of_not_accepting hnot]
  · rw [Parking.everyone, hqueue.asleep_eq_nil, List.nil_append] at hproducer
    exact ⟨hproducer, hqueue.resume_eq hproducer⟩

end Deserted

/-- Nobody is told too early that nothing will come any more.

However a queue has been used, once a taker has been told so, the queue is empty and stays
empty, whatever is done to it later: every taker that looks is told the same, everyone who
brings a task is turned away, nothing comes in, and the producers that are still on their way
have all been woken and will give up.  If the callers kept to the rules before, then all that
had been let in has gone out, and no entry is left behind. -/
theorem Course.finished_for_good (hcourse : Course (new capacity) past queue) {now : Moment}
    (hfinished : (queue.take caller now).2 = .finished)
    (hlater : Course (queue.take caller now).1 later after) :
    after.entries = [] ∧ gathered entering later = [] ∧
      (∀ taker moment, (after.take taker moment).2 = .finished) ∧
      (∀ producer due, (after.insert producer due).2 = .refused .closed) ∧
      (∀ task periodic due, after.tryInsert task periodic due = .error .closed) ∧
      (∀ task periodic cancelled due, after.requeue task periodic cancelled due = none) ∧
      (∀ producer ∈ after.producers.everyone, producer ∈ after.producers.woken ∧
        ∀ due, (after.resume producer due).2 = .refused .closed) ∧
      ∀ dueOf, Usage.Run capacity past ⟨queue, dueOf⟩ →
        (gathered leaving past).Perm (gathered entering past) := by
  have hover := take_finished_iff.mp hfinished
  have hqueue := hcourse.deserted hover
  rw [take_of_isOver hover] at hlater
  have halert : (queue.alert caller).Deserted :=
    ⟨hover, hqueue.counted.of_perm rfl (List.Perm.refl _), hqueue.entries_eq_nil,
      hqueue.asleep_eq_nil⟩
  obtain ⟨hafter, hentering⟩ := halert.course hlater
  obtain ⟨htake, hinsert, htry, hrequeue, hresume⟩ := hafter.answers
  refine ⟨hafter.entries_eq_nil, hentering, htake, hinsert, htry, hrequeue, hresume,
    fun dueOf hrun => ?_⟩
  have hperm := hrun.entries_perm
  rwa [hqueue.entries_eq_nil, List.nil_append] at hperm

/-- A queue with one place is closed while a task is queued and a producer sleeps in front of
it.  The dispatcher leaves at once, with the producer still on its way; a task that returns and
a second call to close the queue change nothing. -/
theorem finished_for_good_with_a_producer_on_its_way :
    ∃ past queue later after, Course (new 1) past queue ∧
      (queue.take 0 .origin).2 = .finished ∧ Course (queue.take 0 .origin).1 later after ∧
      after.producers.woken = [⟨1, 1, false⟩] ∧ after.entries = [] ∧
      (after.resume ⟨1, 1, false⟩ .origin).2 = .refused .closed ∧
      (gathered leaving past).Perm (gathered entering past) := by
  have hfollow : (Usage.follow 0 [] ⟨new 1, fun _ => .origin⟩
      [.insert ⟨0, 0, false⟩ .origin, .insert ⟨1, 1, false⟩ .origin, .close false]).map
        (fun result => ((result.2.queue.take 0 .origin).2,
          (follow 0 [] (result.2.queue.take 0 .origin).1
            [.requeue 2 true false .origin, .close true]).map
              fun further => further.2.producers.woken)) =
      some (.finished, some [⟨1, 1, false⟩]) := by
    decide +kernel
  obtain ⟨⟨past, usage⟩, hresult, hparts⟩ := Option.map_eq_some_iff.mp hfollow
  simp only [Prod.mk.injEq] at hparts
  obtain ⟨hfinished, hfurther⟩ := hparts
  obtain ⟨⟨later, after⟩, hlater, hwoken⟩ := Option.map_eq_some_iff.mp hfurther
  have hrun := Usage.Run.of_follow (.start _) hresult
  have hcourse := Course.of_follow .start hlater
  obtain ⟨hempty, -, -, -, -, -, hresume, hgone⟩ :=
    hrun.course.finished_for_good hfinished hcourse
  have hmem : ⟨1, 1, false⟩ ∈ after.producers.everyone :=
    List.mem_append_right _ (hwoken ▸ List.mem_singleton_self _)
  exact ⟨past, usage.queue, later, after, hrun.course, hfinished, hcourse, hwoken, hempty,
    (hresume _ hmem).2 .origin, hgone usage.dueOf hrun⟩

end Queue

end TimedTasks
