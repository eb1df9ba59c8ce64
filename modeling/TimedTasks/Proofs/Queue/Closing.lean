import TimedTasks.Proofs.Queue.Ending

/-!
# Closing a queue

A queue is closed to drain or for good, and two callers may do both, one after the other or
with anything else in between.  What closing makes of the entries is said by `Queue.Parts`:
some are handed back in the order of their keys, and the others stay as they were, in the
entries and in the index.

The admission of a queue only moves forward (`rank_le_foldl`).  So the order of the two calls
does not matter for how the queue ends up, and neither does what is done to it in between,
provided that no producer waited when the first call was made: a draining queue would let that
producer in.  `Queue.Sealed` is the situation after the first call, in which entries can only
leave (`Sealed.course`).
-/

namespace TimedTasks

@[simp] theorem Parking.wakeAll_wakeAll {β : Type} (parking : Parking β) :
    parking.wakeAll.wakeAll = parking.wakeAll := by
  simp [wakeAll]

namespace Queue

variable {caller : Nat} {origin queue after between : Queue} {operation : Operation}
variable {capacity : Nat} {past later : List (Queue × Operation)} {goes : Entry → Bool}

/-! ## What goes and what stays -/

/-- The entries that go are handed back in the order of their keys, and the others stay under
their keys, in the entries and in the index. -/
structure Parts (queue after : Queue) (removed : List Entry) (goes : Entry → Bool) : Prop where
  mem_removed_iff : ∀ entry, entry ∈ removed ↔ entry ∈ queue.entries ∧ goes entry = true
  removed_sorted : removed.Pairwise fun first second => first.key < second.key
  mem_entries_iff : ∀ entry, entry ∈ after.entries ↔ entry ∈ queue.entries ∧ goes entry = false
  entries_sorted : after.entries.Pairwise fun first second => first.key < second.key
  lookup_iff : ∀ task key, after.index.lookup task = some key ↔
    ∃ entry ∈ queue.entries, goes entry = false ∧ entry.task = task ∧ entry.key = key

/-- Closing hands back what does not stay on. -/
theorem WellFormed.parts_close (hqueue : queue.WellFormed) {drain : Bool}
    (hgoes : ∀ entry, goes entry = !staysOn drain entry) :
    Parts queue (queue.close drain).1 (queue.close drain).2 goes where
  mem_removed_iff entry := by rw [close_removed, List.mem_filter, hgoes]
  removed_sorted := by
    rw [close_removed]
    exact hqueue.sorted.sublist List.filter_sublist
  mem_entries_iff entry := by
    rw [close_entries, List.mem_filter, hgoes, Bool.not_eq_false']
  entries_sorted := (hqueue.close drain).sorted
  lookup_iff task key := by
    rw [(hqueue.close drain).lookup_iff]
    simp only [close_entries, List.mem_filter, hgoes, Bool.not_eq_false', and_assoc]

theorem close_perm (queue : Queue) (drain : Bool) :
    ((queue.close drain).2 ++ (queue.close drain).1.entries).Perm queue.entries := by
  rw [close_entries, close_removed]
  exact List.perm_append_comm.trans (List.filter_append_perm (staysOn drain) queue.entries)

theorem close_false_removed (queue : Queue) : (queue.close false).2 = queue.entries := rfl

theorem WellFormed.index_eq_nil (hqueue : queue.WellFormed) (hentries : queue.entries = []) :
    queue.index = [] := by
  rcases hindex : queue.index with _ | ⟨⟨task, key⟩, rest⟩
  · rfl
  · have hlookup : queue.index.lookup task = some key := by
      rw [hindex, List.lookup_cons, beq_self_eq_true]
    obtain ⟨entry, hentry, -⟩ := (hqueue.lookup_iff task key).mp hlookup
    rw [hentries] at hentry
    exact absurd hentry List.not_mem_nil

/-! ## Admission only moves forward -/

/-- Closing moves the admission forward, and nothing else moves it. -/
theorem rank_le_apply (queue : Queue) (operation : Operation) :
    queue.admission.rank ≤ (queue.apply operation).admission.rank := by
  have hsame : ∀ {after : Queue}, after.admission = queue.admission →
      queue.admission.rank ≤ after.admission.rank := fun heq => Nat.le_of_eq (heq ▸ rfl)
  cases operation with
  | close drain =>
      show queue.admission.rank ≤ Admission.rank (if queue.admission = .closed then .closed
        else if drain then .draining else .closed)
      cases queue.admission <;> cases drain <;> decide
  | insert producer due =>
      refine hsame ?_
      simp only [apply, insert]
      split_ifs <;> rfl
  | resume producer due =>
      refine hsame ?_
      simp only [apply, resume]
      split_ifs <;> rfl
  | tryInsert task periodic due =>
      refine hsame ?_
      cases hresult : queue.tryInsert task periodic due with
      | error => simp only [apply, hresult]; rfl
      | ok =>
          obtain ⟨-, -, rfl⟩ := tryInsert_eq_ok hresult
          simp only [apply, hresult]
          rfl
  | requeue task periodic cancelled due =>
      refine hsame ?_
      cases hresult : queue.requeue task periodic cancelled due with
      | none => simp only [apply, hresult]; rfl
      | some =>
          obtain ⟨-, -, rfl⟩ := requeue_eq_some hresult
          simp only [apply, hresult]
          rfl
  | take taker now =>
      refine hsame ?_
      simp only [apply, take]
      split
      · rfl
      · split <;> split <;> rfl
  | remove task => exact hsame (queue.admission_remove task)
  | wake | expire => exact Nat.le_refl _

theorem rank_le_foldl (queue : Queue) (operations : List Operation) :
    queue.admission.rank ≤ (operations.foldl apply queue).admission.rank := by
  induction operations generalizing queue with
  | nil => exact Nat.le_refl _
  | cons operation rest ih => exact Nat.le_trans (queue.rank_le_apply operation) (ih _)

theorem admission_close_true (hadmission : queue.admission ≠ .closed) :
    (queue.close true).1.admission = .draining := by
  simp [close, hadmission]

theorem admission_close_false (queue : Queue) : (queue.close false).1.admission = .closed := by
  simp [close]

/-- A queue that is closed for good stays closed, whatever is done to it, and be it a call
that wants it to drain. -/
theorem admission_foldl_of_closed (hclosed : queue.admission = .closed)
    (operations : List Operation) : (operations.foldl apply queue).admission = .closed := by
  have hrank := queue.rank_le_foldl operations
  rw [hclosed] at hrank
  cases hafter : (operations.foldl apply queue).admission with
  | closed => rfl
  | accepting | draining =>
      rw [hafter] at hrank
      exact absurd hrank (by decide)

/-! ## Two calls -/

/-- Nobody is let in any more, and no producer waits. -/
structure Sealed (queue : Queue) : Prop where
  not_accepting : queue.admission ≠ .accepting
  nobody : queue.producers.everyone = []

theorem sealed_close (hnobody : queue.producers.everyone = []) (drain : Bool) :
    (queue.close drain).1.Sealed where
  not_accepting := (sealedBut_close queue drain).not_accepting
  nobody := by
    have hperm := Parking.everyone_wakeAll queue.producers
    rw [hnobody] at hperm
    exact hperm.eq_nil

theorem Sealed.not_mem_woken (hsealed : queue.Sealed) (producer : Producer) :
    producer ∉ queue.producers.woken := by
  intro hwoken
  have hmem := List.mem_append_right queue.producers.asleep hwoken
  rw [← Parking.everyone, hsealed.nobody] at hmem
  exact List.not_mem_nil hmem

theorem Sealed.entering_eq_nil (hsealed : queue.Sealed) (hallows : Allows caller queue operation) :
    queue.entering operation = [] := by
  have hnot := hsealed.not_accepting
  cases operation with
  | insert producer due =>
      simp [entering, inserted, putBack, insert_of_not_accepting hnot producer due]
  | resume producer due => exact absurd hallows (hsealed.not_mem_woken producer)
  | tryInsert task periodic due =>
      simp [entering, inserted, putBack, tryInsert, hnot, Except.isOk, Except.toBool]
  | requeue task periodic cancelled due =>
      simp [entering, inserted, putBack, requeue, hnot]
  | take | remove | close | wake | expire => rfl

theorem Change.sealed (hchange : Change caller queue operation after) (hsealed : queue.Sealed) :
    after.Sealed := by
  have hnot := hsealed.not_accepting
  cases hchange with
  | unchanged | finished | slept | woken | expired => exact ⟨hnot, hsealed.nobody⟩
  | parked hadmission | pushed hadmission => exact absurd hadmission hnot
  | @parkedAgain producer _ hwoken | @refused producer _ hwoken | @resumed producer _ hwoken =>
      exact absurd hwoken (hsealed.not_mem_woken producer)
  | taken | removed =>
      have hperm := Parking.everyone_wakeOne queue.producers
      rw [hsealed.nobody] at hperm
      exact ⟨hnot, hperm.eq_nil⟩
  | closed drain => exact sealed_close hsealed.nobody drain

/-- From then on entries only leave. -/
theorem Sealed.course (hsealed : origin.Sealed) (horigin : origin.WellFormed)
    (hcourse : Course origin later queue) :
    queue.Sealed ∧ queue.WellFormed ∧ queue.nextSeq = origin.nextSeq ∧
      (queue.entries ++ gathered leaving later).Perm origin.entries := by
  induction hcourse with
  | start => exact ⟨hsealed, horigin, rfl, List.Perm.of_eq (List.append_nil _)⟩
  | @step later queue operation caller hcourse hallows ih =>
      obtain ⟨hsealed, hqueue, hnextSeq, hperm⟩ := ih
      have hchange := change_apply hallows
      have hentering := hsealed.entering_eq_nil hallows
      have hstep := hqueue.entries_perm operation
      rw [hentering, List.nil_append] at hstep
      -- No task is queued twice afterwards: none was before, and nothing has come in.
      have htasks := ((hstep.map Entry.task).nodup_iff).mpr hqueue.tasks_nodup
      rw [List.map_append] at htasks
      have hkept : (queue.apply operation).nextSeq = queue.nextSeq := by
        cases queue.flow operation with
        | inserts entry hinserted | putsBack entry hinserted hputBack =>
            simp_all [entering]
        | letsGo _ _ hkept => exact hkept
      refine ⟨hchange.sealed hsealed, hchange.wellFormed hqueue (List.nodup_append.mp htasks).1,
        hkept.trans hnextSeq, ?_⟩
      · rw [gathered_cons, ← List.append_assoc]
        exact (hstep.append_right _).trans hperm

/-- What is left of a queue that is closed for good. -/
theorem WellFormed.close_false_eq (hqueue : queue.WellFormed) :
    (queue.close false).1 =
      { queue with
        entries := []
        index := []
        admission := .closed
        takers := queue.takers.wakeAll
        producers := queue.producers.wakeAll } := by
  calc (queue.close false).1
    _ = { queue with
          entries := []
          index := (queue.close false).1.index
          admission := (queue.close false).1.admission
          takers := queue.takers.wakeAll
          producers := queue.producers.wakeAll } := rfl
    _ = _ := by rw [(hqueue.close false).index_eq_nil rfl, admission_close_false]

/-- Closing for good makes up for a call that wanted the queue to drain. -/
theorem WellFormed.close_close_false (hqueue : queue.WellFormed) :
    ((queue.close true).1.close false).1 = (queue.close false).1 ∧
      ((queue.close true).2 ++ ((queue.close true).1.close false).2).Perm
        (queue.close false).2 := by
  refine ⟨?_, queue.close_perm true⟩
  rw [(hqueue.close true).close_false_eq, hqueue.close_false_eq]
  simp [Queue.close]

/-- Whatever is done between the two calls, the second one leaves the queue as if it had been
the only one, apart from the takers that have come and gone. -/
theorem WellFormed.close_course_close_false (hqueue : queue.WellFormed) (hcounted : queue.Counted)
    (hnobody : queue.producers.everyone = [])
    (hcourse : Course (queue.close true).1 later between) :
    (between.close false).1 =
        { (queue.close false).1 with takers := (between.close false).1.takers } ∧
      ((queue.close true).2 ++ gathered leaving later ++ (between.close false).2).Perm
        (queue.close false).2 := by
  have hbegun := sealed_close hnobody true
  obtain ⟨hsealed, hbetween, hnextSeq, hperm⟩ := hbegun.course (hqueue.close true) hcourse
  constructor
  · have hcapacity : between.capacity? = queue.capacity? := hcourse.capacity_eq
    have hblocked : between.blockedProducers = queue.blockedProducers := by
      have hcount : (queue.close true).1.Counted :=
        hcounted.of_perm rfl (Parking.everyone_wakeAll _)
      rw [(hcourse.counted hcount).blocked_eq, hcounted.blocked_eq, hsealed.nobody, hnobody]
    have hproducers : between.producers = queue.producers := by
      have hnone : ∀ {parking : Parking Producer}, parking.everyone = [] → parking = {} := by
        rintro ⟨asleep, woken⟩ heveryone
        obtain ⟨rfl, rfl⟩ := List.append_eq_nil_iff.mp heveryone
        rfl
      rw [hnone hsealed.nobody, hnone hnobody]
    rw [hbetween.close_false_eq, hqueue.close_false_eq]
    simp [hcapacity, hblocked, hproducers, hnextSeq, Queue.close]
  · rw [close_false_removed, close_false_removed, List.append_assoc]
    have hrest := (List.perm_append_comm.trans hperm).append_left (queue.close true).2
    exact hrest.trans (queue.close_perm true)

namespace Usage

/-- What closing a queue does, and what it does not.

However a queue has been used: a call that wants it to drain hands back the periodic entries in
the order of their keys, and the one-shot ones stay under their keys, in the entries and in the
index; a call to close it for good hands back all entries in the order of their keys, and nothing
stays.  A queue drains once it is told to, unless it is closed already: no sequence of operations
moves the admission back, and a queue that is closed for good stays closed.  The two calls, one
after the other, leave the queue as the second one alone would have left it, and hand back the
same entries between them; and if no producer waited, this is so whatever is done in between,
apart from the takers, if the entries that have left in between are counted in. -/
theorem Run.closes {usage : Usage} (hrun : Run capacity past usage) :
    Parts usage.queue (usage.queue.close true).1 (usage.queue.close true).2
        (fun entry => entry.periodic) ∧
      Parts usage.queue (usage.queue.close false).1 (usage.queue.close false).2 (fun _ => true) ∧
      (usage.queue.close false).1.entries = [] ∧ (usage.queue.close false).1.index = [] ∧
      (usage.queue.admission ≠ .closed → (usage.queue.close true).1.admission = .draining) ∧
      (∀ operations : List Operation,
        usage.queue.admission.rank ≤ (operations.foldl apply usage.queue).admission.rank) ∧
      (∀ operations : List Operation,
        (operations.foldl apply (usage.queue.close false).1).admission = .closed) ∧
      ((usage.queue.close true).1.close false).1 = (usage.queue.close false).1 ∧
      ((usage.queue.close true).2 ++ ((usage.queue.close true).1.close false).2).Perm
        (usage.queue.close false).2 ∧
      (usage.queue.producers.everyone = [] →
        ∀ later between, Course (usage.queue.close true).1 later between →
          (between.close false).1 =
              { (usage.queue.close false).1 with takers := (between.close false).1.takers } ∧
            ((usage.queue.close true).2 ++ gathered leaving later ++ (between.close false).2).Perm
              (usage.queue.close false).2) := by
  have hqueue := hrun.wellFormed
  have hcounted := hrun.course.counted ⟨rfl, List.nodup_nil⟩
  have hnone := (hqueue.close false).index_eq_nil rfl
  obtain ⟨hsame, hperm⟩ := hqueue.close_close_false
  exact ⟨hqueue.parts_close fun entry => by simp [staysOn],
    hqueue.parts_close fun entry => by simp [staysOn], rfl, hnone, admission_close_true,
    usage.queue.rank_le_foldl, admission_foldl_of_closed usage.queue.admission_close_false,
    hsame, hperm, fun hnobody later between hcourse =>
      hqueue.close_course_close_false hcounted hnobody hcourse⟩

/-- Two periodic and two one-shot tasks are queued, in another order than that of their due
times.  The queue is to drain, one of the one-shot tasks leaves, and then the queue is closed for
good: the three lists are what the second call alone would have handed back. -/
theorem closes_with_a_task_taken_in_between :
    ∃ past usage later between, Run 0 past usage ∧ usage.queue.producers.everyone = [] ∧
      Course (usage.queue.close true).1 later between ∧
      (usage.queue.close true).2.map Entry.task = [2, 0] ∧
      (usage.queue.close true).1.tasks = [3, 1] ∧ between.tasks = [1] ∧
      (usage.queue.close false).2.map Entry.task = [3, 2, 1, 0] ∧
      (between.close false).1.index = [] ∧
      ((usage.queue.close true).2 ++ gathered leaving later ++ (between.close false).2).Perm
        (usage.queue.close false).2 := by
  have hfollow : (follow 0 [] ⟨new 0, fun task => if task = 0 then ⟨5⟩ else ⟨4 - task⟩⟩
      [.insert ⟨0, 0, true⟩ ⟨5⟩, .insert ⟨0, 1, false⟩ ⟨3⟩, .insert ⟨0, 2, true⟩ ⟨2⟩,
        .insert ⟨0, 3, false⟩ ⟨1⟩]).map (fun result =>
          (result.2.queue.producers.everyone.length,
            [(result.2.queue.close true).2.map Entry.task, (result.2.queue.close true).1.tasks,
              (result.2.queue.close false).2.map Entry.task],
            (Queue.follow 0 [] (result.2.queue.close true).1 [.take 0 ⟨1⟩]).map
              fun further => further.2.tasks)) =
      some (0, [[2, 0], [3, 1], [3, 2, 1, 0]], some [1]) := by
    decide +kernel
  obtain ⟨⟨past, usage⟩, hresult, hparts⟩ := Option.map_eq_some_iff.mp hfollow
  simp only [Prod.mk.injEq, List.cons.injEq] at hparts
  obtain ⟨hnobody, ⟨hremoved, hleft, hall, -⟩, hfurther⟩ := hparts
  obtain ⟨⟨later, between⟩, hlater, htasks⟩ := Option.map_eq_some_iff.mp hfurther
  have hrun := Run.of_follow (.start _) hresult
  have hcourse := Course.of_follow .start hlater
  obtain ⟨-, -, -, hindex, -, -, -, -, -, hmeanwhile⟩ := hrun.closes
  have hnone := List.eq_nil_of_length_eq_zero hnobody
  obtain ⟨hsame, hperm⟩ := hmeanwhile hnone later between hcourse
  exact ⟨past, usage, later, between, hrun, hnone, hcourse, hremoved, hleft, htasks, hall,
    (congrArg Queue.index hsame).trans hindex, hperm⟩

end Usage

end Queue

end TimedTasks
