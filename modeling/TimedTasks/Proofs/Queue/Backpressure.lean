import TimedTasks.Proofs.Queue.Invariant

/-!
# Backpressure

A producer falls asleep only in front of a full queue, and from then on it depends on
others to be told of room.  This file follows a bounded queue through all that its callers
may do to it (`Course`) and shows that none of them is forgotten.

The obstacle is that being told of room is not the same as getting it.  A producer that has
been woken still has to look again; another one may be let in before it does, and a task
that returns to the queue is taken back even when there is no room, so that the producer
may look in vain and fall asleep behind the others.  What survives all of this is a count
(`Served`): as long as anyone sleeps, the entries and the woken producers together fill the
queue.  An entry that leaves lowers the one and raises the other.

The same count read the other way bounds how many producers get in (`letsIn`): no more than
have been summoned (`summons`), and no more than there have been places (`vacates`).
-/

namespace TimedTasks

namespace Parking

variable {β : Type} {parking : Parking β}

theorem length_woken_wakeOne (hasleep : parking.asleep ≠ []) :
    parking.wakeOne.woken.length = parking.woken.length + 1 := by
  obtain ⟨caller, others, heq⟩ := List.exists_cons_of_ne_nil hasleep
  simp [wakeOne, heq]

theorem length_woken_wakeOne_le (parking : Parking β) :
    parking.wakeOne.woken.length ≤ parking.woken.length + 1 := by
  by_cases hasleep : parking.asleep = []
  · simp [wakeOne, hasleep]
  · exact Nat.le_of_eq (length_woken_wakeOne hasleep)

theorem asleep_ne_nil_of_wakeOne (hasleep : parking.wakeOne.asleep ≠ []) :
    parking.asleep ≠ [] := by
  intro hnil
  rw [asleep_wakeOne, hnil] at hasleep
  exact hasleep rfl

end Parking

namespace Queue

variable {caller : Nat} {origin queue after : Queue} {operation : Operation} {capacity : Nat}
variable {past later : List (Queue × Operation)}

/-! ## Courses of operations -/

/-- The operations that have led from one queue to another, the newest first, each with the
queue that it was done to.  Any number of takers and producers take turns. -/
inductive Course (origin : Queue) : List (Queue × Operation) → Queue → Prop
  | start : Course origin [] origin
  | step {past : List (Queue × Operation)} {queue : Queue} {operation : Operation} {caller : Nat}
      (hcourse : Course origin past queue) (hallows : Allows caller queue operation) :
      Course origin ((queue, operation) :: past) (queue.apply operation)

/-- What every change keeps, a course keeps. -/
theorem Course.keeps {p : Queue → Prop} (hcourse : Course origin past queue) (horigin : p origin)
    (hchange : ∀ caller queue operation after, p queue →
      Change caller queue operation after → p after) : p queue := by
  induction hcourse with
  | start => exact horigin
  | step _ hallows ih => exact hchange _ _ _ _ ih (change_apply hallows)

theorem Course.counted (hcourse : Course origin past queue) (horigin : origin.Counted) :
    queue.Counted :=
  hcourse.keeps horigin fun _ _ _ _ hqueue hchange => hchange.counted hqueue

theorem Course.capacity_eq (hcourse : Course origin past queue) :
    queue.capacity? = origin.capacity? :=
  hcourse.keeps (p := fun queue => queue.capacity? = origin.capacity?) rfl
    fun _ _ _ _ hqueue hchange => hchange.capacity_eq.trans hqueue

/-- Do the operations of a list one after the other, if all of them are allowed. -/
def follow (caller : Nat) (past : List (Queue × Operation)) (queue : Queue) :
    List Operation → Option (List (Queue × Operation) × Queue)
  | [] => some (past, queue)
  | operation :: rest =>
    if Allows caller queue operation then
      follow caller ((queue, operation) :: past) (queue.apply operation) rest
    else none

theorem Course.of_follow {operations : List Operation} {result : List (Queue × Operation) × Queue}
    (hcourse : Course origin past queue)
    (hfollow : follow caller past queue operations = some result) :
    Course origin result.1 result.2 := by
  induction operations generalizing past queue with
  | nil =>
      obtain rfl := Option.some.inj hfollow
      exact hcourse
  | cons operation rest ih =>
      unfold follow at hfollow
      split at hfollow
      · rename_i hallows
        exact ih (.step hcourse hallows) hfollow
      · simp at hfollow

/-! ## Entries and places -/

theorem isFull_iff (hcapacity : queue.capacity? = some capacity) :
    queue.isFull = true ↔ capacity ≤ queue.size := by
  simp [isFull, hcapacity, size]

@[simp] theorem size_push (queue : Queue) (task : TaskId) (periodic : Bool) (due : Moment) :
    (queue.push task periodic due).size = queue.size + 1 :=
  (insertEntry_perm ⟨⟨due, queue.nextSeq⟩, task, periodic⟩ queue.entries).length_eq

/-- No two entries have the same key, so that at most one leaves when a key is dropped. -/
theorem Ordered.length_le_filter_key (hqueue : queue.Ordered) (key : Key) :
    queue.entries.length ≤ (queue.entries.filter fun entry => entry.key != key).length + 1 := by
  have hne : ∀ {first second : Entry}, first.key < second.key → first.key ≠ second.key := by
    intro first second hlt heq
    rw [heq, Key.lt_def, Moment.lt_def] at hlt
    omega
  have hnodup : (queue.entries.map Entry.key).Nodup :=
    List.pairwise_map.mpr (hqueue.sorted.imp hne)
  have hcount := List.nodup_iff_count_le_one.mp hnodup key
  have hsplit := queue.entries.length_eq_countP_add_countP fun entry => entry.key == key
  have hothers : (queue.entries.filter fun entry => entry.key != key).length =
      queue.entries.countP fun entry => !(entry.key == key) :=
    List.countP_eq_length_filter.symm
  rw [List.count, List.countP_map] at hcount
  simp only [Function.comp_def, Bool.not_eq_true, Bool.decide_eq_false] at hcount hsplit
  omega

theorem Counted.length_woken_risen (hqueue : queue.Counted) {producer : Producer}
    (hwoken : producer ∈ queue.producers.woken) :
    (queue.risen producer).producers.woken.length + 1 = queue.producers.woken.length := by
  have hlength := (hqueue.everyone_risen hwoken).length_eq
  have hasleep : (queue.risen producer).producers.asleep = queue.producers.asleep := rfl
  simp only [Parking.everyone, List.length_cons, List.length_append, hasleep] at hlength
  omega

/-! ## Nobody is forgotten -/

/-- Everyone who sleeps is kept out by entries and by producers that may look again, and
nobody sleeps in front of a queue that is closed for good. -/
structure Served (capacity : Nat) (queue : Queue) : Prop where
  bounded : queue.capacity? = some capacity
  filled : queue.producers.asleep ≠ [] → capacity ≤ queue.size + queue.producers.woken.length
  freed : queue.admission = .closed → queue.producers.asleep = []

theorem Change.served (hchange : Change caller queue operation after) (hordered : queue.Ordered)
    (hcounted : queue.Counted) (hqueue : queue.Served capacity) : after.Served capacity := by
  obtain ⟨hbounded, hfilled, hfreed⟩ := hqueue
  cases hchange with
  | unchanged | finished | slept | woken | expired => exact ⟨hbounded, hfilled, hfreed⟩
  | parked hadmission hfull =>
      refine ⟨hbounded, fun _ => ?_, fun hclosed => ?_⟩
      · exact Nat.le_trans ((isFull_iff hbounded).mp hfull) (Nat.le_add_right _ _)
      · exact absurd (hadmission.symm.trans hclosed) (by decide)
  | pushed =>
      refine ⟨hbounded, fun hasleep => ?_, hfreed⟩
      have hbefore := hfilled hasleep
      rw [size_push]
      show capacity ≤ queue.size + 1 + queue.producers.woken.length
      omega
  | parkedAgain _ hfull hadmission =>
      refine ⟨hbounded, fun _ => ?_, fun hclosed => absurd hclosed hadmission⟩
      exact Nat.le_trans ((isFull_iff hbounded).mp hfull) (Nat.le_add_right _ _)
  | refused _ hadmission =>
      exact ⟨hbounded, fun hasleep => absurd (hfreed hadmission) hasleep, hfreed⟩
  | resumed hwoken hadmission =>
      -- One woken producer fewer, and one entry more.
      refine ⟨hbounded, fun hasleep => ?_, fun hclosed => absurd hclosed hadmission⟩
      have hbefore := hfilled hasleep
      have hrisen := hcounted.length_woken_risen hwoken
      rw [size_push]
      show capacity ≤ queue.size + 1 + (queue.risen _).producers.woken.length
      omega
  | @taken _ first rest _ hadmission hentries =>
      refine ⟨hbounded, fun hasleep => ?_, fun hclosed => absurd hclosed hadmission⟩
      have hbefore := Parking.asleep_ne_nil_of_wakeOne hasleep
      have hcount := hfilled hbefore
      have hwoken := Parking.length_woken_wakeOne hbefore
      rw [size, hentries, List.length_cons] at hcount
      show capacity ≤ rest.length + queue.producers.wakeOne.woken.length
      omega
  | @removed task key =>
      refine ⟨hbounded, fun hasleep => ?_, fun hclosed => ?_⟩
      · have hbefore := Parking.asleep_ne_nil_of_wakeOne hasleep
        have hcount := hfilled hbefore
        have hwoken := Parking.length_woken_wakeOne hbefore
        have hone := hordered.length_le_filter_key key
        rw [size] at hcount
        show capacity ≤ (queue.entries.filter fun entry => entry.key != key).length +
          queue.producers.wakeOne.woken.length
        omega
      · exact (Parking.asleep_wakeOne _).trans (congrArg List.tail (hfreed hclosed))
  | closed => exact ⟨hbounded, fun hasleep => absurd rfl hasleep, fun _ => rfl⟩

theorem served_new (hcapacity : capacity ≠ 0) : (new capacity).Served capacity where
  bounded := if_neg hcapacity
  filled := fun hasleep => absurd rfl hasleep
  freed := fun _ => rfl

theorem Course.served (hcapacity : capacity ≠ 0) (hcourse : Course (new capacity) past queue) :
    queue.Counted ∧ queue.Served capacity := by
  have hnew := sound_new 0 capacity
  suffices hall : queue.Ordered ∧ queue.Counted ∧ queue.Served capacity from hall.2
  refine hcourse.keeps (p := fun queue => queue.Ordered ∧ queue.Counted ∧ queue.Served capacity)
    ⟨hnew.wellFormed.ordered, hnew.counted, served_new hcapacity⟩ ?_
  rintro caller queue operation after ⟨hordered, hcounted, hserved⟩ hchange
  exact ⟨hchange.ordered hordered, hchange.counted hcounted,
    hchange.served hordered hcounted hserved⟩

/-! ## Who gets in -/

/-- How many producers an operation can tell to look again: one for an entry that is taken or
removed, and all that sleep when the queue is closed. -/
def summons (queue : Queue) : Operation → Nat
  | .take caller now =>
      match (queue.take caller now).2 with
      | .task _ => 1
      | .finished | .parked => 0
  | .remove task => if (queue.remove task).isSome then 1 else 0
  | .close _ => queue.producers.asleep.length
  | _ => 0

/-- How many producers that waited are let in by an operation. -/
def letsIn (queue : Queue) : Operation → Nat
  | .resume producer due => if (queue.resume producer due).2 = .accepted then 1 else 0
  | _ => 0

/-- How many places become free by an operation. -/
def vacates (queue : Queue) (operation : Operation) : Nat :=
  queue.size - (queue.apply operation).size

/-- What the operations of a course add up to. -/
def total (count : Queue → Operation → Nat) : List (Queue × Operation) → Nat
  | [] => 0
  | (queue, operation) :: past => count queue operation + total count past

@[simp] theorem total_nil (count : Queue → Operation → Nat) : total count [] = 0 := rfl

@[simp] theorem total_cons (count : Queue → Operation → Nat) (queue : Queue)
    (operation : Operation) (past : List (Queue × Operation)) :
    total count ((queue, operation) :: past) = count queue operation + total count past :=
  rfl

/-- Nobody is woken who has not been summoned. -/
theorem Change.length_woken_le (hchange : Change caller queue operation after) :
    after.producers.woken.length ≤ queue.producers.woken.length + queue.summons operation := by
  cases hchange with
  | unchanged | parked | pushed | finished | slept | woken | expired => exact Nat.le_add_right _ _
  | parkedAgain | refused | resumed =>
      exact Nat.le_trans (List.length_filter_le _ _) (Nat.le_add_right _ _)
  | @taken now first rest _ hadmission hentries hdue =>
      have hone : queue.summons (.take caller now) = 1 := by
        simp only [summons, take_of_due hentries hadmission caller hdue]
      rw [hone]
      exact Parking.length_woken_wakeOne_le _
  | @removed task key hkey =>
      have hone : queue.summons (.remove task) = 1 := by
        simp [summons, remove, hkey]
      rw [hone]
      exact Parking.length_woken_wakeOne_le _
  | closed =>
      show (queue.producers.woken ++ queue.producers.asleep).length ≤ _
      exact Nat.le_of_eq List.length_append

/-- A producer that is let in had been woken, and finds a place. -/
theorem resume_accepted {producer : Producer} {due : Moment}
    (haccepted : (queue.resume producer due).2 = .accepted) :
    queue.isFull = false ∧
      (queue.resume producer due).1.producers = (queue.risen producer).producers ∧
      (queue.resume producer due).1.size = queue.size + 1 := by
  by_cases hadmission : queue.admission = .closed
  · rw [resume_of_closed hadmission] at haccepted
    exact absurd haccepted (by simp)
  · cases hfull : queue.isFull with
    | true =>
        rw [resume_of_full hfull hadmission] at haccepted
        exact absurd haccepted (by simp)
    | false =>
        rw [resume_of_room hfull hadmission]
        exact ⟨rfl, rfl, size_push _ _ _ _⟩

theorem letsIn_le (hallows : Allows caller queue operation) (hcounted : queue.Counted)
    (hbounded : queue.capacity? = some capacity) :
    queue.letsIn operation + (queue.apply operation).producers.woken.length ≤
        queue.producers.woken.length + queue.summons operation ∧
      queue.letsIn operation + (capacity - (queue.apply operation).size) ≤
        (capacity - queue.size) + queue.vacates operation := by
  have hwoken := (change_apply hallows).length_woken_le
  by_cases hnone : queue.letsIn operation = 0
  · rw [hnone, vacates]
    omega
  · -- Only a producer that looks again is let in.
    cases operation with
    | resume producer due =>
        have haccepted : (queue.resume producer due).2 = .accepted := by
          by_contra hnot
          exact hnone (if_neg hnot)
        obtain ⟨hroom, hproducers, hsize⟩ := resume_accepted haccepted
        have hone : queue.letsIn (.resume producer due) = 1 := if_pos haccepted
        have hrisen := hcounted.length_woken_risen hallows
        have hplace : ¬ capacity ≤ queue.size := fun hle =>
          Bool.false_ne_true (hroom.symm.trans ((isFull_iff hbounded).mpr hle))
        have hafter : queue.apply (.resume producer due) = (queue.resume producer due).1 := rfl
        rw [hone, hafter, hproducers, hsize]
        constructor <;> omega
    | _ => exact absurd rfl hnone

theorem Course.letsIn_le (hcourse : Course queue later after) (hcounted : queue.Counted)
    (hbounded : queue.capacity? = some capacity) :
    total letsIn later + after.producers.woken.length ≤
        queue.producers.woken.length + total summons later ∧
      total letsIn later + (capacity - after.size) ≤
        (capacity - queue.size) + total vacates later := by
  induction hcourse with
  | start => simp
  | @step later middle operation caller hcourse hallows ih =>
      have hstep := Queue.letsIn_le hallows (hcourse.counted hcounted)
        (hcourse.capacity_eq.trans hbounded)
      rw [total_cons, total_cons, total_cons]
      omega

/-- No producer is forgotten, and none gets in on the strength of another's place.

Whatever has happened to a bounded queue, if it is not closed for good and a producer sleeps,
then its entries and the producers that have been woken and have not looked again fill it;
and nobody sleeps in front of a queue that is closed for good.  So when everyone who has been
woken has looked again, a producer sleeps only because the queue is full.  From there on, each
entry that is taken or removed lets in one producer at most. -/
theorem Course.none_forgotten (hcapacity : capacity ≠ 0)
    (hcourse : Course (new capacity) past queue) :
    (queue.admission ≠ .closed → queue.producers.asleep ≠ [] →
        capacity ≤ queue.size + queue.producers.woken.length) ∧
      (queue.admission = .closed → queue.producers.asleep = []) ∧
      (queue.producers.woken = [] → queue.producers.asleep ≠ [] →
        queue.isFull = true ∧ queue.admission ≠ .closed) ∧
      ∀ later after, Course queue later after →
        total letsIn later ≤ queue.producers.woken.length + total summons later ∧
          total letsIn later ≤ (capacity - queue.size) + total vacates later := by
  obtain ⟨hcounted, hbounded, hfilled, hfreed⟩ := hcourse.served hcapacity
  refine ⟨fun _ => hfilled, hfreed, fun hwoken hasleep => ⟨?_, ?_⟩, fun later after hlater => ?_⟩
  · have hcount := hfilled hasleep
    rw [hwoken, List.length_nil, Nat.add_zero] at hcount
    exact (isFull_iff hbounded).mpr hcount
  · exact fun hclosed => hasleep (hfreed hclosed)
  · have hcounts := hlater.letsIn_le hcounted hbounded
    omega

/-- Two producers sleep in front of a queue with one place.  A task that returns to the queue
overfills it, so the first of them is woken in vain by the entry that leaves and falls asleep
behind the other.  The next entry that leaves lets in one of the two. -/
theorem none_forgotten_when_overfull :
    ∃ past queue later after, Course (new 1) past queue ∧ Course queue later after ∧
      queue.producers.woken = [] ∧
      queue.producers.asleep = [⟨2, 2, false⟩, ⟨1, 1, false⟩] ∧
      queue.isFull = true ∧ queue.admission ≠ .closed ∧
      total letsIn later = 1 ∧ total letsIn later ≤ queue.producers.woken.length + 1 := by
  have hfirst : (follow 0 [] (new 1)
      [.insert ⟨0, 0, false⟩ .origin, .insert ⟨1, 1, false⟩ .origin,
        .insert ⟨2, 2, false⟩ .origin, .requeue 3 true false .origin, .take 0 .origin,
        .resume ⟨1, 1, false⟩ .origin]).map (fun result =>
          (result.2.producers,
            (follow 0 [] result.2 [.take 0 .origin, .resume ⟨2, 2, false⟩ .origin]).map
              fun further => (total letsIn further.1, total summons further.1))) =
      some (⟨[⟨2, 2, false⟩, ⟨1, 1, false⟩], []⟩, some (1, 1)) := by
    decide +kernel
  obtain ⟨⟨past, queue⟩, hfollow, hparts⟩ := Option.map_eq_some_iff.mp hfirst
  simp only [Prod.mk.injEq] at hparts
  obtain ⟨hproducers, hfurther⟩ := hparts
  obtain ⟨⟨later, after⟩, hlater, hcounts⟩ := Option.map_eq_some_iff.mp hfurther
  simp only [Prod.mk.injEq] at hcounts
  obtain ⟨hone, hsummons⟩ := hcounts
  have hcourse := Course.of_follow .start hfollow
  have hfurther := Course.of_follow .start hlater
  obtain ⟨-, -, hstill, hbounds⟩ := hcourse.none_forgotten (by decide : 1 ≠ 0)
  have hwoken : queue.producers.woken = [] := congrArg Parking.woken hproducers
  have hasleep := congrArg Parking.asleep hproducers
  obtain ⟨hfull, hopen⟩ := hstill hwoken (by rw [hasleep]; exact List.cons_ne_nil _ _)
  refine ⟨past, queue, later, after, hcourse, hfurther, hwoken, hasleep, hfull, hopen, hone, ?_⟩
  exact hsummons ▸ (hbounds later after hfurther).1

end Queue

end TimedTasks
