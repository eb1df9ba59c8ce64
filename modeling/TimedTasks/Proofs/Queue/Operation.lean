import TimedTasks.Proofs.Queue.Entries

/-!
# Operations on a queue

`Queue.Operation` lists what the callers of a queue can do to it, and `Queue.apply` does
it.  `Queue.Allows caller` says what is asked of the callers: a producer waits at most once
and looks again only after it has been woken, and a taker does not look for an entry while
it is asleep; `caller` is the only taker that is considered.  What an allowed operation can
come to is listed in `Queue.Change`; everything that is said about a queue in the course of
time is said by cases on it.
-/

namespace TimedTasks

/-! ## Everyone who waits -/

namespace Parking

variable {β : Type}

/-- Everyone who waits, whether asleep or woken. -/
def everyone (parking : Parking β) : List β := parking.asleep ++ parking.woken

theorem everyone_park (parking : Parking β) (caller : β) :
    (parking.park caller).everyone.Perm (caller :: parking.everyone) := by
  simp only [park, everyone, List.append_assoc, List.singleton_append]
  exact List.perm_middle

theorem everyone_wakeOne (parking : Parking β) :
    parking.wakeOne.everyone.Perm parking.everyone := by
  unfold wakeOne everyone
  split
  · exact List.Perm.refl _
  · rename_i caller others hasleep
    rw [hasleep, ← List.append_assoc]
    exact List.perm_append_singleton caller (others ++ parking.woken)

theorem everyone_wakeAll (parking : Parking β) :
    parking.wakeAll.everyone.Perm parking.everyone := by
  simpa [wakeAll, everyone] using List.perm_append_comm

@[simp] theorem asleep_wakeOne (parking : Parking β) :
    parking.wakeOne.asleep = parking.asleep.tail := by
  unfold wakeOne
  split <;> simp [*]

theorem mem_woken_wakeOne {parking : Parking β} {caller : β} (hwoken : caller ∈ parking.woken) :
    caller ∈ parking.wakeOne.woken := by
  unfold wakeOne
  split
  · exact hwoken
  · exact List.mem_append_left _ hwoken

theorem everyone_rise_sublist (parking : Parking β) (p : β → Bool) :
    (parking.rise p).everyone.Sublist parking.everyone :=
  List.Sublist.append (List.Sublist.refl _) List.filter_sublist

/-- When nobody else answers to the description, exactly one caller rises. -/
theorem everyone_rise {parking : Parking β} {p : β → Bool} {caller : β}
    (hcaller : caller ∈ parking.woken) (hp : p caller = true)
    (hother : parking.everyone.Pairwise fun first second => ¬ (p first = true ∧ p second = true)) :
    parking.everyone.Perm (caller :: (parking.rise p).everyone) := by
  obtain ⟨earlier, later, hwoken⟩ := List.append_of_mem hcaller
  rw [everyone, List.pairwise_append, hwoken, List.pairwise_append, List.pairwise_cons] at hother
  obtain ⟨-, ⟨-, ⟨hlater, -⟩, hearlier⟩, -⟩ := hother
  have hkeepLater : later.filter (fun other => !p other) = later :=
    List.filter_eq_self.mpr fun other hmem => by simpa [hp] using hlater other hmem
  have hkeepEarlier : earlier.filter (fun other => !p other) = earlier :=
    List.filter_eq_self.mpr fun other hmem => by
      simpa [hp] using hearlier other hmem caller (List.mem_cons_self ..)
  have hrise : (parking.rise p).everyone = parking.asleep ++ (earlier ++ later) := by
    simp [rise, everyone, hwoken, hp, hkeepLater, hkeepEarlier]
  rw [hrise, everyone, hwoken, ← List.append_assoc, ← List.append_assoc]
  exact List.perm_middle

end Parking

namespace Queue

/-! ## What each operation does -/

theorem insert_of_not_accepting {queue : Queue} (hadmission : queue.admission ≠ .accepting)
    (producer : Producer) (due : Moment) :
    queue.insert producer due = (queue, .refused .closed) := by
  simp [insert, hadmission]

theorem insert_of_full {queue : Queue} (hadmission : queue.admission = .accepting)
    (hfull : queue.isFull = true) (producer : Producer) (due : Moment) :
    queue.insert producer due =
      ({ queue with
          blockedProducers := queue.blockedProducers + 1
          producers := queue.producers.park producer }, .parked) := by
  simp [insert, hadmission, hfull]

theorem insert_of_room {queue : Queue} (hadmission : queue.admission = .accepting)
    (hroom : queue.isFull = false) (producer : Producer) (due : Moment) :
    queue.insert producer due = (queue.push producer.task producer.periodic due, .accepted) := by
  simp [insert, hadmission, hroom]

/-- The queue in which a woken producer has begun to look again. -/
def risen (queue : Queue) (producer : Producer) : Queue :=
  { queue with producers := queue.producers.rise fun other => other.caller == producer.caller }

theorem resume_of_full {queue : Queue} (hfull : queue.isFull = true)
    (hadmission : queue.admission ≠ .closed) (producer : Producer) (due : Moment) :
    queue.resume producer due =
      ({ queue.risen producer with
          producers := (queue.risen producer).producers.park producer }, .parked) := by
  have hstays : (queue.risen producer).isFull = true ∧
      (queue.risen producer).admission ≠ .closed := ⟨hfull, hadmission⟩
  exact if_pos hstays

theorem resume_of_closed {queue : Queue} (hadmission : queue.admission = .closed)
    (producer : Producer) (due : Moment) :
    queue.resume producer due =
      ({ queue.risen producer with
          blockedProducers := queue.blockedProducers - 1
          takers := queue.takers.wakeOne }, .refused .closed) := by
  simp [resume, risen, isFull, hadmission]

theorem resume_of_room {queue : Queue} (hroom : queue.isFull = false)
    (hadmission : queue.admission ≠ .closed) (producer : Producer) (due : Moment) :
    queue.resume producer due =
      ({ queue.risen producer with
          blockedProducers := queue.blockedProducers - 1 }.push
        producer.task producer.periodic due, .accepted) := by
  have hfull : ¬ ((queue.risen producer).isFull = true ∧
      (queue.risen producer).admission ≠ .closed) := by
    rintro ⟨hfull, -⟩
    exact Bool.false_ne_true (hroom.symm.trans hfull)
  exact (if_neg hfull).trans (if_neg hadmission)

theorem tryInsert_eq_ok {queue after : Queue} {task : TaskId} {periodic : Bool} {due : Moment}
    (hok : queue.tryInsert task periodic due = .ok after) :
    queue.admission = .accepting ∧ queue.isFull = false ∧
      after = queue.push task periodic due := by
  unfold tryInsert at hok
  split at hok
  · simp at hok
  · rename_i hadmission
    refine ⟨Decidable.not_not.mp hadmission, ?_⟩
    split at hok
    · rename_i capacity hcapacity
      split at hok
      · simp at hok
      · rename_i hroom
        refine ⟨by simpa [isFull, hcapacity] using hroom, ?_⟩
        exact (Except.ok.inj hok).symm
    · rename_i hcapacity
      exact ⟨by simp [isFull, hcapacity], (Except.ok.inj hok).symm⟩

theorem requeue_eq_some {queue after : Queue} {task : TaskId} {periodic cancelled : Bool}
    {due : Moment} (hsome : queue.requeue task periodic cancelled due = some after) :
    queue.admission = .accepting ∧ cancelled = false ∧
      after = queue.push task periodic due := by
  unfold requeue at hsome
  split at hsome
  · simp at hsome
  · rename_i hnot
    rw [not_or, Decidable.not_not, Bool.not_eq_true] at hnot
    exact ⟨hnot.1, hnot.2, (Option.some.inj hsome).symm⟩

/-- The queue in which its taker has begun to look again. -/
def alert (queue : Queue) (caller : Nat) : Queue :=
  { queue with takers := queue.takers.rise fun other => other.caller == caller }

theorem asksTime_iff {queue : Queue} :
    queue.asksTime = true ↔ queue.admission ≠ .closed ∧ queue.entries ≠ [] := by
  simp [asksTime]

theorem take_of_closed {queue : Queue} (hadmission : queue.admission = .closed)
    (caller : Nat) (now : Moment) :
    queue.take caller now = (queue.alert caller, .finished) := by
  simp [take, alert, hadmission]

theorem take_of_over {queue : Queue} (hentries : queue.entries = [])
    (hadmission : queue.admission = .draining) (hblocked : queue.blockedProducers = 0)
    (caller : Nat) (now : Moment) :
    queue.take caller now = (queue.alert caller, .finished) := by
  simp [take, alert, hadmission, hentries, hblocked]

theorem take_of_empty {queue : Queue} (hentries : queue.entries = [])
    (hadmission : queue.admission ≠ .closed)
    (hmore : queue.admission = .draining → queue.blockedProducers ≠ 0)
    (caller : Nat) (now : Moment) :
    queue.take caller now =
      ({ queue with takers := (queue.alert caller).takers.park ⟨caller, none⟩ }, .parked) := by
  have hnot : ¬ (queue.admission = .draining ∧ queue.blockedProducers = 0) :=
    fun h => hmore h.1 h.2
  simp [take, alert, hadmission, hentries, hnot]

theorem take_of_due {queue : Queue} {first : Entry} {rest : List Entry}
    (hentries : queue.entries = first :: rest) (hadmission : queue.admission ≠ .closed)
    (caller : Nat) {now : Moment} (hdue : first.key.due ≤ now) :
    queue.take caller now =
      ({ queue.alert caller with
          entries := rest
          index := dropIndex queue.index first.task
          producers := queue.producers.wakeOne }, .task first.task) := by
  simp [take, alert, hadmission, hentries, hdue]

theorem take_of_early {queue : Queue} {first : Entry} {rest : List Entry}
    (hentries : queue.entries = first :: rest) (hadmission : queue.admission ≠ .closed)
    (caller : Nat) {now : Moment} (hearly : ¬ first.key.due ≤ now) :
    queue.take caller now =
      ({ queue with
          takers := (queue.alert caller).takers.park ⟨caller, some first.key.due⟩ }, .parked) := by
  simp [take, alert, hadmission, hentries, hearly]

theorem remove_eq_some {queue after : Queue} {task : TaskId}
    (hsome : queue.remove task = some after) :
    ∃ key, queue.index.lookup task = some key ∧
      after = { queue with
        entries := queue.entries.filter fun entry => entry.key != key
        index := dropIndex queue.index task
        producers := queue.producers.wakeOne } := by
  unfold remove at hsome
  split at hsome
  · simp at hsome
  · rename_i key hkey
    exact ⟨key, hkey, (Option.some.inj hsome).symm⟩

theorem remove_rest (queue : Queue) (task : TaskId) :
    ((queue.remove task).getD queue).producers.everyone.Perm queue.producers.everyone ∧
      ((queue.remove task).getD queue).entries.Sublist queue.entries := by
  cases hremove : queue.remove task with
  | none => exact ⟨List.Perm.refl _, List.Sublist.refl _⟩
  | some after =>
      obtain ⟨key, -, rfl⟩ := remove_eq_some hremove
      exact ⟨Parking.everyone_wakeOne _, List.filter_sublist⟩

/-! ## Operations and what is asked for -/

/-- What the callers of a queue do to it. -/
inductive Operation where
  | insert (producer : Producer) (due : Moment)
  | resume (producer : Producer) (due : Moment)
  | tryInsert (task : TaskId) (periodic : Bool) (due : Moment)
  | requeue (task : TaskId) (periodic cancelled : Bool) (due : Moment)
  | take (caller : Nat) (now : Moment)
  | remove (task : TaskId)
  | close (drain : Bool)
  | wake
  | expire (caller : Nat)

/-- The queue after an operation. -/
def apply (queue : Queue) : Operation → Queue
  | .insert producer due => (queue.insert producer due).1
  | .resume producer due => (queue.resume producer due).1
  | .tryInsert task periodic due => (queue.tryInsert task periodic due).toOption.getD queue
  | .requeue task periodic cancelled due =>
      (queue.requeue task periodic cancelled due).getD queue
  | .take caller now => (queue.take caller now).1
  | .remove task => (queue.remove task).getD queue
  | .close drain => (queue.close drain).1
  | .wake => queue.wake
  | .expire caller => queue.expire caller

/-- Whether an operation may be asked for, if `caller` is the taker. -/
def Allows (caller : Nat) (queue : Queue) : Operation → Prop
  | .insert producer _ => ∀ other ∈ queue.producers.everyone, other.caller ≠ producer.caller
  | .resume producer _ => producer ∈ queue.producers.woken
  | .take taker _ => taker = caller ∧ queue.isAsleep caller = false
  | .tryInsert _ _ _ | .requeue _ _ _ _ | .remove _ | .close _ | .wake | .expire _ => True

instance (caller : Nat) (queue : Queue) :
    (operation : Operation) → Decidable (Allows caller queue operation)
  | .insert producer _ =>
      inferInstanceAs (Decidable (∀ other ∈ queue.producers.everyone,
        other.caller ≠ producer.caller))
  | .resume producer _ => inferInstanceAs (Decidable (producer ∈ queue.producers.woken))
  | .take taker _ => inferInstanceAs (Decidable (taker = caller ∧ queue.isAsleep caller = false))
  | .tryInsert .. | .requeue .. | .remove _ | .close _ | .wake | .expire _ => .isTrue trivial

theorem takers_remove (queue : Queue) (task : TaskId) :
    (queue.apply (.remove task)).takers = queue.takers := by
  show ((queue.remove task).getD queue).takers = queue.takers
  unfold remove
  split <;> rfl

theorem admission_remove (queue : Queue) (task : TaskId) :
    (queue.apply (.remove task)).admission = queue.admission := by
  show ((queue.remove task).getD queue).admission = queue.admission
  unfold remove
  split <;> rfl

theorem asleep_push {queue : Queue} (hasleep : queue.takers.asleep = []) (task : TaskId)
    (periodic : Bool) (due : Moment) : (queue.push task periodic due).takers.asleep = [] := by
  simp only [push]
  split
  · rw [Parking.asleep_wakeOne, hasleep, List.tail_nil]
  · exact hasleep

/-- What an allowed operation can come to, one case for each way in which it can change
the queue. -/
inductive Change (caller : Nat) (queue : Queue) : Operation → Queue → Prop
  | unchanged (operation : Operation) : Change caller queue operation queue
  /-- A producer falls asleep. -/
  | parked {producer : Producer} {due : Moment} (hadmission : queue.admission = .accepting)
      (hfull : queue.isFull = true)
      (hcaller : ∀ other ∈ queue.producers.everyone, other.caller ≠ producer.caller) :
      Change caller queue (.insert producer due)
        { queue with
          blockedProducers := queue.blockedProducers + 1
          producers := queue.producers.park producer }
  /-- A new entry is let in. -/
  | pushed {operation : Operation} {task : TaskId} {periodic : Bool} {due : Moment}
      (hadmission : queue.admission = .accepting) :
      Change caller queue operation (queue.push task periodic due)
  | parkedAgain {producer : Producer} {due : Moment} (hwoken : producer ∈ queue.producers.woken)
      (hfull : queue.isFull = true) (hadmission : queue.admission ≠ .closed) :
      Change caller queue (.resume producer due)
        { queue.risen producer with
          producers := (queue.risen producer).producers.park producer }
  | refused {producer : Producer} {due : Moment} (hwoken : producer ∈ queue.producers.woken)
      (hadmission : queue.admission = .closed) :
      Change caller queue (.resume producer due)
        { queue.risen producer with
          blockedProducers := queue.blockedProducers - 1
          takers := queue.takers.wakeOne }
  | resumed {producer : Producer} {due : Moment} (hwoken : producer ∈ queue.producers.woken)
      (hadmission : queue.admission ≠ .closed) (hroom : queue.isFull = false) :
      Change caller queue (.resume producer due)
        ({ queue.risen producer with
            blockedProducers := queue.blockedProducers - 1 }.push
          producer.task producer.periodic due)
  /-- The taker leaves for good. -/
  | finished {now : Moment} (hawake : queue.isAsleep caller = false)
      (hadmission : queue.admission = .closed ∨
        queue.admission = .draining ∧ queue.entries = [] ∧ queue.blockedProducers = 0) :
      Change caller queue (.take caller now) (queue.alert caller)
  /-- The taker falls asleep. -/
  | slept {now : Moment} {timer? : Option Moment} (hawake : queue.isAsleep caller = false)
      (hadmission : queue.admission ≠ .closed)
      (htimer : timer? = queue.entries.head?.map fun first => first.key.due)
      (hmore : queue.entries = [] → queue.admission = .draining → queue.blockedProducers ≠ 0)
      (hearly : ∀ first ∈ queue.entries.head?, now < first.key.due) :
      Change caller queue (.take caller now)
        { queue with takers := (queue.alert caller).takers.park ⟨caller, timer?⟩ }
  /-- The first entry is taken. -/
  | taken {now : Moment} {first : Entry} {rest : List Entry}
      (hawake : queue.isAsleep caller = false) (hadmission : queue.admission ≠ .closed)
      (hentries : queue.entries = first :: rest) (hdue : first.key.due ≤ now) :
      Change caller queue (.take caller now)
        { queue.alert caller with
          entries := rest
          index := dropIndex queue.index first.task
          producers := queue.producers.wakeOne }
  | removed {task : TaskId} {key : Key} (hkey : queue.index.lookup task = some key) :
      Change caller queue (.remove task)
        { queue with
          entries := queue.entries.filter fun entry => entry.key != key
          index := dropIndex queue.index task
          producers := queue.producers.wakeOne }
  | closed (drain : Bool) : Change caller queue (.close drain) (queue.close drain).1
  | woken : Change caller queue .wake queue.wake
  | expired (taker : Nat) : Change caller queue (.expire taker) (queue.expire taker)

theorem lt_of_early {queue : Queue} {first other : Entry} {rest : List Entry} {now : Moment}
    (hentries : queue.entries = first :: rest) (hearly : ¬ first.key.due ≤ now)
    (hother : other ∈ queue.entries.head?) : now < other.key.due := by
  rw [hentries, List.head?_cons, Option.mem_some_iff] at hother
  exact Nat.lt_of_not_le (hother ▸ hearly)

/-- An allowed operation changes the queue in one of the ways of `Change`. -/
theorem change_apply {caller : Nat} {queue : Queue} {operation : Operation}
    (hallows : Allows caller queue operation) :
    Change caller queue operation (queue.apply operation) := by
  cases operation with
  | insert producer due =>
      by_cases hadmission : queue.admission = .accepting
      · cases hfull : queue.isFull with
        | true =>
            simp only [apply, insert_of_full hadmission hfull]
            exact .parked hadmission hfull hallows
        | false =>
            simp only [apply, insert_of_room hadmission hfull]
            exact .pushed hadmission
      · simp only [apply, insert_of_not_accepting hadmission]
        exact .unchanged _
  | resume producer due =>
      by_cases hadmission : queue.admission = .closed
      · simp only [apply, resume_of_closed hadmission]
        exact .refused hallows hadmission
      · cases hfull : queue.isFull with
        | true =>
            simp only [apply, resume_of_full hfull hadmission]
            exact .parkedAgain hallows hfull hadmission
        | false =>
            simp only [apply, resume_of_room hfull hadmission]
            exact .resumed hallows hadmission hfull
  | tryInsert task periodic due =>
      cases hresult : queue.tryInsert task periodic due with
      | error error =>
          simp only [apply, hresult]
          exact .unchanged _
      | ok after =>
          obtain ⟨hadmission, -, rfl⟩ := tryInsert_eq_ok hresult
          simp only [apply, hresult]
          exact .pushed hadmission
  | requeue task periodic cancelled due =>
      cases hresult : queue.requeue task periodic cancelled due with
      | none =>
          simp only [apply, hresult]
          exact .unchanged _
      | some after =>
          obtain ⟨hadmission, -, rfl⟩ := requeue_eq_some hresult
          simp only [apply, hresult]
          exact .pushed hadmission
  | take taker now =>
      obtain ⟨rfl, hawake⟩ := hallows
      by_cases hclosed : queue.admission = .closed
      · simp only [apply, take_of_closed hclosed]
        exact .finished hawake (Or.inl hclosed)
      · cases hentries : queue.entries with
        | nil =>
            -- An empty queue is over if it drains and no producer is on its way in.
            by_cases hover : queue.admission = .draining ∧ queue.blockedProducers = 0
            · simp only [apply, take_of_over hentries hover.1 hover.2]
              exact .finished hawake (Or.inr ⟨hover.1, hentries, hover.2⟩)
            · have hmore : queue.admission = .draining → queue.blockedProducers ≠ 0 :=
                fun hdraining hblocked => hover ⟨hdraining, hblocked⟩
              simp only [apply, take_of_empty hentries hclosed hmore]
              exact .slept hawake hclosed (by simp [hentries]) (fun _ => hmore)
                (by simp [hentries])
        | cons first rest =>
            by_cases hdue : first.key.due ≤ now
            · simp only [apply, take_of_due hentries hclosed taker hdue]
              exact .taken hawake hclosed hentries hdue
            · simp only [apply, take_of_early hentries hclosed taker hdue]
              exact .slept hawake hclosed (by simp [hentries]) (by simp [hentries])
                fun _ hfirst => lt_of_early hentries hdue hfirst
  | remove task =>
      cases hresult : queue.remove task with
      | none =>
          simp only [apply, hresult]
          exact .unchanged _
      | some after =>
          obtain ⟨key, hkey, rfl⟩ := remove_eq_some hresult
          simp only [apply, hresult]
          exact .removed hkey
  | close drain => exact .closed drain
  | wake => exact .woken
  | expire taker => exact .expired taker

end Queue

end TimedTasks
