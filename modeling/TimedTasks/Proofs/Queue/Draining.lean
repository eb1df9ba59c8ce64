import TimedTasks.Proofs.Queue.Invariant

/-!
# A queue that drains

Three questions about a queue that has begun to close.

* Is it over?  `Queue.IsOver` is when a taker is told that nothing will come any more; once
  over, a queue stays over (`Change.isOver`).
* Who can still get in?  Only the producers that waited when it began to drain
  (`Change.sealedBut`), which matters for the periodic entries: all others are swept out.
* Will the taker notice that it is over?  A taker that sleeps on a drained queue is
  stranded.  Of all operations only the removal of the last entry strands one
  (`Change.strands_of_isStranded`), because a removal wakes producers but no taker.
-/

namespace TimedTasks

namespace Queue

/-! ## The end of a queue -/

/-- Draining, with nothing left and nobody on the way in. -/
def IsDrained (queue : Queue) : Prop :=
  queue.admission = .draining ∧ queue.entries = [] ∧ queue.blockedProducers = 0

instance (queue : Queue) : Decidable queue.IsDrained := inferInstanceAs (Decidable (_ ∧ _ ∧ _))

/-- Nothing will ever leave through `take` again. -/
def IsOver (queue : Queue) : Prop := queue.admission = .closed ∨ queue.IsDrained

theorem Counted.blocked_pos {queue : Queue} (hqueue : queue.Counted) {producer : Producer}
    (hwoken : producer ∈ queue.producers.woken) : 0 < queue.blockedProducers := by
  rw [hqueue.blocked_eq]
  exact List.length_pos_of_mem (List.mem_append_right _ hwoken)

theorem Change.isOver {caller : Nat} {queue after : Queue} {operation : Operation}
    (hchange : Change caller queue operation after) (hqueue : queue.Counted)
    (hover : queue.IsOver) : after.IsOver := by
  cases hchange with
  | unchanged | finished | slept | woken | expired => exact hover
  | parked hadmission | pushed hadmission =>
      rcases hover with hclosed | ⟨hdraining, -⟩
      · exact absurd (hadmission.symm.trans hclosed) (by decide)
      · exact absurd (hadmission.symm.trans hdraining) (by decide)
  | parkedAgain hwoken _ hadmission | resumed hwoken hadmission =>
      rcases hover with hclosed | ⟨-, -, hblocked⟩
      · exact absurd hclosed hadmission
      · exact absurd hblocked (Nat.ne_of_gt (hqueue.blocked_pos hwoken))
  | refused _ hadmission => exact Or.inl hadmission
  | taken _ hadmission hentries =>
      rcases hover with hclosed | ⟨-, hempty, -⟩
      · exact absurd hclosed hadmission
      · exact absurd (hentries.symm.trans hempty) (List.cons_ne_nil _ _)
  | removed =>
      rcases hover with hclosed | ⟨hdraining, hempty, hblocked⟩
      · exact Or.inl hclosed
      · refine Or.inr ⟨hdraining, ?_, hblocked⟩
        show queue.entries.filter _ = []
        rw [hempty, List.filter_nil]
  | closed drain =>
      rcases hover with hclosed | ⟨hdraining, hempty, hblocked⟩
      · exact Or.inl (if_pos hclosed)
      · have hnot : queue.admission ≠ .closed := by rw [hdraining]; decide
        cases drain with
        | false => exact Or.inl (if_neg hnot)
        | true =>
            refine Or.inr ⟨if_neg hnot, ?_, hblocked⟩
            rw [close_entries, hempty, List.filter_nil]

theorem Change.closed_of_closed {caller : Nat} {queue after : Queue} {operation : Operation}
    (hchange : Change caller queue operation after) (hclosed : queue.admission = .closed) :
    after.admission = .closed := by
  cases hchange with
  | closed => exact if_pos hclosed
  | _ => exact hclosed

/-- A queue is closed for good only by a call that does not let it drain. -/
theorem Change.eq_close_of_closed {caller : Nat} {queue after : Queue} {operation : Operation}
    (hchange : Change caller queue operation after) (hopen : queue.admission ≠ .closed)
    (hclosed : after.admission = .closed) : operation = .close false := by
  cases hchange with
  | closed drain =>
      cases drain with
      | false => rfl
      | true =>
          simp only [close, if_neg hopen] at hclosed
          exact absurd hclosed (by decide)
  | _ => exact absurd hclosed hopen

theorem Change.eq_close_of_not_accepting {caller : Nat} {queue after : Queue}
    {operation : Operation} (hchange : Change caller queue operation after)
    (haccepting : queue.admission = .accepting) (hnot : after.admission ≠ .accepting) :
    ∃ drain, operation = .close drain := by
  cases hchange with
  | closed drain => exact ⟨drain, rfl⟩
  | _ => exact absurd haccepting hnot

/-! ## Who can still get in -/

/-- Only the producers of `waiting` can still get in, and no other periodic task has. -/
structure SealedBut (waiting : List TaskId) (queue : Queue) : Prop where
  not_accepting : queue.admission ≠ .accepting
  producer_mem : ∀ producer ∈ queue.producers.everyone, producer.task ∈ waiting
  periodic_mem : ∀ entry ∈ queue.entries, entry.periodic = true → entry.task ∈ waiting

/-- Beginning to drain leaves out everyone but the producers that wait. -/
theorem sealedBut_close (queue : Queue) (drain : Bool) :
    SealedBut (queue.producers.everyone.map Producer.task) (queue.close drain).1 where
  not_accepting := by
    simp only [close]
    split
    · decide
    · cases drain <;> decide
  producer_mem := by
    intro producer hproducer
    exact List.mem_map_of_mem ((Parking.everyone_wakeAll queue.producers).mem_iff.mp hproducer)
  periodic_mem := by
    intro entry hentry hperiodic
    rw [close_entries] at hentry
    have hstays := (List.mem_filter.mp hentry).2
    simp [staysOn, hperiodic] at hstays

theorem Change.sealedBut {caller : Nat} {queue after : Queue} {operation : Operation}
    (hchange : Change caller queue operation after) {waiting : List TaskId}
    (hsealed : SealedBut waiting queue) : SealedBut waiting after := by
  obtain ⟨hnot, hproducer, hperiodic⟩ := hsealed
  cases hchange with
  | unchanged | finished | slept | woken | expired => exact ⟨hnot, hproducer, hperiodic⟩
  | parked hadmission | pushed hadmission => exact absurd hadmission hnot
  | @parkedAgain producer _ hwoken =>
      refine ⟨hnot, fun other hother => ?_, hperiodic⟩
      rcases List.mem_cons.mp ((Parking.everyone_park _ _).mem_iff.mp hother) with rfl | hother
      · exact hproducer _ (List.mem_append_right _ hwoken)
      · exact hproducer other ((Parking.everyone_rise_sublist _ _).subset hother)
  | refused =>
      refine ⟨hnot, fun other hother => ?_, hperiodic⟩
      exact hproducer other ((Parking.everyone_rise_sublist _ _).subset hother)
  | @resumed producer _ hwoken =>
      refine ⟨hnot, fun other hother => ?_, fun entry hentry hflag => ?_⟩
      · exact hproducer other ((Parking.everyone_rise_sublist _ _).subset hother)
      · rcases mem_entries_push.mp hentry with rfl | hentry
        · exact hproducer _ (List.mem_append_right _ hwoken)
        · exact hperiodic entry hentry hflag
  | taken _ _ hentries =>
      refine ⟨hnot, fun other hother => ?_, fun entry hentry => ?_⟩
      · exact hproducer other ((Parking.everyone_wakeOne _).mem_iff.mp hother)
      · exact hperiodic entry (hentries ▸ List.mem_cons_of_mem _ hentry)
  | removed =>
      refine ⟨hnot, fun other hother => ?_, fun entry hentry => ?_⟩
      · exact hproducer other ((Parking.everyone_wakeOne _).mem_iff.mp hother)
      · exact hperiodic entry (List.mem_of_mem_filter hentry)
  | closed drain =>
      refine ⟨(sealedBut_close queue drain).not_accepting, fun other hother => ?_,
        fun entry hentry => ?_⟩
      · exact hproducer other ((Parking.everyone_wakeAll _).mem_iff.mp hother)
      · rw [close_entries] at hentry
        exact hperiodic entry (List.mem_of_mem_filter hentry)

/-- The tasks of the producers that wait, and those that are queued. -/
def inbound (queue : Queue) : List TaskId :=
  queue.producers.everyone.map Producer.task ++ queue.tasks

theorem inbound_perm_of_take {queue after : Queue} {first : Entry} {rest : List Entry}
    (hentries : queue.entries = first :: rest) (hrest : after.entries = rest)
    (hproducers : after.producers = queue.producers.wakeOne) :
    (first.task :: after.inbound).Perm queue.inbound := by
  have hperm := (Parking.everyone_wakeOne queue.producers).map Producer.task
  rw [inbound, inbound, tasks, tasks, hproducers, hrest, hentries]
  exact List.perm_middle.symm.trans (hperm.append_right _)

/-- A queue that does not accept any more is given no task that it did not have. -/
theorem Change.inbound_subperm {caller : Nat} {queue after : Queue} {operation : Operation}
    (hchange : Change caller queue operation after) (hqueue : queue.Counted)
    (hnot : queue.admission ≠ .accepting) : after.inbound.Subperm queue.inbound := by
  cases hchange with
  | unchanged | finished | slept | woken | expired => exact List.Subperm.refl _
  | parked hadmission | pushed hadmission => exact absurd hadmission hnot
  | @parkedAgain producer due hwoken =>
      have hperm := (Parking.everyone_park (queue.risen producer).producers producer).trans
        (hqueue.everyone_risen hwoken).symm
      exact ((hperm.map _).append_right _).subperm
  | @refused producer =>
      have hsub := Parking.everyone_rise_sublist queue.producers (·.caller == producer.caller)
      exact ((hsub.map _).append_right _).subperm
  | @resumed producer due hwoken =>
      -- The task only changes sides.
      have hperm := (hqueue.everyone_risen hwoken).map Producer.task
      have hpush := tasks_push { queue.risen producer with
        blockedProducers := queue.blockedProducers - 1 } producer.task producer.periodic due
      exact ((hpush.append_left _).trans
        (List.perm_middle.trans (hperm.append_right queue.tasks).symm)).subperm
  | @taken _ first rest _ _ hentries =>
      refine (List.sublist_cons_self first.task _).subperm.trans (List.Perm.subperm ?_)
      exact inbound_perm_of_take hentries rfl rfl
  | removed =>
      have hperm := (Parking.everyone_wakeOne queue.producers).map Producer.task
      exact (hperm.append_right _).subperm.trans
        ((List.filter_sublist.map Entry.task).append_left _).subperm
  | closed drain =>
      have hperm := (Parking.everyone_wakeAll queue.producers).map Producer.task
      have hsub : (queue.close drain).1.tasks.Sublist queue.tasks := by
        rw [tasks, close_entries]
        exact List.filter_sublist.map Entry.task
      exact (hperm.append_right _).subperm.trans (hsub.append_left _).subperm

/-! ## Stranded takers -/

/-- The taker sleeps although nothing will ever come. -/
def IsStranded (caller : Nat) (queue : Queue) : Prop :=
  queue.IsDrained ∧ queue.isAsleep caller = true

/-- Removing the task leaves a sleeping taker with nothing to wait for. -/
structure Strands (caller : Nat) (queue : Queue) (task : TaskId) : Prop where
  draining : queue.admission = .draining
  unblocked : queue.blockedProducers = 0
  tasks_eq : queue.tasks = [task]
  asleep : queue.isAsleep caller = true

/-- Whether an operation tells takers to look again, whatever has been queued. -/
def Operation.Rouses : Operation → Prop
  | .close _ | .wake | .expire _ => True
  | _ => False

theorem isAsleep_eq_false_of_asleep_eq_nil {queue : Queue} (hasleep : queue.takers.asleep = [])
    (caller : Nat) : queue.isAsleep caller = false := by
  rw [isAsleep, hasleep, List.any_nil]

theorem WellFormed.tasks_eq_singleton {queue : Queue} (hqueue : queue.WellFormed) {task : TaskId}
    {key : Key} (hkey : queue.index.lookup task = some key)
    (hempty : (queue.entries.filter fun entry => entry.key != key) = []) :
    queue.tasks = [task] := by
  obtain ⟨entry, hentry, htask, -⟩ := (hqueue.lookup_iff task key).mp hkey
  rw [hqueue.filter_key_eq hkey, List.filter_eq_nil_iff] at hempty
  have hall : ∀ other ∈ queue.tasks, other = task := by
    intro other hother
    obtain ⟨found, hfound, rfl⟩ := List.mem_map.mp hother
    simpa using hempty found hfound
  have hmem : task ∈ queue.tasks := htask ▸ List.mem_map_of_mem hentry
  obtain ⟨first, rest, htasks⟩ := List.exists_cons_of_ne_nil (List.ne_nil_of_mem hmem)
  have hnodup := hqueue.tasks_nodup
  rw [htasks, List.nodup_cons] at hnodup
  have hfirst : first = task := hall first (htasks ▸ List.mem_cons_self ..)
  have hrest : rest = [] := List.eq_nil_iff_forall_not_mem.mpr fun other hother => by
    have hsame : other = task := hall other (htasks ▸ List.mem_cons_of_mem _ hother)
    exact hnodup.1 (hfirst.trans hsame.symm ▸ hother)
  rw [htasks, hfirst, hrest]

/-- Only the removal of the last entry strands a taker. -/
theorem Change.strands_of_isStranded {caller : Nat} {queue after : Queue} {operation : Operation}
    (hchange : Change caller queue operation after) (hqueue : Sound caller queue)
    (hbefore : ¬ queue.IsStranded caller) (hafter : after.IsStranded caller) :
    ∃ task, operation = .remove task ∧ Strands caller queue task := by
  obtain ⟨⟨hdraining, hempty, hblocked⟩, hasleep⟩ := hafter
  cases hchange with
  | unchanged => exact absurd ⟨⟨hdraining, hempty, hblocked⟩, hasleep⟩ hbefore
  | parked => exact absurd hblocked (Nat.succ_ne_zero _)
  | pushed hadmission | refused _ hadmission =>
      exact absurd (hadmission.symm.trans hdraining) (by decide)
  | parkedAgain hwoken =>
      exact absurd hblocked (Nat.ne_of_gt (hqueue.counted.blocked_pos hwoken))
  | @resumed producer due =>
      -- The count may have come down to nothing, but there is an entry now.
      have hmem : (⟨⟨due, queue.nextSeq⟩, producer.task, producer.periodic⟩ : Entry) ∈
          ({ queue.risen producer with blockedProducers := queue.blockedProducers - 1 }.push
            producer.task producer.periodic due).entries := mem_entries_push.mpr (Or.inl rfl)
      rw [hempty] at hmem
      exact absurd hmem List.not_mem_nil
  | finished hawake | taken hawake => exact absurd (hawake.symm.trans hasleep) Bool.false_ne_true
  | slept _ _ _ hmore =>
      -- A taker that finds the queue drained does not fall asleep.
      exact absurd hblocked (hmore hempty hdraining)
  | @removed task key hkey =>
      exact ⟨task, rfl, hdraining, hblocked, hqueue.wellFormed.tasks_eq_singleton hkey hempty,
        hasleep⟩
  | closed | woken =>
      exact absurd ((isAsleep_eq_false_of_asleep_eq_nil rfl caller).symm.trans hasleep)
        Bool.false_ne_true
  | expired taker =>
      refine absurd ⟨⟨hdraining, hempty, hblocked⟩, ?_⟩ hbefore
      obtain ⟨other, hother, hcaller⟩ := List.any_eq_true.mp hasleep
      exact List.any_eq_true.mpr ⟨other, List.mem_of_mem_filter hother, hcaller⟩

/-- A removal that strands a taker does so for certain. -/
theorem Strands.isStranded_apply {caller : Nat} {queue : Queue} {task : TaskId}
    (hstrands : Strands caller queue task) (hqueue : queue.WellFormed) :
    (queue.apply (.remove task)).IsStranded caller := by
  have hmem : task ∈ queue.tasks := hstrands.tasks_eq ▸ List.mem_singleton_self task
  obtain ⟨entry, hentry, htask⟩ := List.mem_map.mp hmem
  have hkey : queue.index.lookup task = some entry.key :=
    (hqueue.lookup_iff task entry.key).mpr ⟨entry, hentry, htask, rfl⟩
  have hempty : (queue.entries.filter fun other => other.key != entry.key) = [] := by
    rw [hqueue.filter_key_eq hkey, List.filter_eq_nil_iff]
    intro other hother
    have hsame : other.task ∈ queue.tasks := List.mem_map_of_mem hother
    rw [hstrands.tasks_eq, List.mem_singleton] at hsame
    simp [hsame]
  simp only [apply, remove, hkey, Option.getD_some]
  exact ⟨⟨hstrands.draining, hempty, hstrands.unblocked⟩, hstrands.asleep⟩

/-- A stranded taker sleeps on until it is told to look again. -/
theorem Change.isStranded {caller : Nat} {queue after : Queue} {operation : Operation}
    (hchange : Change caller queue operation after) (hqueue : queue.Counted)
    (hstranded : queue.IsStranded caller) (hquiet : ¬ operation.Rouses) :
    after.IsStranded caller := by
  obtain ⟨⟨hdraining, hempty, hblocked⟩, hasleep⟩ := hstranded
  cases hchange with
  | unchanged => exact ⟨⟨hdraining, hempty, hblocked⟩, hasleep⟩
  | parked hadmission | pushed hadmission | refused _ hadmission =>
      exact absurd (hadmission.symm.trans hdraining) (by decide)
  | parkedAgain hwoken | resumed hwoken =>
      exact absurd hblocked (Nat.ne_of_gt (hqueue.blocked_pos hwoken))
  | finished hawake | slept hawake | taken hawake =>
      exact absurd (hawake.symm.trans hasleep) Bool.false_ne_true
  | removed =>
      refine ⟨⟨hdraining, ?_, hblocked⟩, hasleep⟩
      show queue.entries.filter _ = []
      rw [hempty, List.filter_nil]
  | closed | woken | expired => exact absurd trivial hquiet

theorem asleep_expire {caller : Nat} {queue : Queue} (hqueue : SingleTaker caller queue)
    (htimer : ∀ taker ∈ queue.takers.asleep, taker.timer? ≠ none) :
    (queue.expire caller).takers.asleep = [] := by
  refine List.filter_eq_nil_iff.mpr fun taker htaker => ?_
  have hcaller := hqueue.caller_eq taker (List.mem_append_left _ htaker)
  have htimed := Option.isSome_iff_ne_none.mpr (htimer taker htaker)
  simp [hcaller, htimed]

/-- A taker that sleeps on a drained queue has set its timer: it fell asleep before. -/
theorem asleep_expire_of_isDrained {caller : Nat} {queue : Queue} (hqueue : Sound caller queue)
    (hdrained : queue.IsDrained) : (queue.expire caller).takers.asleep = [] := by
  obtain ⟨hdraining, -, hblocked⟩ := hdrained
  refine asleep_expire hqueue.singleTaker fun taker htaker htimer => ?_
  obtain ⟨-, hsleep⟩ := hqueue.watchful taker htaker
  rw [htimer] at hsleep
  exact absurd hblocked (Nat.ne_of_gt (hsleep.2 hdraining))

theorem asleep_expire_of_entries {caller : Nat} {queue : Queue} (hqueue : Sound caller queue)
    (hentries : queue.entries ≠ []) : (queue.expire caller).takers.asleep = [] := by
  refine asleep_expire hqueue.singleTaker fun taker htaker htimer => ?_
  obtain ⟨-, hsleep⟩ := hqueue.watchful taker htaker
  rw [htimer] at hsleep
  exact hentries hsleep.1

end Queue

end TimedTasks
