import TimedTasks.Proofs.Queue.Operation

/-!
# What every operation on a queue keeps

`Queue.Sound caller` collects what holds of a queue whose only taker is `caller`, whatever
happens to it: entries and index fit together, the producers that wait are counted, the
taker waits at most once, and a taker that sleeps has a good reason to.

The last of these is `Watchful`.  A taker that sleeps without a timer left an empty queue
behind, and unless the queue accepts, some producer had yet to come; one that sleeps with
a timer is not needed before that timer runs out.  Every operation that could spoil this
wakes the taker.
-/

namespace TimedTasks

namespace Queue

/-! ## The invariant -/

/-- What a taker that sleeps until `timer?` may rely on. -/
def MaySleep (queue : Queue) : Option Moment → Prop
  | none => queue.entries = [] ∧ (queue.admission = .draining → 0 < queue.blockedProducers)
  | some due => ∀ entry ∈ queue.entries, due ≤ entry.key.due

/-- Nothing that is queued comes before the timer. -/
def NothingBefore (queue : Queue) : Option Moment → Prop
  | none => queue.entries = []
  | some due => ∀ entry ∈ queue.entries, due ≤ entry.key.due

theorem MaySleep.nothingBefore {queue : Queue} {timer? : Option Moment}
    (hsleep : queue.MaySleep timer?) : queue.NothingBefore timer? := by
  cases timer? with
  | none => exact hsleep.1
  | some due => exact hsleep

/-- Nobody sleeps without a good reason. -/
def Watchful (queue : Queue) : Prop :=
  ∀ taker ∈ queue.takers.asleep, queue.admission ≠ .closed ∧ queue.MaySleep taker.timer?

/-- The producers that wait are counted, and each waits once. -/
structure Counted (queue : Queue) : Prop where
  blocked_eq : queue.blockedProducers = queue.producers.everyone.length
  callers_nodup : (queue.producers.everyone.map Producer.caller).Nodup

/-- At most one taker waits, and it is `caller`. -/
structure SingleTaker (caller : Nat) (queue : Queue) : Prop where
  length_le : queue.takers.everyone.length ≤ 1
  caller_eq : ∀ taker ∈ queue.takers.everyone, taker.caller = caller

/-- What holds of a queue whose only taker is `caller`. -/
structure Sound (caller : Nat) (queue : Queue) : Prop where
  wellFormed : queue.WellFormed
  counted : queue.Counted
  singleTaker : SingleTaker caller queue
  watchful : queue.Watchful
  closed_empty : queue.admission = .closed → queue.entries = []
  capacity_pos : ∀ capacity, queue.capacity? = some capacity → 0 < capacity

theorem Sound.isFull_eq_false {caller : Nat} {queue : Queue} (hqueue : Sound caller queue)
    (hentries : queue.entries = []) : queue.isFull = false := by
  unfold isFull
  split
  · rfl
  · rename_i capacity hcapacity
    have hpos := hqueue.capacity_pos capacity hcapacity
    rw [hentries, List.length_nil]
    simpa using Nat.ne_of_gt hpos

theorem Counted.find?_woken {queue : Queue} (hqueue : queue.Counted) {producer : Producer}
    (hwoken : producer ∈ queue.producers.woken) :
    (queue.producers.woken.find? fun other => other.caller == producer.caller) =
      some producer := by
  cases hfind : queue.producers.woken.find? fun other => other.caller == producer.caller with
  | none => simpa using List.find?_eq_none.mp hfind producer hwoken
  | some other =>
      have hother := List.mem_append_right queue.producers.asleep (List.mem_of_find?_eq_some hfind)
      have hcaller : other.caller = producer.caller := by simpa using List.find?_some hfind
      rw [List.inj_on_of_nodup_map hqueue.callers_nodup hother
        (List.mem_append_right _ hwoken) hcaller]

theorem sound_new (caller capacity : Nat) : Sound caller (new capacity) where
  wellFormed := wellFormed_new capacity
  counted := ⟨rfl, List.nodup_nil⟩
  singleTaker := ⟨Nat.zero_le 1, fun _ htaker => absurd htaker List.not_mem_nil⟩
  watchful := fun _ htaker => absurd htaker List.not_mem_nil
  closed_empty := fun _ => rfl
  capacity_pos := by
    intro bound hbound
    simp only [new] at hbound
    split at hbound
    · simp at hbound
    · simp at hbound; omega

/-! ## The parts, one by one -/

/-- Removing by key is removing by task. -/
theorem WellFormed.filter_key_eq {queue : Queue} (hqueue : queue.WellFormed) {task : TaskId}
    {key : Key} (hkey : queue.index.lookup task = some key) :
    (queue.entries.filter fun entry => entry.key != key) =
      queue.entries.filter fun entry => entry.task != task := by
  obtain ⟨owner, howner, rfl, rfl⟩ := (hqueue.lookup_iff task key).mp hkey
  refine List.filter_congr fun entry hentry => ?_
  rw [Bool.eq_iff_iff, bne_iff_ne, bne_iff_ne]
  constructor
  · exact fun hne heq => hne (congrArg Entry.key (hqueue.eq_of_task_eq hentry howner heq))
  · exact fun hne heq => hne (congrArg Entry.task (hqueue.eq_of_key_eq hentry howner heq))

/-- Taking the first entry is removing its task. -/
theorem WellFormed.tail_eq_filter {queue : Queue} (hqueue : queue.WellFormed) {first : Entry}
    {rest : List Entry} (hentries : queue.entries = first :: rest) :
    rest = queue.entries.filter fun entry => entry.task != first.task := by
  have hnodup := hqueue.tasks_nodup
  rw [tasks, hentries, List.map_cons, List.nodup_cons] at hnodup
  rw [hentries, List.filter_cons_of_neg (by simp)]
  refine (List.filter_eq_self.mpr fun entry hentry => ?_).symm
  have hne : entry.task ≠ first.task := fun heq => hnodup.1 (heq ▸ List.mem_map_of_mem hentry)
  simpa using hne

theorem WellFormed.lookup_eq_none {queue : Queue} (hqueue : queue.WellFormed) {task : TaskId}
    (htask : task ∉ queue.tasks) : queue.index.lookup task = none := by
  rw [Option.eq_none_iff_forall_ne_some]
  intro key hkey
  obtain ⟨entry, hentry, rfl, -⟩ := (hqueue.lookup_iff task key).mp hkey
  exact htask (List.mem_map_of_mem hentry)

/-- One task may leave, if the index forgets it. -/
theorem WellFormed.without {queue after : Queue} (hqueue : queue.WellFormed) (task : TaskId)
    (hentries : after.entries = queue.entries.filter fun entry => entry.task != task)
    (hnextSeq : after.nextSeq = queue.nextSeq)
    (hindex : after.index = dropIndex queue.index task) : after.WellFormed := by
  refine hqueue.filter _ hentries hnextSeq fun other => ?_
  have hmem : other ∈ after.tasks ↔ other ∈ queue.tasks ∧ other ≠ task := by
    simp only [tasks, hentries, List.mem_map, List.mem_filter, bne_iff_ne, ne_eq]
    constructor
    · rintro ⟨entry, ⟨hentry, hne⟩, rfl⟩
      exact ⟨⟨entry, hentry, rfl⟩, hne⟩
    · rintro ⟨⟨entry, hentry, rfl⟩, hne⟩
      exact ⟨entry, ⟨hentry, hne⟩, rfl⟩
  rw [hindex, lookup_dropIndex]
  by_cases hother : other = task
  · rw [if_pos hother, if_neg fun hin => (hmem.mp hin).2 hother]
  · rw [if_neg hother]
    split
    · rfl
    · rename_i hnot
      exact hqueue.lookup_eq_none fun hqueued => hnot (hmem.mpr ⟨hqueued, hother⟩)

/-- Whether an entry stays in a closing queue. -/
def staysOn (drain : Bool) (entry : Entry) : Bool := drain && !entry.periodic

theorem close_entries (queue : Queue) (drain : Bool) :
    (queue.close drain).1.entries = queue.entries.filter (staysOn drain) := by
  cases drain with
  | false => simp [Queue.close, staysOn]
  | true => rfl

theorem close_removed (queue : Queue) (drain : Bool) :
    (queue.close drain).2 = queue.entries.filter fun entry => !staysOn drain entry := by
  cases drain <;> simp [Queue.close, staysOn]

theorem close_index (queue : Queue) (drain : Bool) :
    (queue.close drain).1.index =
      (queue.close drain).2.foldl (fun index entry => dropIndex index entry.task) queue.index :=
  rfl

theorem WellFormed.tasks_remove {queue : Queue} (hqueue : queue.WellFormed) (task : TaskId) :
    (queue.apply (.remove task)).tasks = queue.tasks.filter fun other => other != task := by
  cases hlookup : queue.index.lookup task with
  | none =>
      have hsame : queue.apply (.remove task) = queue := by simp [apply, remove, hlookup]
      rw [hsame, List.filter_eq_self.mpr]
      intro other hother
      refine bne_iff_ne.mpr fun heq => ?_
      obtain ⟨entry, hentry, rfl⟩ := List.mem_map.mp (heq ▸ hother : task ∈ queue.tasks)
      have hkey := (hqueue.lookup_iff entry.task entry.key).mpr ⟨entry, hentry, rfl, rfl⟩
      exact absurd (hlookup.symm.trans hkey) (by simp)
  | some key =>
      have hentries : (queue.apply (.remove task)).entries =
          queue.entries.filter fun entry => entry.task != task := by
        rw [← hqueue.filter_key_eq hlookup]
        simp [apply, remove, hlookup]
      rw [tasks, hentries, tasks, List.filter_map]
      rfl

theorem WellFormed.not_mem_tasks_remove {queue : Queue} (hqueue : queue.WellFormed)
    (task : TaskId) : task ∉ (queue.apply (.remove task)).tasks := by
  rw [hqueue.tasks_remove]
  simp

/-- Closing sweeps entries out, and the index forgets all of them. -/
theorem WellFormed.close {queue : Queue} (hqueue : queue.WellFormed) (drain : Bool) :
    (queue.close drain).1.WellFormed := by
  refine hqueue.filter (staysOn drain) (queue.close_entries drain) rfl fun task => ?_
  -- The index drops what is handed back, and `filter` asks for what stays.
  rw [close_index, lookup_foldl_dropIndex, close_removed]
  by_cases hqueued : task ∈ queue.tasks
  · obtain ⟨entry, hentry, rfl⟩ := List.mem_map.mp hqueued
    have hmem : ∀ p : Entry → Bool,
        entry.task ∈ (queue.entries.filter p).map Entry.task ↔ p entry = true := by
      intro p
      simp only [List.mem_map, List.mem_filter]
      constructor
      · rintro ⟨other, ⟨hother, hp⟩, htask⟩
        exact hqueue.eq_of_task_eq hother hentry htask ▸ hp
      · exact fun hp => ⟨entry, ⟨hentry, hp⟩, rfl⟩
    rw [tasks, close_entries]
    simp only [hmem]
    cases staysOn drain entry <;> rfl
  · simp [hqueue.lookup_eq_none hqueued]

theorem not_mem_of_nodup_push {queue : Queue} {task : TaskId} {periodic : Bool} {due : Moment}
    (hnodup : (queue.push task periodic due).tasks.Nodup) : task ∉ queue.tasks :=
  (List.nodup_cons.mp ((queue.tasks_push task periodic due).nodup_iff.mp hnodup)).1

theorem Change.ordered {caller : Nat} {queue after : Queue} {operation : Operation}
    (hchange : Change caller queue operation after) (hqueue : queue.Ordered) :
    after.Ordered := by
  cases hchange with
  | unchanged => exact hqueue
  | parked | parkedAgain | refused | finished | slept | woken | expired =>
      exact hqueue.of_sublist (List.Sublist.refl _) rfl
  | pushed => exact hqueue.push _ _ _
  | @resumed producer =>
      have hrisen : Queue.Ordered
          { queue.risen producer with blockedProducers := queue.blockedProducers - 1 } :=
        hqueue.of_sublist (List.Sublist.refl _) rfl
      exact hrisen.push _ _ _
  | taken _ _ hentries => exact hqueue.of_sublist (hentries ▸ List.sublist_cons_self _ _) rfl
  | removed => exact hqueue.of_sublist List.filter_sublist rfl
  | closed drain => exact hqueue.of_sublist (queue.close_entries drain ▸ List.filter_sublist) rfl

/-- Entries and index go on fitting together, as long as no task is queued twice. -/
theorem Change.wellFormed {caller : Nat} {queue after : Queue} {operation : Operation}
    (hchange : Change caller queue operation after) (hqueue : queue.WellFormed)
    (hnodup : after.tasks.Nodup) : after.WellFormed := by
  cases hchange with
  | unchanged => exact hqueue
  | parked | parkedAgain | refused | finished | slept | woken | expired =>
      exact ⟨hqueue.sorted, hqueue.seq_lt, hqueue.seq_nodup, hqueue.tasks_nodup,
      hqueue.lookup_iff⟩
  | pushed => exact hqueue.push (not_mem_of_nodup_push hnodup) _ _
  | @resumed producer =>
      have hrisen : Queue.WellFormed
          { queue.risen producer with blockedProducers := queue.blockedProducers - 1 } :=
        ⟨hqueue.sorted, hqueue.seq_lt, hqueue.seq_nodup, hqueue.tasks_nodup, hqueue.lookup_iff⟩
      exact hrisen.push (not_mem_of_nodup_push hnodup) _ _
  | @taken _ first _ _ _ hentries =>
      exact hqueue.without first.task (hqueue.tail_eq_filter hentries) rfl rfl
  | @removed task _ hkey => exact hqueue.without task (hqueue.filter_key_eq hkey) rfl rfl
  | closed drain => exact hqueue.close drain

/-! ### Waiting producers -/

theorem Counted.of_perm {queue after : Queue} (hqueue : queue.Counted)
    (hblocked : after.blockedProducers = queue.blockedProducers)
    (hperm : after.producers.everyone.Perm queue.producers.everyone) : after.Counted where
  blocked_eq := by rw [hblocked, hqueue.blocked_eq, hperm.length_eq]
  callers_nodup := ((hperm.map _).nodup_iff).mpr hqueue.callers_nodup

theorem Counted.everyone_risen {queue : Queue} (hqueue : queue.Counted) {producer : Producer}
    (hwoken : producer ∈ queue.producers.woken) :
    queue.producers.everyone.Perm (producer :: (queue.risen producer).producers.everyone) := by
  refine Parking.everyone_rise hwoken (beq_self_eq_true _) ?_
  refine (List.pairwise_map.mp hqueue.callers_nodup).imp ?_
  rintro first second hne ⟨hfirst, hsecond⟩
  exact hne ((beq_iff_eq.mp hfirst).trans (beq_iff_eq.mp hsecond).symm)

theorem Counted.released {queue after : Queue} (hqueue : queue.Counted) {producer : Producer}
    (hwoken : producer ∈ queue.producers.woken)
    (hblocked : after.blockedProducers = queue.blockedProducers - 1)
    (hproducers : after.producers = (queue.risen producer).producers) : after.Counted := by
  have hperm := hqueue.everyone_risen hwoken
  have hnodup := ((hperm.map Producer.caller).nodup_iff).mp hqueue.callers_nodup
  constructor
  · rw [hblocked, hproducers, hqueue.blocked_eq, hperm.length_eq, List.length_cons,
      Nat.add_sub_cancel]
  · rw [hproducers]
    exact (List.nodup_cons.mp hnodup).2

theorem Change.counted {caller : Nat} {queue after : Queue} {operation : Operation}
    (hchange : Change caller queue operation after) (hqueue : queue.Counted) :
    after.Counted := by
  cases hchange with
  | unchanged => exact hqueue
  | @parked producer _ _ _ hcaller =>
      have hperm := queue.producers.everyone_park producer
      constructor
      · show queue.blockedProducers + 1 = (queue.producers.park producer).everyone.length
        rw [hperm.length_eq, hqueue.blocked_eq, List.length_cons]
      · refine ((hperm.map Producer.caller).nodup_iff).mpr (List.nodup_cons.mpr ⟨?_, ?_⟩)
        · intro hmem
          obtain ⟨other, hother, heq⟩ := List.mem_map.mp hmem
          exact hcaller other hother heq
        · exact hqueue.callers_nodup
  | pushed | finished | slept | woken | expired => exact ⟨hqueue.blocked_eq, hqueue.callers_nodup⟩
  | parkedAgain hwoken =>
      refine hqueue.of_perm rfl ?_
      exact (Parking.everyone_park _ _).trans (hqueue.everyone_risen hwoken).symm
  | refused hwoken | resumed hwoken => exact hqueue.released hwoken rfl rfl
  | taken | removed => exact hqueue.of_perm rfl (Parking.everyone_wakeOne _)
  | closed drain => exact hqueue.of_perm rfl (Parking.everyone_wakeAll _)

/-! ### The taker -/

namespace SingleTaker

variable {caller : Nat} {queue after : Queue}

theorem of_perm (hqueue : SingleTaker caller queue)
    (hperm : after.takers.everyone.Perm queue.takers.everyone) : SingleTaker caller after where
  length_le := hperm.length_eq ▸ hqueue.length_le
  caller_eq := fun taker htaker => hqueue.caller_eq taker (hperm.mem_iff.mp htaker)

theorem of_sublist (hqueue : SingleTaker caller queue)
    (hsub : after.takers.everyone.Sublist queue.takers.everyone) : SingleTaker caller after where
  length_le := Nat.le_trans hsub.length_le hqueue.length_le
  caller_eq := fun taker htaker => hqueue.caller_eq taker (hsub.subset htaker)

theorem asleep_eq_nil (hqueue : SingleTaker caller queue) (hawake : queue.isAsleep caller = false) :
    queue.takers.asleep = [] := by
  rw [List.eq_nil_iff_forall_not_mem]
  intro taker htaker
  have hcaller := hqueue.caller_eq taker (List.mem_append_left _ htaker)
  exact List.any_eq_false.mp hawake taker htaker (by simpa using hcaller)

theorem everyone_alert (hqueue : SingleTaker caller queue)
    (hawake : queue.isAsleep caller = false) : (queue.alert caller).takers.everyone = [] := by
  have hasleep := hqueue.asleep_eq_nil hawake
  have hwoken : (queue.takers.woken.filter fun taker => !(taker.caller == caller)) = [] := by
    rw [List.filter_eq_nil_iff]
    intro taker htaker
    simpa using hqueue.caller_eq taker (List.mem_append_right _ htaker)
  simp [alert, Parking.everyone, Parking.rise, hasleep, hwoken]

/-- Waking one taker wakes all there are. -/
theorem asleep_tail (hqueue : SingleTaker caller queue) : queue.takers.asleep.tail = [] := by
  have hlength := hqueue.length_le
  rw [Parking.everyone, List.length_append] at hlength
  exact List.eq_nil_of_length_eq_zero (by rw [List.length_tail]; omega)

theorem push (hqueue : SingleTaker caller queue) (task : TaskId) (periodic : Bool)
    (due : Moment) : SingleTaker caller (queue.push task periodic due) := by
  refine hqueue.of_perm ?_
  show (if queue.isEarliest ⟨due, queue.nextSeq⟩ then queue.takers.wakeOne
    else queue.takers).everyone.Perm _
  split
  · exact Parking.everyone_wakeOne _
  · exact List.Perm.refl _

end SingleTaker

theorem everyone_expire (queue : Queue) (taker : Nat) :
    (queue.expire taker).takers.everyone.Perm queue.takers.everyone := by
  have hsplit := List.filter_append_perm
    (fun other : Taker => other.caller == taker && other.timer?.isSome) queue.takers.asleep
  show List.Perm (_ ++ (queue.takers.woken ++ _)) (queue.takers.asleep ++ queue.takers.woken)
  refine List.perm_append_comm.trans ?_
  rw [List.append_assoc]
  exact List.perm_append_comm.trans (hsplit.append_right _)

theorem Change.singleTaker {caller : Nat} {queue after : Queue} {operation : Operation}
    (hchange : Change caller queue operation after) (hqueue : SingleTaker caller queue) :
    SingleTaker caller after := by
  cases hchange with
  | unchanged => exact hqueue
  | parked | parkedAgain | removed => exact hqueue.of_perm (List.Perm.refl _)
  | pushed => exact hqueue.push _ _ _
  | refused => exact hqueue.of_perm (Parking.everyone_wakeOne _)
  | @resumed producer =>
      have hrisen : SingleTaker caller
          { queue.risen producer with blockedProducers := queue.blockedProducers - 1 } :=
        hqueue.of_perm (List.Perm.refl _)
      exact hrisen.push _ _ _
  | finished | taken => exact hqueue.of_sublist (Parking.everyone_rise_sublist _ _)
  | @slept _ timer? hawake =>
      have hnil := hqueue.everyone_alert hawake
      have hperm := (queue.alert caller).takers.everyone_park ⟨caller, timer?⟩
      rw [hnil] at hperm
      constructor
      · exact Nat.le_of_eq hperm.length_eq
      · intro taker htaker
        rw [List.mem_singleton.mp (hperm.mem_iff.mp htaker)]
  | closed | woken => exact hqueue.of_perm (Parking.everyone_wakeAll _)
  | expired taker => exact hqueue.of_perm (queue.everyone_expire taker)

/-! ### The sleeping taker -/

/-- A taker need not be told of an entry that does not come first. -/
theorem watchful_push {caller : Nat} {queue : Queue} (hsingle : SingleTaker caller queue)
    (hasleep : ∀ taker ∈ queue.takers.asleep,
      queue.admission ≠ .closed ∧ queue.NothingBefore taker.timer?)
    (task : TaskId) (periodic : Bool) (due : Moment) :
    (queue.push task periodic due).Watchful := by
  intro taker htaker
  change taker ∈ (if queue.isEarliest ⟨due, queue.nextSeq⟩ then queue.takers.wakeOne
    else queue.takers).asleep at htaker
  cases hearliest : queue.isEarliest ⟨due, queue.nextSeq⟩ with
  | true =>
      -- The only taker has been woken.
      rw [hearliest, if_pos rfl, Parking.asleep_wakeOne, hsingle.asleep_tail] at htaker
      exact absurd htaker List.not_mem_nil
  | false =>
      rw [hearliest, if_neg Bool.false_ne_true] at htaker
      obtain ⟨hadmission, hsleep⟩ := hasleep taker htaker
      refine ⟨hadmission, ?_⟩
      cases hentries : queue.entries with
      | nil => simp [isEarliest, hentries] at hearliest
      | cons first rest =>
          -- The new entry does not come before the first one, so the timer is early enough.
          have hnot : ¬ (⟨due, queue.nextSeq⟩ : Key) < first.key := by
            simpa [isEarliest, hentries] using hearliest
          cases htimer : taker.timer? with
          | none =>
              rw [htimer, NothingBefore, hentries] at hsleep
              exact absurd hsleep (List.cons_ne_nil first rest)
          | some timer =>
              rw [htimer] at hsleep
              intro entry hentry
              rcases mem_entries_push.mp hentry with rfl | hentry
              · have hfirst := hsleep first (hentries ▸ List.mem_cons_self ..)
                exact Nat.le_trans hfirst (Key.due_le_of_not_lt hnot)
              · exact hsleep entry hentry

/-- Entries may leave under a sleeping taker. -/
theorem Watchful.of_subset {queue after : Queue} (hqueue : queue.Watchful)
    (hasleep : ∀ taker ∈ after.takers.asleep, taker ∈ queue.takers.asleep)
    (hadmission : after.admission = queue.admission)
    (hentries : ∀ entry ∈ after.entries, entry ∈ queue.entries)
    (hblocked : queue.blockedProducers ≤ after.blockedProducers) : after.Watchful := by
  intro taker htaker
  obtain ⟨hopen, hsleep⟩ := hqueue taker (hasleep taker htaker)
  refine ⟨hadmission ▸ hopen, ?_⟩
  cases htimer : taker.timer? with
  | none =>
      rw [htimer] at hsleep
      refine ⟨List.eq_nil_iff_forall_not_mem.mpr fun entry hentry => ?_, fun hdraining => ?_⟩
      · exact absurd (hentries entry hentry) (by simp [hsleep.1])
      · exact Nat.lt_of_lt_of_le (hsleep.2 (hadmission ▸ hdraining)) hblocked
  | some due =>
      rw [htimer] at hsleep
      exact fun entry hentry => hsleep entry (hentries entry hentry)

theorem watchful_of_asleep_eq_nil {queue : Queue} (hasleep : queue.takers.asleep = []) :
    queue.Watchful := by
  intro taker htaker
  rw [hasleep] at htaker
  exact absurd htaker List.not_mem_nil

/-- The timer that a taker sets is that of the first entry. -/
theorem maySleep_head {queue : Queue} (hqueue : queue.Ordered)
    (hmore : queue.entries = [] → queue.admission = .draining → queue.blockedProducers ≠ 0) :
    queue.MaySleep (queue.entries.head?.map fun first => first.key.due) := by
  have hsorted := hqueue.sorted
  cases hentries : queue.entries with
  | nil => exact ⟨hentries, fun hdraining => Nat.pos_of_ne_zero (hmore hentries hdraining)⟩
  | cons first rest =>
      rw [hentries, List.pairwise_cons] at hsorted
      intro entry hentry
      rw [hentries] at hentry
      rcases List.mem_cons.mp hentry with rfl | hentry
      · exact Nat.le_refl _
      · exact Key.due_le_of_lt (hsorted.1 entry hentry)

theorem Change.watchful {caller : Nat} {queue after : Queue} {operation : Operation}
    (hchange : Change caller queue operation after) (hordered : queue.Ordered)
    (hsingle : SingleTaker caller queue) (hwatch : queue.Watchful) : after.Watchful := by
  have hweak : ∀ taker ∈ queue.takers.asleep,
      queue.admission ≠ .closed ∧ queue.NothingBefore taker.timer? :=
    fun taker htaker => (hwatch taker htaker).imp_right MaySleep.nothingBefore
  cases hchange with
  | unchanged => exact hwatch
  | parked =>
      exact hwatch.of_subset (fun _ => id) rfl (fun _ => id) (Nat.le_succ _)
  | pushed => exact watchful_push hsingle hweak _ _ _
  | parkedAgain => exact hwatch.of_subset (fun _ => id) rfl (fun _ => id) (Nat.le_refl _)
  | refused =>
      -- Here the count drops without an entry, and the taker is woken on purpose.
      refine watchful_of_asleep_eq_nil ?_
      exact (Parking.asleep_wakeOne _).trans hsingle.asleep_tail
  | @resumed producer =>
      -- One producer fewer is counted, but the entry that it brings wakes the taker if need be.
      have hrisen : SingleTaker caller
          { queue.risen producer with blockedProducers := queue.blockedProducers - 1 } :=
        hsingle.of_perm (List.Perm.refl _)
      exact watchful_push hrisen hweak _ _ _
  | finished hawake | taken hawake =>
      exact watchful_of_asleep_eq_nil (hsingle.asleep_eq_nil hawake)
  | slept hawake hadmission htimer hmore =>
      intro taker htaker
      have hnil := hsingle.asleep_eq_nil hawake
      change taker ∈ queue.takers.asleep ++ [_] at htaker
      rw [hnil, List.nil_append, List.mem_singleton] at htaker
      subst htaker htimer
      have hsleep := maySleep_head hordered hmore
      exact ⟨hadmission, hsleep⟩
  | removed =>
      exact hwatch.of_subset (fun _ => id) rfl (fun _ => List.mem_of_mem_filter) (Nat.le_refl _)
  | closed | woken => exact watchful_of_asleep_eq_nil rfl
  | expired taker =>
      exact hwatch.of_subset (fun _ => List.mem_of_mem_filter) rfl (fun _ => id) (Nat.le_refl _)

/-! ## All parts together -/

theorem Change.capacity_eq {caller : Nat} {queue after : Queue} {operation : Operation}
    (hchange : Change caller queue operation after) : after.capacity? = queue.capacity? := by
  cases hchange <;> rfl

theorem Change.closed_empty {caller : Nat} {queue after : Queue} {operation : Operation}
    (hchange : Change caller queue operation after)
    (hqueue : queue.admission = .closed → queue.entries = [])
    (hclosed : after.admission = .closed) : after.entries = [] := by
  cases hchange with
  | unchanged | parked | parkedAgain | refused | finished | slept | woken | expired =>
      exact hqueue hclosed
  | pushed hadmission =>
      exact absurd (hadmission.symm.trans hclosed) (by decide)
  | resumed _ hadmission | taken _ hadmission => exact absurd hclosed hadmission
  | removed =>
      show queue.entries.filter _ = []
      rw [hqueue hclosed, List.filter_nil]
  | closed drain =>
      rw [close_entries]
      by_cases hadmission : queue.admission = .closed
      · rw [hqueue hadmission, List.filter_nil]
      · cases drain with
        | false => simp [staysOn]
        | true =>
            simp only [close, if_neg hadmission] at hclosed
            exact absurd hclosed (by decide)

/-- Every change keeps a queue sound, as long as no task is queued twice. -/
theorem Change.sound {caller : Nat} {queue after : Queue} {operation : Operation}
    (hchange : Change caller queue operation after) (hqueue : Sound caller queue)
    (hnodup : after.tasks.Nodup) : Sound caller after where
  wellFormed := hchange.wellFormed hqueue.wellFormed hnodup
  counted := hchange.counted hqueue.counted
  singleTaker := hchange.singleTaker hqueue.singleTaker
  watchful := hchange.watchful hqueue.wellFormed.ordered hqueue.singleTaker hqueue.watchful
  closed_empty := hchange.closed_empty hqueue.closed_empty
  capacity_pos := by
    intro capacity hcapacity
    exact hqueue.capacity_pos capacity (hchange.capacity_eq ▸ hcapacity)

end Queue

end TimedTasks
