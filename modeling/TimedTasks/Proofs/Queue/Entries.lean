import Mathlib.Data.List.Nodup
import Mathlib.Data.List.Perm.Basic
import TimedTasks.Queue.Basic

/-!
# Entries and the index of a queue

A queue keeps every entry twice: in the list of entries, in the order of their keys, and
in the index, under the number of its task.  `Queue.WellFormed` says that the two fit
together.  Entries come in one at a time (`WellFormed.push`) and leave through a filter
(`WellFormed.filter`), whether one task is taken or removed or many are swept out by a
closing queue.

`Queue.Ordered` is the part of it that does not depend on which tasks are brought: it holds
even of a queue that is given one task twice.
-/

namespace TimedTasks

/-! ## The order of keys -/

namespace Key

theorem lt_def {first second : Key} :
    first < second ↔
      first.due < second.due ∨ (first.due = second.due ∧ first.seq < second.seq) := Iff.rfl

theorem lt_trans {first second third : Key} (hfirst : first < second) (hsecond : second < third) :
    first < third := by
  rcases first with ⟨⟨firstDue⟩, firstSeq⟩
  rcases second with ⟨⟨secondDue⟩, secondSeq⟩
  rcases third with ⟨⟨thirdDue⟩, thirdSeq⟩
  simp only [lt_def, Moment.lt_def, Moment.mk.injEq] at *
  omega

theorem lt_of_not_lt {first second : Key} (hnot : ¬ first < second)
    (hseq : second.seq < first.seq) : second < first := by
  rcases first with ⟨⟨firstDue⟩, firstSeq⟩
  rcases second with ⟨⟨secondDue⟩, secondSeq⟩
  simp only [lt_def, Moment.lt_def, Moment.mk.injEq] at *
  omega

theorem due_le_of_not_lt {first second : Key} (hnot : ¬ first < second) :
    second.due ≤ first.due := by
  simp only [lt_def, Moment.lt_def, Moment.le_def] at *
  omega

theorem due_le_of_lt {first second : Key} (hlt : first < second) : first.due ≤ second.due := by
  rcases hlt with hlt | ⟨heq, -⟩
  · exact Nat.le_of_lt hlt
  · exact heq ▸ Nat.le_refl _

end Key

/-! ## Putting an entry in its place -/

theorem insertEntry_perm (entry : Entry) (entries : List Entry) :
    (insertEntry entry entries).Perm (entry :: entries) := by
  induction entries with
  | nil => exact List.Perm.refl _
  | cons first rest ih =>
      unfold insertEntry
      split
      · exact List.Perm.refl _
      · exact (ih.cons first).trans (List.Perm.swap entry first rest)

/-- The order of the keys is kept by an entry that came after all the others. -/
theorem pairwise_insertEntry {entry : Entry} {entries : List Entry}
    (hsorted : entries.Pairwise fun first second => first.key < second.key)
    (hseq : ∀ other ∈ entries, other.key.seq < entry.key.seq) :
    (insertEntry entry entries).Pairwise fun first second => first.key < second.key := by
  induction entries with
  | nil => simp [insertEntry]
  | cons first rest ih =>
      rw [List.pairwise_cons] at hsorted
      unfold insertEntry
      split
      · rename_i hlt
        refine List.pairwise_cons.mpr ⟨?_, List.pairwise_cons.mpr hsorted⟩
        intro other hother
        rcases List.mem_cons.mp hother with rfl | hother
        · exact hlt
        · exact Key.lt_trans hlt (hsorted.1 other hother)
      -- An equal due time is no obstacle: the entry has come last, so that its number is the
      -- greatest.
      · rename_i hnot
        refine List.pairwise_cons.mpr ⟨?_, ih hsorted.2 fun other hother =>
          hseq other (List.mem_cons_of_mem _ hother)⟩
        intro other hother
        rcases List.mem_cons.mp ((insertEntry_perm entry rest).mem_iff.mp hother) with rfl | hother
        · exact Key.lt_of_not_lt hnot (hseq first (List.mem_cons_self ..))
        · exact hsorted.1 other hother

/-! ## Looking up and dropping tasks in the index -/

theorem lookup_dropIndex (index : List (TaskId × Key)) (task other : TaskId) :
    (dropIndex index task).lookup other = if other = task then none else index.lookup other := by
  induction index with
  | nil => simp [dropIndex]
  | cons pair rest ih =>
      obtain ⟨owner, key⟩ := pair
      have hcons : dropIndex ((owner, key) :: rest) task =
          if owner = task then dropIndex rest task else (owner, key) :: dropIndex rest task := by
        by_cases howner : owner = task <;> simp [dropIndex, howner]
      rw [hcons, List.lookup_cons]
      by_cases howner : owner = task
      · rw [if_pos howner, ih]
        by_cases hother : other = task
        · simp [hother]
        · simp [hother, beq_false_of_ne (howner ▸ hother : other ≠ owner)]
      · rw [if_neg howner, List.lookup_cons, ih]
        by_cases hother : other = owner
        · simp [hother, howner]
        · simp [beq_false_of_ne hother]

theorem lookup_foldl_dropIndex (removed : List Entry) (index : List (TaskId × Key))
    (other : TaskId) :
    (removed.foldl (fun index entry => dropIndex index entry.task) index).lookup other =
      if other ∈ removed.map Entry.task then none else index.lookup other := by
  induction removed generalizing index with
  | nil => simp
  | cons entry rest ih =>
      rw [List.foldl_cons, ih, lookup_dropIndex]
      by_cases hrest : other ∈ rest.map Entry.task
      · simp [hrest]
      · by_cases hentry : other = entry.task <;> simp [hrest, hentry]

namespace Queue

/-! ## The queued tasks -/

/-- The queued tasks, in the order of their keys. -/
def tasks (queue : Queue) : List TaskId := queue.entries.map Entry.task

/-- What the entries and the index of a queue owe each other. -/
structure WellFormed (queue : Queue) : Prop where
  sorted : queue.entries.Pairwise fun first second => first.key < second.key
  seq_lt : ∀ entry ∈ queue.entries, entry.key.seq < queue.nextSeq
  seq_nodup : (queue.entries.map fun entry => entry.key.seq).Nodup
  tasks_nodup : queue.tasks.Nodup
  /-- The index knows exactly the queued tasks, each under its key. -/
  lookup_iff : ∀ task key, queue.index.lookup task = some key ↔
    ∃ entry ∈ queue.entries, entry.task = task ∧ entry.key = key

/-- The entries are in the order of their keys, and the next one comes after all of them in
the order of insertion. -/
structure Ordered (queue : Queue) : Prop where
  sorted : queue.entries.Pairwise fun first second => first.key < second.key
  seq_lt : ∀ entry ∈ queue.entries, entry.key.seq < queue.nextSeq

theorem WellFormed.ordered {queue : Queue} (hqueue : queue.WellFormed) : queue.Ordered :=
  ⟨hqueue.sorted, hqueue.seq_lt⟩

theorem wellFormed_new (capacity : Nat) : (new capacity).WellFormed := by
  constructor <;> simp [new, tasks]

theorem tasks_push (queue : Queue) (task : TaskId) (periodic : Bool) (due : Moment) :
    (queue.push task periodic due).tasks.Perm (task :: queue.tasks) := by
  exact (insertEntry_perm ⟨⟨due, queue.nextSeq⟩, task, periodic⟩ queue.entries).map Entry.task

theorem mem_tasks_push {queue : Queue} {task other : TaskId} {periodic : Bool} {due : Moment} :
    other ∈ (queue.push task periodic due).tasks ↔ other = task ∨ other ∈ queue.tasks :=
  (tasks_push queue task periodic due).mem_iff.trans List.mem_cons

theorem mem_entries_push {queue : Queue} {task : TaskId} {periodic : Bool} {due : Moment}
    {entry : Entry} :
    entry ∈ (queue.push task periodic due).entries ↔
      entry = ⟨⟨due, queue.nextSeq⟩, task, periodic⟩ ∨ entry ∈ queue.entries := by
  simp only [push, (insertEntry_perm _ _).mem_iff, List.mem_cons]

namespace Ordered

theorem push {queue : Queue} (hqueue : queue.Ordered) (task : TaskId) (periodic : Bool)
    (due : Moment) : (queue.push task periodic due).Ordered where
  sorted := pairwise_insertEntry hqueue.sorted hqueue.seq_lt
  seq_lt := by
    intro entry hentry
    show entry.key.seq < queue.nextSeq + 1
    rcases mem_entries_push.mp hentry with rfl | hentry
    · exact Nat.lt_succ_self _
    · exact Nat.lt_succ_of_lt (hqueue.seq_lt entry hentry)

theorem of_sublist {queue after : Queue} (hqueue : queue.Ordered)
    (hsub : after.entries.Sublist queue.entries) (hnextSeq : after.nextSeq = queue.nextSeq) :
    after.Ordered where
  sorted := hqueue.sorted.sublist hsub
  seq_lt := fun entry hentry => hnextSeq ▸ hqueue.seq_lt entry (hsub.subset hentry)

end Ordered

namespace WellFormed

theorem eq_of_task_eq {queue : Queue} (hqueue : queue.WellFormed) {first second : Entry}
    (hfirst : first ∈ queue.entries) (hsecond : second ∈ queue.entries)
    (htask : first.task = second.task) : first = second :=
  List.inj_on_of_nodup_map hqueue.tasks_nodup hfirst hsecond htask

theorem eq_of_key_eq {queue : Queue} (hqueue : queue.WellFormed) {first second : Entry}
    (hfirst : first ∈ queue.entries) (hsecond : second ∈ queue.entries)
    (hkey : first.key = second.key) : first = second :=
  List.inj_on_of_nodup_map hqueue.seq_nodup hfirst hsecond (congrArg Key.seq hkey)

theorem push {queue : Queue} (hqueue : queue.WellFormed) {task : TaskId}
    (hfresh : task ∉ queue.tasks) (periodic : Bool) (due : Moment) :
    (queue.push task periodic due).WellFormed := by
  have hperm := insertEntry_perm ⟨⟨due, queue.nextSeq⟩, task, periodic⟩ queue.entries
  have htask : ∀ entry ∈ queue.entries, entry.task ≠ task := fun entry hentry heq =>
    hfresh (heq ▸ List.mem_map_of_mem hentry)
  have hordered := hqueue.ordered.push task periodic due
  constructor
  · exact hordered.sorted
  · exact hordered.seq_lt
  · refine ((hperm.map fun entry => entry.key.seq).nodup_iff).mpr ?_
    refine List.nodup_cons.mpr ⟨?_, hqueue.seq_nodup⟩
    intro hmem
    obtain ⟨entry, hentry, hseq⟩ := List.mem_map.mp hmem
    exact absurd (hqueue.seq_lt entry hentry) (by simp at hseq; omega)
  · exact ((queue.tasks_push task periodic due).nodup_iff).mpr
      (List.nodup_cons.mpr ⟨hfresh, hqueue.tasks_nodup⟩)
  · -- The new task is looked up at the front of the index, any other one behind it.
    intro other key
    simp only [mem_entries_push]
    show (((task, (⟨due, queue.nextSeq⟩ : Key)) :: dropIndex queue.index task).lookup other =
      some key) ↔ _
    rw [List.lookup_cons]
    by_cases hother : other = task
    · subst hother
      simp only [beq_self_eq_true, Option.some.injEq]
      constructor
      · rintro rfl
        exact ⟨_, Or.inl rfl, rfl, rfl⟩
      · rintro ⟨entry, rfl | hentry, hsame, hkey⟩
        · exact hkey
        · exact absurd hsame (htask entry hentry)
    · simp only [beq_false_of_ne hother, lookup_dropIndex, if_neg hother, hqueue.lookup_iff]
      constructor
      · rintro ⟨entry, hentry, hsame, hkey⟩
        exact ⟨entry, Or.inr hentry, hsame, hkey⟩
      · rintro ⟨entry, rfl | hentry, hsame, hkey⟩
        · exact absurd hsame.symm hother
        · exact ⟨entry, hentry, hsame, hkey⟩

theorem filter {queue after : Queue} (hqueue : queue.WellFormed) (keep : Entry → Bool)
    (hentries : after.entries = queue.entries.filter keep)
    (hnextSeq : after.nextSeq = queue.nextSeq)
    (hindex : ∀ task, after.index.lookup task =
      if task ∈ after.tasks then queue.index.lookup task else none) :
    after.WellFormed := by
  have hsub : after.entries.Sublist queue.entries := hentries ▸ List.filter_sublist
  constructor
  · exact hqueue.sorted.sublist hsub
  · intro entry hentry
    exact hnextSeq ▸ hqueue.seq_lt entry (hsub.subset hentry)
  · exact hqueue.seq_nodup.sublist (hsub.map _)
  · exact hqueue.tasks_nodup.sublist (hsub.map _)
  · intro task key
    rw [hindex]
    split
    · rename_i hmem
      -- The index has one key for the task, and it is that of the entry that stays.
      obtain ⟨kept, hkept, rfl⟩ := List.mem_map.mp hmem
      rw [hqueue.lookup_iff]
      constructor
      · rintro ⟨entry, hentry, hsame, hkey⟩
        have heq := hqueue.eq_of_task_eq hentry (hsub.subset hkept) hsame
        exact ⟨kept, hkept, rfl, heq ▸ hkey⟩
      · rintro ⟨entry, hentry, hsame, hkey⟩
        exact ⟨entry, hsub.subset hentry, hsame, hkey⟩
    · rename_i hmem
      refine ⟨fun h => by simp at h, ?_⟩
      rintro ⟨entry, hentry, rfl, -⟩
      exact absurd (List.mem_map_of_mem hentry) hmem

end WellFormed

end Queue

end TimedTasks
