import TimedTasks.Proofs.Queue.Traffic

/-!
# Nothing is lost in a queue, and nothing is made up

A queue relies on its callers in two ways: a task is brought or put back only while it is not
queued, and the due time of a task that is queued stays as it is.  `Usage.Run` is a queue that
is used like that, for as long as one likes; the records of the tasks appear in it only through
their due times.  Clocks appear only through what a taker believes the time to be, which may
be anything.

Then the entries and the index always fit together, and the books balance
(`Usage.Run.entries_perm`): what has come in is what is still queued together with what has gone
out.  The entries that come in are numbered one after the other, so that no two of them can be
confused, and each has gone out at most once and in one way only.
-/

namespace TimedTasks

namespace Queue

/-- A queue in use: next to the queue, the due times that the records of the tasks show. -/
structure Usage where
  queue : Queue
  dueOf : TaskId → Moment

namespace Usage

variable {usage : Usage} {operation : Operation} {capacity : Nat} {entry : Entry}
variable {past : List (Queue × Operation)} {task : TaskId}

/-- What comes in is a task that is not queued, under the due time of its record. -/
def Abides (usage : Usage) (operation : Operation) : Prop :=
  ∀ entry ∈ usage.queue.entering operation,
    entry.task ∉ usage.queue.tasks ∧ entry.key.due = usage.dueOf entry.task

instance (usage : Usage) (operation : Operation) : Decidable (usage.Abides operation) :=
  inferInstanceAs (Decidable (∀ entry ∈ usage.queue.entering operation, _ ∧ _))

/-- The course of a queue whose callers keep to the rules.  Any number of producers and takers
take turns, and a record that is not queued may be given another due time at any moment. -/
inductive Run (capacity : Nat) : List (Queue × Operation) → Usage → Prop
  | start (dueOf : TaskId → Moment) : Run capacity [] ⟨.new capacity, dueOf⟩
  | operate {past : List (Queue × Operation)} {usage : Usage} {operation : Operation}
      {caller : Nat} (hrun : Run capacity past usage)
      (hallows : Allows caller usage.queue operation) (habides : usage.Abides operation) :
      Run capacity ((usage.queue, operation) :: past)
        { usage with queue := usage.queue.apply operation }
  | rescheduled {past : List (Queue × Operation)} {usage : Usage} (dueOf : TaskId → Moment)
      (hrun : Run capacity past usage)
      (hkept : ∀ task ∈ usage.queue.tasks, dueOf task = usage.dueOf task) :
      Run capacity past { usage with dueOf }

/-- Do the operations of a list one after the other, if all of them may be done. -/
def follow (caller : Nat) (past : List (Queue × Operation)) (usage : Usage) :
    List Operation → Option (List (Queue × Operation) × Usage)
  | [] => some (past, usage)
  | operation :: rest =>
    if Allows caller usage.queue operation ∧ usage.Abides operation then
      follow caller ((usage.queue, operation) :: past)
        { usage with queue := usage.queue.apply operation } rest
    else none

theorem Run.of_follow {caller : Nat} {operations : List Operation}
    {result : List (Queue × Operation) × Usage} (hrun : Run capacity past usage)
    (hfollow : follow caller past usage operations = some result) :
    Run capacity result.1 result.2 := by
  induction operations generalizing past usage with
  | nil =>
      obtain rfl := Option.some.inj hfollow
      exact hrun
  | cons operation rest ih =>
      unfold follow at hfollow
      split at hfollow
      · rename_i hmay
        exact ih (.operate hrun hmay.1 hmay.2) hfollow
      · simp at hfollow

theorem Run.course (hrun : Run capacity past usage) : Course (new capacity) past usage.queue := by
  induction hrun with
  | start => exact .start
  | operate _ hallows _ ih => exact .step ih hallows
  | rescheduled _ _ _ ih => exact ih

theorem Abides.tasks_nodup (habides : usage.Abides operation) (hqueue : usage.queue.WellFormed) :
    (usage.queue.apply operation).tasks.Nodup := by
  have hincoming : ((usage.queue.entering operation ++ usage.queue.entries).map
      Entry.task).Nodup := by
    cases usage.queue.flow operation with
    | inserts entry hinserted hputBack | putsBack entry hinserted hputBack =>
        have hentering : usage.queue.entering operation = [entry] := by
          rw [entering, hinserted, hputBack]
          rfl
        rw [hentering, List.singleton_append, List.map_cons, List.nodup_cons]
        have hnew := (habides entry (hentering ▸ List.mem_singleton_self entry)).1
        exact ⟨hnew, hqueue.tasks_nodup⟩
    | letsGo hentering =>
        rw [hentering, List.nil_append]
        exact hqueue.tasks_nodup
  have hall := (((hqueue.entries_perm operation).map Entry.task).nodup_iff).mpr hincoming
  rw [List.map_append] at hall
  exact (List.nodup_append.mp hall).1

theorem Run.wellFormed (hrun : Run capacity past usage) : usage.queue.WellFormed := by
  induction hrun with
  | start => exact wellFormed_new capacity
  | operate _ hallows habides ih =>
      exact (change_apply hallows).wellFormed ih (habides.tasks_nodup ih)
  | rescheduled _ _ _ ih => exact ih

theorem Run.due_eq (hrun : Run capacity past usage) :
    ∀ entry ∈ usage.queue.entries, entry.key.due = usage.dueOf entry.task := by
  induction hrun with
  | start => exact fun _ hentry => absurd hentry List.not_mem_nil
  | @operate _ usage operation _ hrun _ habides ih =>
      intro entry hentry
      have hmem := (hrun.wellFormed.entries_perm operation).subset (List.mem_append_left _ hentry)
      rcases List.mem_append.mp hmem with hnew | hold
      · exact (habides entry hnew).2
      · exact ih entry hold
  | rescheduled dueOf _ hkept ih =>
      intro entry hentry
      exact (ih entry hentry).trans (hkept entry.task (List.mem_map_of_mem hentry)).symm

/-- The entries that come in are numbered one after the other. -/
theorem Run.seqs_eq (hrun : Run capacity past usage) :
    (gathered entering past).map (fun entry => entry.key.seq) =
      (List.range usage.queue.nextSeq).reverse := by
  induction hrun with
  | start => rfl
  | @operate _ usage operation _ _ _ _ ih =>
      rw [gathered_cons, List.map_append, ih]
      cases usage.queue.flow operation with
      | inserts entry hinserted hputBack _ _ htakesIn
      | putsBack entry hinserted hputBack _ htakesIn =>
          rw [entering, hinserted, hputBack, htakesIn.nextSeq_eq, List.range_succ,
            List.reverse_append]
          simp [htakesIn.seq_eq]
      | letsGo hentering _ hnextSeq => rw [hentering, hnextSeq]; rfl
  | rescheduled _ _ _ ih => exact ih

/-- What has come in is queued or has gone out. -/
theorem Run.entries_perm (hrun : Run capacity past usage) :
    (usage.queue.entries ++ gathered leaving past).Perm (gathered entering past) := by
  induction hrun with
  | start => exact List.Perm.refl _
  | @operate past usage operation _ hrun _ _ ih =>
      rw [gathered_cons, gathered_cons, ← List.append_assoc]
      have hstep := (hrun.wellFormed.entries_perm operation).append_right (gathered leaving past)
      rw [List.append_assoc (usage.queue.entering operation)] at hstep
      exact hstep.trans (ih.append_left _)
  | rescheduled _ _ _ ih => exact ih

theorem gathered_leaving_perm (past : List (Queue × Operation)) :
    (gathered popped past ++ gathered pulled past ++ gathered handedBack past).Perm
      (gathered leaving past) :=
  ((gathered_append_perm popped pulled past).append_right _).trans
    (gathered_append_perm (fun queue operation => queue.popped operation ++ queue.pulled operation)
      handedBack past)

theorem Run.tasks_leaving (hrun : Run capacity past usage) :
    (gathered leaving past).map Entry.task =
      past.flatMap fun moment => moment.1.dismissed moment.2 := by
  induction hrun with
  | start => rfl
  | operate hrun _ _ ih =>
      rw [gathered_cons, List.map_append, hrun.wellFormed.tasks_leaving, ih, List.flatMap_cons]
  | rescheduled _ _ _ ih => exact ih

/-- The books of a queue balance.

However a queue has been used, as long as a task was only brought or put back while it was not
queued and its due time stayed as it was while it was: the entries and the index fit together,
each entry is due when its record says, under a number that is below the next one, and the
producers that wait are counted.  What has come in was numbered one after the other, and it is
exactly what is still queued together with what was popped, pulled out and handed back, each
entry in one of these places and once only.  In terms of what the callers were told: a task has
been let in once for each time that it was let go, and once more if it is queued. -/
theorem Run.conserved (hrun : Run capacity past usage) :
    usage.queue.WellFormed ∧
      (∀ entry ∈ usage.queue.entries, entry.key.due = usage.dueOf entry.task) ∧
      usage.queue.blockedProducers = usage.queue.producers.everyone.length ∧
      (gathered entering past).map (fun entry => entry.key.seq) =
        (List.range usage.queue.nextSeq).reverse ∧
      (usage.queue.entries ++ gathered popped past ++ gathered pulled past ++
        gathered handedBack past).Nodup ∧
      (usage.queue.entries ++ gathered popped past ++ gathered pulled past ++
        gathered handedBack past).Perm (gathered entering past) ∧
      (usage.queue.tasks ++ past.flatMap fun moment => moment.1.dismissed moment.2).Perm
        ((gathered entering past).map Entry.task) := by
  have hperm : (usage.queue.entries ++ gathered popped past ++ gathered pulled past ++
      gathered handedBack past).Perm (gathered entering past) := by
    rw [List.append_assoc, List.append_assoc, ← List.append_assoc (gathered popped past)]
    exact ((gathered_leaving_perm past).append_left _).trans hrun.entries_perm
  have hnodup : (gathered entering past).Nodup := by
    refine List.Nodup.of_map (fun entry : Entry => entry.key.seq) ?_
    rw [hrun.seqs_eq, List.nodup_reverse]
    exact List.nodup_range
  have htasks := hrun.entries_perm.map Entry.task
  rw [List.map_append, hrun.tasks_leaving] at htasks
  exact ⟨hrun.wellFormed, hrun.due_eq, (hrun.course.counted ⟨rfl, List.nodup_nil⟩).blocked_eq,
    hrun.seqs_eq, hperm.nodup_iff.mpr hnodup, hperm, htasks⟩

/-- A periodic task is popped and put back under another due time, a one-shot task gets in
after a wait, one task is pulled out, and the queue hands back the rest. -/
theorem conserved_through_all_ways :
    ∃ past usage, Run 1 past usage ∧ usage.queue.WellFormed ∧ usage.queue.entries = [] ∧
      past.flatMap (fun moment => moment.1.dismissed moment.2) = [1, 0, 0] ∧
      (gathered popped past ++ gathered pulled past ++ gathered handedBack past).Perm
        (gathered entering past) := by
  have hfollow : (follow 0 [] ⟨new 1, fun _ => .origin⟩
      [.insert ⟨0, 0, true⟩ .origin, .insert ⟨1, 1, false⟩ .origin, .take 0 .origin]).map
        (fun result => (result.2.queue.tasks,
          (follow 0 result.1
            { result.2 with dueOf := fun task => if task = 0 then ⟨5⟩ else .origin }
            [.requeue 0 true false ⟨5⟩, .remove 0, .resume ⟨1, 1, false⟩ .origin, .close false]).map
              fun further => (further.2.queue.entries,
                further.1.flatMap fun moment => moment.1.dismissed moment.2))) =
      some ([], some ([], [1, 0, 0])) := by
    decide +kernel
  obtain ⟨⟨past, usage⟩, hresult, hparts⟩ := Option.map_eq_some_iff.mp hfollow
  simp only [Prod.mk.injEq] at hparts
  obtain ⟨hidle, hfurther⟩ := hparts
  obtain ⟨⟨later, after⟩, hlater, hends⟩ := Option.map_eq_some_iff.mp hfurther
  simp only [Prod.mk.injEq] at hends
  have hrun := Run.of_follow (.start _) hresult
  have hmoved := Run.rescheduled (fun task => if task = 0 then ⟨5⟩ else .origin) hrun
    fun task htask => by simp [hidle] at htask
  have hend := Run.of_follow hmoved hlater
  obtain ⟨hwellFormed, -, -, -, -, hperm, -⟩ := hend.conserved
  rw [hends.1, List.nil_append] at hperm
  exact ⟨later, after, hend, hwellFormed, hends.1, hends.2, hperm⟩

end Usage

end Queue

end TimedTasks
