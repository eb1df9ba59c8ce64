import TimedTasks.Proofs.Queue.Backpressure

/-!
# What comes in and what goes out

An operation tells its caller whether a task has come in or gone out.  This file reads off
these answers which entries they mean: those of tasks that are brought (`inserted`), those of
tasks that return (`putBack`), and those that leave because they are taken (`popped`), removed
(`pulled`) or swept out by a closing queue (`handedBack`).

`flow` is what the queue itself makes of them: an operation brings in one entry or lets some
go, and never both.
-/

namespace TimedTasks

namespace Queue

variable {caller : Nat} {origin queue : Queue} {operation : Operation} {capacity : Nat}
variable {past : List (Queue × Operation)} {task : TaskId}

/-! ## What the answers tell -/

/-- The entry that a task would get now. -/
def newEntry (queue : Queue) (task : TaskId) (periodic : Bool) (due : Moment) : Entry :=
  ⟨⟨due, queue.nextSeq⟩, task, periodic⟩

/-- The entry of a task that is brought, whether its producer had to wait or not. -/
def inserted (queue : Queue) : Operation → List Entry
  | .insert producer due =>
      if (queue.insert producer due).2 = .accepted then
        [queue.newEntry producer.task producer.periodic due]
      else []
  | .resume producer due =>
      if (queue.resume producer due).2 = .accepted then
        [queue.newEntry producer.task producer.periodic due]
      else []
  | .tryInsert task periodic due =>
      if (queue.tryInsert task periodic due).isOk then [queue.newEntry task periodic due] else []
  | _ => []

/-- The entry of a task that returns. -/
def putBack (queue : Queue) : Operation → List Entry
  | .requeue task periodic cancelled due =>
      if (queue.requeue task periodic cancelled due).isSome then
        [queue.newEntry task periodic due]
      else []
  | _ => []

/-- The entry of a task that is handed to a taker. -/
def popped (queue : Queue) : Operation → List Entry
  | .take caller now =>
      match (queue.take caller now).2 with
      | .task task => queue.entries.filter fun entry => entry.task == task
      | .finished | .parked => []
  | _ => []

/-- The entry of a task that is pulled out. -/
def pulled (queue : Queue) : Operation → List Entry
  | .remove task =>
      if (queue.remove task).isSome then queue.entries.filter fun entry => entry.task == task
      else []
  | _ => []

/-- The entries that a closing queue hands back. -/
def handedBack (queue : Queue) : Operation → List Entry
  | .close drain => (queue.close drain).2
  | _ => []

/-- What comes in by an operation. -/
def entering (queue : Queue) (operation : Operation) : List Entry :=
  queue.inserted operation ++ queue.putBack operation

/-- What goes out by an operation. -/
def leaving (queue : Queue) (operation : Operation) : List Entry :=
  queue.popped operation ++ queue.pulled operation ++ queue.handedBack operation

/-- The tasks that have gone out, as the callers are told. -/
def dismissed (queue : Queue) : Operation → List TaskId
  | .take caller now =>
      match (queue.take caller now).2 with
      | .task task => [task]
      | .finished | .parked => []
  | .remove task => if (queue.remove task).isSome then [task] else []
  | .close drain => (queue.close drain).2.map Entry.task
  | _ => []

/-- What the operations of a course name one after the other, the newest first. -/
def gathered (named : Queue → Operation → List Entry) (past : List (Queue × Operation)) :
    List Entry :=
  past.flatMap fun moment => named moment.1 moment.2

@[simp] theorem gathered_cons (named : Queue → Operation → List Entry) (queue : Queue)
    (operation : Operation) (past : List (Queue × Operation)) :
    gathered named ((queue, operation) :: past) = named queue operation ++ gathered named past :=
  rfl

theorem gathered_append_perm (first second : Queue → Operation → List Entry)
    (past : List (Queue × Operation)) :
    (gathered first past ++ gathered second past).Perm
      (gathered (fun queue operation => first queue operation ++ second queue operation) past) :=
  List.flatMap_append_perm past (fun moment => first moment.1 moment.2)
    fun moment => second moment.1 moment.2

/-! ## What the queue makes of it -/

/-- An entry has come in, with the next sequence number. -/
structure TakesIn (queue after : Queue) (entry : Entry) : Prop where
  seq_eq : entry.key.seq = queue.nextSeq
  entries_perm : after.entries.Perm (entry :: queue.entries)
  nextSeq_eq : after.nextSeq = queue.nextSeq + 1

theorem takesIn_push (queue : Queue) (task : TaskId) (periodic : Bool) (due : Moment) :
    TakesIn queue (queue.push task periodic due) (queue.newEntry task periodic due) :=
  ⟨rfl, insertEntry_perm _ _, rfl⟩

/-- Which way entries go with an operation. -/
inductive Flow (queue : Queue) (operation : Operation) : Prop
  /-- A task is brought, and there was room for it. -/
  | inserts (entry : Entry) (hinserted : queue.inserted operation = [entry])
      (hputBack : queue.putBack operation = []) (hleaving : queue.leaving operation = [])
      (hroom : queue.isFull = false) (htakesIn : TakesIn queue (queue.apply operation) entry)
  /-- A task returns, whether or not there is room for it. -/
  | putsBack (entry : Entry) (hinserted : queue.inserted operation = [])
      (hputBack : queue.putBack operation = [entry]) (hleaving : queue.leaving operation = [])
      (htakesIn : TakesIn queue (queue.apply operation) entry)
  /-- Nothing comes in.  If no task is queued twice, what goes out is what the answer names. -/
  | letsGo (hentering : queue.entering operation = [])
      (hentries : (queue.apply operation).entries.Sublist queue.entries)
      (hnextSeq : (queue.apply operation).nextSeq = queue.nextSeq)
      (hperm : queue.WellFormed →
        ((queue.apply operation).entries ++ queue.leaving operation).Perm queue.entries)

theorem Flow.rests (hentering : queue.entering operation = [])
    (hleaving : queue.leaving operation = [])
    (hentries : (queue.apply operation).entries = queue.entries)
    (hnextSeq : (queue.apply operation).nextSeq = queue.nextSeq) : Flow queue operation := by
  refine .letsGo hentering (hentries ▸ List.Sublist.refl _) hnextSeq fun _ => ?_
  rw [hentries, hleaving, List.append_nil]

theorem WellFormed.filter_task_eq (hqueue : queue.WellFormed) {entry : Entry}
    (hentry : entry ∈ queue.entries) :
    (queue.entries.filter fun other => other.task == entry.task) = [entry] := by
  obtain ⟨earlier, later, hentries⟩ := List.append_of_mem hentry
  have hnodup := hqueue.tasks_nodup
  rw [tasks, hentries, List.map_append, List.map_cons, List.nodup_middle, List.nodup_cons,
    List.mem_append, not_or] at hnodup
  have hothers : ∀ others : List Entry, entry.task ∉ others.map Entry.task →
      (others.filter fun other => other.task == entry.task) = [] := by
    intro others hnot
    refine List.filter_eq_nil_iff.mpr fun other hother => ?_
    exact fun heq => hnot (beq_iff_eq.mp heq ▸ List.mem_map_of_mem hother)
  rw [hentries, List.filter_append, hothers earlier hnodup.1.1, List.nil_append,
    List.filter_cons, if_pos (beq_self_eq_true entry.task), hothers later hnodup.1.2]

/-- A taker is told of the first entry, if it is due; otherwise the entries stay. -/
theorem take_cases (queue : Queue) (caller : Nat) (now : Moment) :
    (∃ first rest, queue.entries = first :: rest ∧ queue.admission ≠ .closed ∧
        first.key.due ≤ now) ∨
      (∀ task, (queue.take caller now).2 ≠ .task task) ∧
        (queue.take caller now).1.entries = queue.entries ∧
        (queue.take caller now).1.nextSeq = queue.nextSeq := by
  by_cases hclosed : queue.admission = .closed
  · rw [take_of_closed hclosed]
    exact Or.inr ⟨fun task => Taken.noConfusion, rfl, rfl⟩
  · cases hentries : queue.entries with
    | nil =>
        by_cases hover : queue.admission = .draining ∧ queue.blockedProducers = 0
        · rw [take_of_over hentries hover.1 hover.2]
          exact Or.inr ⟨fun task => Taken.noConfusion, hentries, rfl⟩
        · rw [take_of_empty hentries hclosed fun hdraining hblocked => hover ⟨hdraining, hblocked⟩]
          exact Or.inr ⟨fun task => Taken.noConfusion, hentries, rfl⟩
    | cons first rest =>
        by_cases hdue : first.key.due ≤ now
        · exact Or.inl ⟨first, rest, rfl, hclosed, hdue⟩
        · rw [take_of_early hentries hclosed caller hdue]
          exact Or.inr ⟨fun task => Taken.noConfusion, hentries, rfl⟩

theorem WellFormed.popped_eq (hqueue : queue.WellFormed) {first : Entry} {rest : List Entry}
    (hentries : queue.entries = first :: rest) (hadmission : queue.admission ≠ .closed)
    {now : Moment} (hdue : first.key.due ≤ now) : queue.popped (.take caller now) = [first] := by
  simp only [popped, take_of_due hentries hadmission caller hdue]
  exact hqueue.filter_task_eq (hentries ▸ List.mem_cons_self ..)

theorem flow_take (queue : Queue) (caller : Nat) (now : Moment) :
    Flow queue (.take caller now) := by
  rcases queue.take_cases caller now with
    ⟨first, rest, hentries, hadmission, hdue⟩ | ⟨hnot, hsame, hnextSeq⟩
  · have hafter := take_of_due hentries hadmission caller hdue
    have hrest : (queue.apply (.take caller now)).entries = rest := by rw [apply, hafter]
    refine .letsGo rfl ?_ (by rw [apply, hafter]; rfl) fun hqueue => ?_
    · rw [hrest, hentries]
      exact List.sublist_cons_self _ _
    · rw [hrest, leaving, hqueue.popped_eq hentries hadmission hdue, hentries]
      exact List.perm_append_singleton first rest
  · refine .rests rfl ?_ hsame hnextSeq
    have hpopped : queue.popped (.take caller now) = [] := by
      simp only [popped]
      split
      · rename_i task htask
        exact absurd htask (hnot task)
      · rfl
      · rfl
    rw [leaving, hpopped]
    rfl

theorem flow_remove (queue : Queue) (task : TaskId) : Flow queue (.remove task) := by
  cases hresult : queue.remove task with
  | none =>
      refine .rests rfl ?_ ?_ ?_
      · simp [leaving, popped, pulled, handedBack, hresult]
      · simp only [apply, hresult, Option.getD_none]
      · simp only [apply, hresult, Option.getD_none]
  | some after =>
      obtain ⟨key, hkey, rfl⟩ := remove_eq_some hresult
      have hleaving : queue.leaving (.remove task) =
          queue.entries.filter fun entry => entry.task == task := by
        simp [leaving, popped, pulled, handedBack, hresult]
      refine .letsGo rfl (queue.remove_rest task).2 ?_ fun hqueue => ?_
      · simp only [apply, hresult, Option.getD_some]
      · simp only [apply, hresult, Option.getD_some]
        rw [hleaving, hqueue.filter_key_eq hkey]
        refine List.perm_append_comm.trans (List.Perm.trans (List.Perm.of_eq ?_)
          (List.filter_append_perm (fun entry => entry.task == task) queue.entries))
        simp only [bne]

theorem flow_close (queue : Queue) (drain : Bool) : Flow queue (.close drain) := by
  refine .letsGo rfl (queue.close_entries drain ▸ List.filter_sublist) rfl fun _ => ?_
  show ((queue.close drain).1.entries ++ (queue.close drain).2).Perm queue.entries
  rw [close_entries, close_removed]
  exact List.filter_append_perm (staysOn drain) queue.entries

theorem flow (queue : Queue) (operation : Operation) : Flow queue operation := by
  cases operation with
  | insert producer due =>
      by_cases hadmission : queue.admission = .accepting
      · cases hfull : queue.isFull with
        | true =>
            have happly := insert_of_full hadmission hfull producer due
            refine .rests ?_ rfl ?_ ?_
            · simp [entering, inserted, putBack, happly]
            · simp only [apply, happly]
            · simp only [apply, happly]
        | false =>
            have happly := insert_of_room hadmission hfull producer due
            refine .inserts (queue.newEntry producer.task producer.periodic due) ?_ rfl rfl hfull ?_
            · simp [inserted, happly]
            · simp only [apply, happly]
              exact takesIn_push ..
      · have happly := insert_of_not_accepting hadmission producer due
        refine .rests ?_ rfl ?_ ?_
        · simp [entering, inserted, putBack, happly]
        · simp only [apply, happly]
        · simp only [apply, happly]
  | resume producer due =>
      by_cases hclosed : queue.admission = .closed
      · have happly := resume_of_closed hclosed producer due
        refine .rests ?_ rfl ?_ ?_
        · simp [entering, inserted, putBack, happly]
        · simp only [apply, happly, risen]
        · simp only [apply, happly, risen]
      · cases hfull : queue.isFull with
        | true =>
            have happly := resume_of_full hfull hclosed producer due
            refine .rests ?_ rfl ?_ ?_
            · simp [entering, inserted, putBack, happly]
            · simp only [apply, happly, risen]
            · simp only [apply, happly, risen]
        | false =>
            have happly := resume_of_room hfull hclosed producer due
            refine .inserts (queue.newEntry producer.task producer.periodic due) ?_ rfl rfl hfull ?_
            · simp [inserted, happly]
            · simp only [apply, happly]
              exact ⟨rfl, insertEntry_perm _ _, rfl⟩
  | tryInsert task periodic due =>
      cases hresult : queue.tryInsert task periodic due with
      | error error =>
          refine .rests ?_ rfl ?_ ?_
          · simp [entering, inserted, putBack, hresult, Except.isOk, Except.toBool]
          · simp only [apply, hresult, Except.toOption, Option.getD_none]
          · simp only [apply, hresult, Except.toOption, Option.getD_none]
      | ok after =>
          obtain ⟨-, hroom, rfl⟩ := tryInsert_eq_ok hresult
          refine .inserts (queue.newEntry task periodic due) ?_ rfl rfl hroom ?_
          · simp [inserted, hresult, Except.isOk, Except.toBool]
          · simp only [apply, hresult]
            exact takesIn_push ..
  | requeue task periodic cancelled due =>
      cases hresult : queue.requeue task periodic cancelled due with
      | none =>
          refine .rests ?_ rfl ?_ ?_
          · simp [entering, inserted, putBack, hresult]
          · simp only [apply, hresult, Option.getD_none]
          · simp only [apply, hresult, Option.getD_none]
      | some after =>
          obtain ⟨-, -, rfl⟩ := requeue_eq_some hresult
          refine .putsBack (queue.newEntry task periodic due) rfl ?_ rfl ?_
          · simp [putBack, hresult]
          · simp only [apply, hresult]
            exact takesIn_push ..
  | take caller now => exact queue.flow_take caller now
  | remove task => exact queue.flow_remove task
  | close drain => exact queue.flow_close drain
  | wake | expire => exact .rests rfl rfl rfl rfl

/-- An operation brings in what it names, and lets go what it names. -/
theorem WellFormed.entries_perm (hqueue : queue.WellFormed) (operation : Operation) :
    ((queue.apply operation).entries ++ queue.leaving operation).Perm
      (queue.entering operation ++ queue.entries) := by
  cases queue.flow operation with
  | inserts entry hinserted hputBack hleaving _ htakesIn
  | putsBack entry hinserted hputBack hleaving htakesIn =>
      rw [hleaving, List.append_nil, entering, hinserted, hputBack]
      exact htakesIn.entries_perm
  | letsGo hentering _ _ hperm =>
      rw [hentering, List.nil_append]
      exact hperm hqueue

/-- Each task that a caller is told of has lost one entry, and no other task has lost any. -/
theorem WellFormed.tasks_leaving (hqueue : queue.WellFormed) (operation : Operation) :
    (queue.leaving operation).map Entry.task = queue.dismissed operation := by
  cases operation with
  | take caller now =>
      rcases queue.take_cases caller now with
        ⟨first, rest, hentries, hadmission, hdue⟩ | ⟨hnot, -, -⟩
      · have hafter := take_of_due hentries hadmission caller hdue
        simp [leaving, hqueue.popped_eq hentries hadmission hdue, pulled, handedBack, dismissed,
          hafter]
      · simp only [leaving, popped, pulled, handedBack, dismissed]
        split
        · rename_i task htask
          exact absurd htask (hnot task)
        · rfl
        · rfl
  | remove task =>
      cases hresult : queue.remove task with
      | none => simp [leaving, popped, pulled, handedBack, dismissed, hresult]
      | some after =>
          obtain ⟨key, hkey, -⟩ := remove_eq_some hresult
          obtain ⟨entry, hentry, rfl, -⟩ := (hqueue.lookup_iff task key).mp hkey
          simp [leaving, popped, pulled, handedBack, dismissed, hresult,
            hqueue.filter_task_eq hentry]
  | close drain => rfl
  | _ => rfl

end Queue

end TimedTasks
