import TimedTasks.Proofs.Queue.Conservation

/-!
# The order in which tasks are handed out

What is queued stands in a line, whoever came first in front.  The line can be told from the
answers of a queue alone (`inLine`): who is let in goes to its end, and who is let go leaves it,
so that a task which returns stands behind everyone who is there by then.

The queued tasks are the line, sorted by due time without changing the order of those that are
due at the same time (`Usage.Run.tasks_eq`).  That is so because the numbers of the entries grow
along the line, whatever has come and gone (`Usage.Run.lined`), and because what is in the order
of due time and number has been sorted stably by due time (`eq_dueSort`).

A taker is handed the first entry.  What takers are handed one after the other, if everyone in
line is due, is the sorted line, and whether somebody is removed before makes no difference to
the others.
-/

namespace TimedTasks

theorem Moment.lt_or_eq_of_le {first second : Moment} (hle : first ≤ second) :
    first < second ∨ first = second :=
  (Nat.lt_or_eq_of_le hle).imp id fun heq => congrArg Moment.mk heq

theorem Key.lt_asymm {first second : Key} (hlt : first < second) : ¬ second < first := by
  intro hgt
  rcases Key.lt_trans hlt hgt with hself | ⟨-, hself⟩
  · exact absurd hself (Nat.lt_irrefl _)
  · exact absurd hself (Nat.lt_irrefl _)

/-! ## Sorting by due time -/

section

variable {β γ : Type}

/-- The members of a list by due time; those that are due at the same time stay as they are. -/
def dueSort (dueOf : β → Moment) (line : List β) : List β :=
  line.mergeSort fun first second => dueOf first ≤ dueOf second

theorem dueSort_perm (dueOf : β → Moment) (line : List β) : (dueSort dueOf line).Perm line :=
  List.mergeSort_perm line _

theorem due_le_trans (dueOf : β → Moment) (first second third : β)
    (hfirst : decide (dueOf first ≤ dueOf second) = true)
    (hsecond : decide (dueOf second ≤ dueOf third) = true) :
    decide (dueOf first ≤ dueOf third) = true := by
  rw [decide_eq_true_eq] at *
  exact Nat.le_trans hfirst hsecond

theorem due_le_total (dueOf : β → Moment) (first second : β) :
    (decide (dueOf first ≤ dueOf second) || decide (dueOf second ≤ dueOf first)) = true := by
  rw [Bool.or_eq_true, decide_eq_true_eq, decide_eq_true_eq]
  exact Nat.le_total _ _

theorem pairwise_dueSort (dueOf : β → Moment) (line : List β) :
    (dueSort dueOf line).Pairwise fun first second => dueOf first ≤ dueOf second :=
  (List.pairwise_mergeSort (due_le_trans dueOf) (due_le_total dueOf) line).imp of_decide_eq_true

theorem filter_dueSort (dueOf : β → Moment) (line : List β) (due : Moment) :
    ((dueSort dueOf line).filter fun member => dueOf member = due) =
      line.filter fun member => dueOf member = due := by
  have hsame : (line.filter fun member => dueOf member = due).Pairwise fun first second =>
      decide (dueOf first ≤ dueOf second) = true := by
    refine List.pairwise_of_forall_mem_list fun first hfirst second hsecond => ?_
    rw [of_decide_eq_true (List.mem_filter.mp hfirst).2,
      of_decide_eq_true (List.mem_filter.mp hsecond).2]
    exact decide_eq_true (Nat.le_refl _)
  have hsub := (List.sublist_mergeSort (due_le_trans dueOf) (due_le_total dueOf) hsame
    List.filter_sublist).filter fun member => dueOf member = due
  simp only [List.filter_filter, Bool.and_self] at hsub
  exact (hsub.eq_of_length ((dueSort_perm dueOf line).filter _).length_eq.symm).symm

theorem sublist_of_dueSort {dueOf : β → Moment} {line : List β} {first second : β}
    (hpair : [first, second].Sublist (dueSort dueOf line)) (hdue : dueOf first = dueOf second) :
    [first, second].Sublist line := by
  have hboth := hpair.filter fun member => dueOf member = dueOf second
  rw [filter_dueSort, List.filter_eq_self.mpr (by simp [hdue])] at hboth
  exact hboth.trans List.filter_sublist

theorem map_dueSort {dueOf : β → Moment} {dueOf' : γ → Moment} {f : β → γ} {line : List β}
    (hdue : ∀ member ∈ line, dueOf member = dueOf' (f member)) :
    (dueSort dueOf line).map f = dueSort dueOf' (line.map f) :=
  List.map_mergeSort fun first hfirst second hsecond => by
    rw [hdue first hfirst, hdue second hsecond]

/-- Members that are due at different times come out in the same order, however they stood in
line. -/
theorem dueSort_eq_of_perm {dueOf dueOf' : β → Moment} {line line' : List β}
    (hperm : line'.Perm line) (hdue : ∀ member ∈ line, dueOf' member = dueOf member)
    (hdistinct : (line.map dueOf).Nodup) : dueSort dueOf' line' = dueSort dueOf line := by
  have hline : ∀ member ∈ dueSort dueOf' line', member ∈ line := by
    intro member hmember
    exact hperm.mem_iff.mp ((dueSort_perm dueOf' line').mem_iff.mp hmember)
  have hanti : ∀ first second, first ∈ dueSort dueOf' line' → second ∈ dueSort dueOf line →
      dueOf first ≤ dueOf second → dueOf second ≤ dueOf first → first = second := by
    intro first second hfirst hsecond hle hge
    have hsame : dueOf first = dueOf second := congrArg Moment.mk (Nat.le_antisymm hle hge)
    exact List.inj_on_of_nodup_map hdistinct (hline first hfirst)
      ((dueSort_perm dueOf line).mem_iff.mp hsecond) hsame
  have hsorted : (dueSort dueOf' line').Pairwise fun first second =>
      dueOf first ≤ dueOf second := by
    refine (pairwise_dueSort dueOf' line').imp_of_mem ?_
    intro first second hfirst hsecond hle
    rwa [hdue first (hline first hfirst), hdue second (hline second hsecond)] at hle
  have hall : (dueSort dueOf' line').Perm (dueSort dueOf line) :=
    (dueSort_perm dueOf' line').trans (hperm.trans (dueSort_perm dueOf line).symm)
  exact List.Perm.eq_of_pairwise hanti hsorted (pairwise_dueSort dueOf line) hall

end

/-- Entries that are in the order of their keys have been sorted stably by due time, if they were
lined up by number. -/
theorem eq_dueSort {entries line : List Entry}
    (hsorted : entries.Pairwise fun first second => first.key < second.key)
    (hline : line.Pairwise fun first second => first.key.seq < second.key.seq)
    (hperm : entries.Perm line) : entries = dueSort (fun entry => entry.key.due) line := by
  have hmerged : (dueSort (fun entry => entry.key.due) line).Pairwise fun first second =>
      first.key < second.key := by
    rw [List.pairwise_iff_forall_sublist]
    intro first second hpair
    have hle : first.key.due ≤ second.key.due :=
      List.pairwise_iff_forall_sublist.mp (pairwise_dueSort _ line) hpair
    rcases Moment.lt_or_eq_of_le hle with hlt | hdue
    · exact Or.inl hlt
    · have hbefore : [first, second].Sublist line := sublist_of_dueSort hpair hdue
      exact Or.inr ⟨hdue, List.pairwise_iff_forall_sublist.mp hline hbefore⟩
  have hanti : ∀ first second : Entry, first ∈ entries →
      second ∈ dueSort (fun entry => entry.key.due) line →
      first.key < second.key → second.key < first.key → first = second := by
    intro first second _ _ hlt hgt
    exact absurd hgt (Key.lt_asymm hlt)
  exact List.Perm.eq_of_pairwise hanti hsorted hmerged (hperm.trans (dueSort_perm _ line).symm)

namespace Queue

variable {caller : Nat} {queue : Queue} {operation : Operation} {capacity : Nat}
variable {now : Moment} {past : List (Queue × Operation)} {task : TaskId}

/-! ## The line -/

/-- The entries that are still queued, in the order in which they came in. -/
def lineUp : List (Queue × Operation) → List Entry
  | [] => []
  | (queue, operation) :: past =>
    (lineUp past).filter (fun entry => entry.task ∉ queue.dismissed operation) ++
      queue.entering operation

/-- The tasks that are still queued, in the order in which they were let in. -/
def inLine (past : List (Queue × Operation)) : List TaskId := (lineUp past).map Entry.task

/-- An operation that lets nobody in leaves those of whom no caller is told. -/
theorem WellFormed.perm_filter (hqueue : queue.WellFormed)
    (hperm : ((queue.apply operation).entries ++ queue.leaving operation).Perm queue.entries) :
    (queue.apply operation).entries.Perm
      (queue.entries.filter fun entry => entry.task ∉ queue.dismissed operation) := by
  have hnodup := ((hperm.map Entry.task).nodup_iff).mpr hqueue.tasks_nodup
  rw [List.map_append, hqueue.tasks_leaving, List.nodup_append] at hnodup
  obtain ⟨-, -, hdisjoint⟩ := hnodup
  have hfilter := hperm.filter fun entry => entry.task ∉ queue.dismissed operation
  rw [List.filter_append, List.filter_eq_self.mpr, List.filter_eq_nil_iff.mpr,
    List.append_nil] at hfilter
  · exact hfilter
  · intro entry hentry
    have htold : entry.task ∈ queue.dismissed operation :=
      hqueue.tasks_leaving operation ▸ List.mem_map_of_mem hentry
    simp [htold]
  · intro entry hentry
    refine decide_eq_true fun htold => ?_
    exact hdisjoint _ (List.mem_map_of_mem hentry) _ htold rfl

namespace Usage

variable {usage : Usage}

/-- The line is what is queued, and the numbers of the entries grow along it. -/
theorem Run.lined (hrun : Run capacity past usage) :
    usage.queue.entries.Perm (lineUp past) ∧
      (lineUp past).Pairwise fun first second => first.key.seq < second.key.seq := by
  induction hrun with
  | start => exact ⟨List.Perm.refl _, List.Pairwise.nil⟩
  | @operate past usage operation _ hrun _ _ ih =>
      obtain ⟨hperm, hline⟩ := ih
      have hqueue := hrun.wellFormed
      rw [lineUp]
      -- What comes in has the next number, and so it goes to the end of the line.
      cases usage.queue.flow operation with
      | inserts entry hinserted hputBack hleaving _ htakesIn
      | putsBack entry hinserted hputBack hleaving htakesIn =>
          have htold := hqueue.tasks_leaving operation
          rw [hleaving, List.map_nil] at htold
          rw [entering, hinserted, hputBack, ← htold, List.filter_eq_self.mpr (by simp)]
          refine ⟨htakesIn.entries_perm.trans ((hperm.cons entry).trans
            (List.perm_append_singleton entry _).symm), ?_⟩
          refine List.pairwise_append.mpr ⟨hline, List.pairwise_singleton _ _, ?_⟩
          intro earlier hearlier last hlast
          rw [List.mem_singleton.mp hlast, htakesIn.seq_eq]
          exact hqueue.seq_lt earlier (hperm.mem_iff.mpr hearlier)
      | letsGo hentering _ _ hleaves =>
          rw [hentering, List.append_nil]
          exact ⟨(hqueue.perm_filter (hleaves hqueue)).trans (hperm.filter _),
            hline.sublist List.filter_sublist⟩
  | rescheduled _ _ _ ih => exact ih

theorem Run.inLine_perm (hrun : Run capacity past usage) :
    (inLine past).Perm usage.queue.tasks :=
  (hrun.lined.1.map Entry.task).symm

/-- The queued tasks are the line, sorted by due time. -/
theorem Run.tasks_eq (hrun : Run capacity past usage) :
    usage.queue.tasks = dueSort usage.dueOf (inLine past) := by
  obtain ⟨hperm, hline⟩ := hrun.lined
  rw [tasks, eq_dueSort hrun.wellFormed.sorted hline hperm]
  exact map_dueSort fun entry hentry => hrun.due_eq entry (hperm.mem_iff.mpr hentry)

end Usage

/-! ## Taking from the line -/

/-- What takers are handed one after the other by at most `count` looks at the queue, until one
is not handed anything, and the queue after that. -/
def handOut (caller : Nat) (now : Moment) : Nat → Queue → List TaskId × Queue
  | 0, queue => ([], queue)
  | count + 1, queue =>
    match queue.take caller now with
    | (after, .task task) =>
      (task :: (handOut caller now count after).1, (handOut caller now count after).2)
    | (after, _) => ([], after)

theorem eq_cons_of_take (htask : (queue.take caller now).2 = .task task) :
    ∃ first rest, queue.entries = first :: rest ∧ first.task = task ∧ first.key.due ≤ now := by
  rcases queue.take_cases caller now with ⟨first, rest, hentries, hadmission, hdue⟩ | ⟨hnot, -, -⟩
  · rw [take_of_due hentries hadmission caller hdue] at htask
    exact ⟨first, rest, hentries, Taken.task.inj htask, hdue⟩
  · exact absurd htask (hnot task)

theorem handOut_of_empty (hentries : queue.entries = []) (count : Nat) :
    (queue.handOut caller now count).1 = [] ∧
      (queue.handOut caller now count).2.entries = [] := by
  cases count with
  | zero => exact ⟨rfl, hentries⟩
  | succ count =>
      rcases queue.take_cases caller now with ⟨first, rest, hcons, -, -⟩ | ⟨hnot, hsame, -⟩
      · exact absurd (hcons.symm.trans hentries) (List.cons_ne_nil _ _)
      · unfold handOut
        split
        · rename_i htake
          exact absurd (congrArg Prod.snd htake) (hnot _)
        · rename_i after _ _ htake
          rw [htake] at hsame
          exact ⟨rfl, hsame.trans hentries⟩

/-- A first entry that is due is handed out, and the looks that remain are at what remains. -/
theorem handOut_of_due {first : Entry} {rest : List Entry}
    (hentries : queue.entries = first :: rest) (hadmission : queue.admission ≠ .closed)
    (caller : Nat) (hdue : first.key.due ≤ now) :
    ∃ after : Queue, after.entries = rest ∧ after.admission = queue.admission ∧ ∀ count,
      queue.handOut caller now (count + 1) =
        (first.task :: (after.handOut caller now count).1, (after.handOut caller now count).2) := by
  have htake := take_of_due hentries hadmission caller hdue
  refine ⟨(queue.take caller now).1, ?_, ?_, fun count => ?_⟩
  · rw [htake]
  · rw [htake]
    rfl
  · rw [handOut, htake]

/-- All that is queued is handed out in its order, if it is due. -/
theorem handOut_eq (hadmission : queue.admission ≠ .closed)
    (hdue : ∀ entry ∈ queue.entries, entry.key.due ≤ now) {count : Nat}
    (hcount : queue.entries.length ≤ count) :
    (queue.handOut caller now count).1 = queue.tasks ∧
      (queue.handOut caller now count).2.entries = [] := by
  -- Each look takes the first entry, and leaves a queue with one entry less.
  induction hentries : queue.entries generalizing queue count with
  | nil =>
      rw [tasks, hentries]
      exact handOut_of_empty hentries count
  | cons first rest ih =>
      rw [hentries] at hdue hcount
      obtain ⟨after, rfl, hafter, hhanded⟩ :=
        handOut_of_due hentries hadmission caller (hdue first (List.mem_cons_self ..))
      have hlater : ∀ entry ∈ after.entries, entry.key.due ≤ now := by
        intro entry hentry
        exact hdue entry (List.mem_cons_of_mem _ hentry)
      cases count with
      | zero => exact absurd hcount (Nat.not_succ_le_zero _)
      | succ count =>
          obtain ⟨htold, hempty⟩ :=
            ih (hafter ▸ hadmission) hlater (Nat.le_of_succ_le_succ hcount) rfl
          rw [hhanded, tasks, hentries, htold]
          exact ⟨rfl, hempty⟩

/-- Whoever is removed before is left out, and the others are handed out in the same order. -/
theorem handOut_remove (hqueue : queue.WellFormed) (hadmission : queue.admission ≠ .closed)
    (hdue : ∀ entry ∈ queue.entries, entry.key.due ≤ now) {count : Nat}
    (hcount : queue.entries.length ≤ count) (task : TaskId) :
    ((queue.apply (.remove task)).handOut caller now count).1 =
      (queue.handOut caller now count).1.filter fun other => other != task := by
  have hsub := (queue.remove_rest task).2
  have hafter : (queue.apply (.remove task)).admission ≠ .closed :=
    queue.admission_remove task ▸ hadmission
  rw [(handOut_eq hafter (fun entry hentry => hdue entry (hsub.subset hentry))
      (Nat.le_trans hsub.length_le hcount)).1, (handOut_eq hadmission hdue hcount).1]
  exact hqueue.tasks_remove task

namespace Usage

variable {usage : Usage}

/-- Whoever is handed a task is handed the one that is due first, and among those that are due
at the same time the one that has stood in line for longest. -/
theorem Run.take_first (hrun : Run capacity past usage)
    (htask : (usage.queue.take caller now).2 = .task task) :
    task ∈ inLine past ∧ usage.dueOf task ≤ now ∧
      ∀ other ∈ inLine past, other ≠ task → usage.dueOf task < usage.dueOf other ∨
        usage.dueOf task = usage.dueOf other ∧ [task, other].Sublist (inLine past) := by
  obtain ⟨first, rest, hentries, rfl, hdue⟩ := eq_cons_of_take htask
  have htasks : usage.queue.tasks = first.task :: rest.map Entry.task :=
    congrArg (List.map Entry.task) hentries
  have hfirst : first ∈ usage.queue.entries := hentries ▸ List.mem_cons_self ..
  refine ⟨hrun.inLine_perm.mem_iff.mpr (List.mem_map_of_mem hfirst),
    hrun.due_eq first hfirst ▸ hdue, fun other hother hne => ?_⟩
  have hrest : other ∈ rest.map Entry.task := by
    have hmem := hrun.inLine_perm.mem_iff.mp hother
    rw [htasks] at hmem
    exact (List.mem_cons.mp hmem).resolve_left hne
  have hpair : [first.task, other].Sublist (dueSort usage.dueOf (inLine past)) := by
    rw [← hrun.tasks_eq, htasks]
    exact (List.singleton_sublist.mpr hrest).cons_cons _
  have hle := List.pairwise_iff_forall_sublist.mp (pairwise_dueSort _ _) hpair
  exact (Moment.lt_or_eq_of_le hle).imp id fun heq => ⟨heq, sublist_of_dueSort hpair heq⟩

/-- What is said of the line can be said of the entries. -/
theorem Run.entries_of_inLine (hrun : Run capacity past usage)
    (hdue : ∀ task ∈ inLine past, usage.dueOf task ≤ now) {count : Nat}
    (hcount : (inLine past).length ≤ count) :
    (∀ entry ∈ usage.queue.entries, entry.key.due ≤ now) ∧
      usage.queue.entries.length ≤ count := by
  refine ⟨fun entry hentry => ?_, ?_⟩
  · rw [hrun.due_eq entry hentry]
    exact hdue _ (hrun.inLine_perm.mem_iff.mpr (List.mem_map_of_mem hentry))
  · rwa [hrun.inLine_perm.length_eq, tasks, List.length_map] at hcount

theorem Run.handOut_eq (hrun : Run capacity past usage) (caller : Nat)
    (hadmission : usage.queue.admission ≠ .closed)
    (hdue : ∀ task ∈ inLine past, usage.dueOf task ≤ now) {count : Nat}
    (hcount : (inLine past).length ≤ count) :
    (usage.queue.handOut caller now count).1 = dueSort usage.dueOf (inLine past) ∧
      (usage.queue.handOut caller now count).2.entries = [] := by
  obtain ⟨hentries, hlength⟩ := hrun.entries_of_inLine hdue hcount
  rw [← hrun.tasks_eq]
  exact Queue.handOut_eq hadmission hentries hlength

/-- Tasks are handed out in the order of their due times, and in the order in which they were let
in if they are due at the same time.

However a queue has been used, as long as no task was brought while it was queued and its due
time stayed as it was while it was: a taker that is handed a task is handed one that is due, and
every other task in line is due later, or is due at the same time and was let in later.  If the
queue is not closed for good and everyone in line is due, takers that come one after the other
are handed the whole line, sorted stably by due time, and leave nothing behind.  If a task had
been removed before, they would have been handed the others in the same order.  And if no two of
the tasks are due at the same time, any other queue with these tasks hands them out in this
order, however they came to stand in line. -/
theorem Run.due_order (hrun : Run capacity past usage) (caller : Nat) (now : Moment) :
    (inLine past).Perm usage.queue.tasks ∧
      (∀ task, (usage.queue.take caller now).2 = .task task →
        task ∈ inLine past ∧ usage.dueOf task ≤ now ∧
        ∀ other ∈ inLine past, other ≠ task → usage.dueOf task < usage.dueOf other ∨
          usage.dueOf task = usage.dueOf other ∧ [task, other].Sublist (inLine past)) ∧
      (usage.queue.admission ≠ .closed → (∀ task ∈ inLine past, usage.dueOf task ≤ now) →
        ∀ count, (inLine past).length ≤ count →
          (usage.queue.handOut caller now count).1 = dueSort usage.dueOf (inLine past) ∧
          (usage.queue.handOut caller now count).2.entries = [] ∧
          (∀ task, ((usage.queue.apply (.remove task)).handOut caller now count).1 =
            (usage.queue.handOut caller now count).1.filter fun other => other != task) ∧
          ∀ bound history rival, Run bound history rival → rival.queue.admission ≠ .closed →
            (inLine history).Perm (inLine past) →
            (∀ task ∈ inLine past, rival.dueOf task = usage.dueOf task) →
            ((inLine past).map usage.dueOf).Nodup →
              (rival.queue.handOut caller now count).1 =
                (usage.queue.handOut caller now count).1) := by
  refine ⟨hrun.inLine_perm, fun _ htask => hrun.take_first htask,
    fun hadmission hdue count hcount => ?_⟩
  obtain ⟨htold, hempty⟩ := hrun.handOut_eq caller hadmission hdue hcount
  refine ⟨htold, hempty, fun task => ?_,
    fun bound history rival hrival hopen hperm hsame hdistinct => ?_⟩
  · obtain ⟨hentries, hlength⟩ := hrun.entries_of_inLine hdue hcount
    exact handOut_remove hrun.wellFormed hadmission hentries hlength task
  · have hdueThere : ∀ task ∈ inLine history, rival.dueOf task ≤ now := by
      intro task htask
      have hmem := hperm.mem_iff.mp htask
      rw [hsame task hmem]
      exact hdue task hmem
    have hcountThere : (inLine history).length ≤ count := hperm.length_eq ▸ hcount
    obtain ⟨htoldThere, -⟩ := hrival.handOut_eq caller hopen hdueThere hcountThere
    rw [htoldThere, htold, dueSort_eq_of_perm hperm hsame hdistinct]

theorem dueOf_of_follow {operations : List Operation}
    {result : List (Queue × Operation) × Usage}
    (hfollow : follow caller past usage operations = some result) :
    result.2.dueOf = usage.dueOf := by
  induction operations generalizing past usage with
  | nil =>
      obtain rfl := Option.some.inj hfollow
      rfl
  | cons operation rest ih =>
      unfold follow at hfollow
      split at hfollow
      · exact (ih hfollow :)
      · simp at hfollow

/-- Even tasks are due late and odd ones early. -/
def evenLate (task : TaskId) : Moment := if task % 2 = 0 then ⟨5⟩ else ⟨3⟩

/-- Four tasks are let in.  The early one that came first is taken and returns, so that it stands
behind the other one, and a late one is removed.  Two tasks with different due times are handed
out in the same order, whichever was let in first. -/
theorem due_order_after_return_and_removal :
    (∃ past usage, Run 0 past usage ∧ inLine past = [0, 3, 1] ∧
      (usage.queue.take 0 ⟨5⟩).2 = .task 3 ∧
      (∀ other ∈ inLine past, other ≠ 3 → usage.dueOf 3 < usage.dueOf other ∨
        usage.dueOf 3 = usage.dueOf other ∧ [3, other].Sublist (inLine past)) ∧
      (usage.queue.handOut 0 ⟨5⟩ 3).1 = [3, 1, 0] ∧ dueSort evenLate [0, 3, 1] = [3, 1, 0] ∧
      ((usage.queue.apply (.remove 1)).handOut 0 ⟨5⟩ 3).1 = [3, 0]) ∧
    ∃ past usage history rival, Run 0 past usage ∧ Run 0 history rival ∧
      inLine past = [0, 1] ∧ inLine history = [1, 0] ∧
      (usage.queue.handOut 0 ⟨5⟩ 2).1 = [1, 0] ∧ (rival.queue.handOut 0 ⟨5⟩ 2).1 = [1, 0] := by
  have hpast : ∀ task ∈ [0, 3, 1], evenLate task ≤ ⟨5⟩ := by decide
  have hshort : ∀ task ∈ [0, 1], evenLate task ≤ ⟨5⟩ := by decide
  constructor
  · have hfollow : (follow 0 [] ⟨new 0, evenLate⟩
        [.tryInsert 0 false ⟨5⟩, .tryInsert 1 true ⟨3⟩, .tryInsert 2 false ⟨5⟩,
          .tryInsert 3 false ⟨3⟩, .take 0 ⟨3⟩, .requeue 1 true false ⟨3⟩, .remove 2]).map
          (fun result => (inLine result.1, result.2.queue.admission,
            (result.2.queue.take 0 ⟨5⟩).2, (result.2.queue.handOut 0 ⟨5⟩ 3).1)) =
        some ([0, 3, 1], .accepting, .task 3, [3, 1, 0]) := by
      decide +kernel
    obtain ⟨⟨past, usage⟩, hresult, hparts⟩ := Option.map_eq_some_iff.mp hfollow
    simp only [Prod.mk.injEq] at hparts
    obtain ⟨hline, hopen, htask, hhanded⟩ := hparts
    have hrun := Run.of_follow (.start _) hresult
    have hdueOf : usage.dueOf = evenLate := dueOf_of_follow hresult
    obtain ⟨-, htake, hall⟩ := hrun.due_order 0 ⟨5⟩
    obtain ⟨-, -, hlater⟩ := htake 3 htask
    obtain ⟨hsorted, -, hremove, -⟩ := hall (by rw [hopen]; decide)
      (by rw [hline, hdueOf]; exact hpast) 3 (by rw [hline]; decide)
    rw [hhanded, hline, hdueOf] at hsorted
    refine ⟨past, usage, hrun, hline, htask, hlater, hhanded, hsorted.symm, ?_⟩
    rw [hremove 1, hhanded]
    decide
  · have hhere : (follow 0 [] ⟨new 0, evenLate⟩
        [.tryInsert 0 false ⟨5⟩, .tryInsert 1 false ⟨3⟩]).map
          (fun result => (inLine result.1, result.2.queue.admission,
            (result.2.queue.handOut 0 ⟨5⟩ 2).1)) = some ([0, 1], .accepting, [1, 0]) := by
      decide +kernel
    have hthere : (follow 0 [] ⟨new 0, evenLate⟩
        [.tryInsert 1 false ⟨3⟩, .tryInsert 0 false ⟨5⟩]).map
          (fun result => (inLine result.1, result.2.queue.admission)) =
        some ([1, 0], .accepting) := by
      decide +kernel
    obtain ⟨⟨past, usage⟩, hresult, hparts⟩ := Option.map_eq_some_iff.mp hhere
    obtain ⟨⟨history, rival⟩, hrivals, hrivalParts⟩ := Option.map_eq_some_iff.mp hthere
    simp only [Prod.mk.injEq] at hparts hrivalParts
    obtain ⟨hline, hopen, hhanded⟩ := hparts
    obtain ⟨hrivalLine, hrivalOpen⟩ := hrivalParts
    have hrun := Run.of_follow (.start _) hresult
    have hrival := Run.of_follow (.start _) hrivals
    have hdueOf : usage.dueOf = evenLate := dueOf_of_follow hresult
    have hrivalDueOf : rival.dueOf = evenLate := dueOf_of_follow hrivals
    obtain ⟨-, -, hall⟩ := hrun.due_order 0 ⟨5⟩
    obtain ⟨-, -, -, hsame⟩ := hall (by rw [hopen]; decide)
      (by rw [hline, hdueOf]; exact hshort) 2 (by rw [hline]; decide)
    refine ⟨past, usage, history, rival, hrun, hrival, hline, hrivalLine, hhanded, ?_⟩
    rw [hsame 0 history rival hrival (by rw [hrivalOpen]; decide)
      (by rw [hline, hrivalLine]; exact List.Perm.swap ..) (fun _ _ => by rw [hdueOf, hrivalDueOf])
      (by rw [hline, hdueOf]; decide), hhanded]

end Usage

end Queue

end TimedTasks
