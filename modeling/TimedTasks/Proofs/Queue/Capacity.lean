import TimedTasks.Proofs.Queue.Traffic

/-!
# How many entries a bounded queue holds

A queue with a capacity can hold more entries than that: a task that returns is let in whether
or not there is room.  So the bound is not on the entries but on those of them that were
brought (`Course.countP_inserted_le`), and every entry beyond the capacity is matched by one that
was put back.

Nothing has to be known of how a producer comes to be admitted.  Whether it finds room at once,
is woken by an entry that leaves or by a queue that begins to drain, alone or together with
others, it looks again for itself and comes in only when there is room.
-/

namespace TimedTasks

namespace Queue

variable {queue : Queue} {operation : Operation} {capacity : Nat} {entry : Entry}
variable {past : List (Queue × Operation)}

theorem mem_gathered_entering :
    entry ∈ gathered entering past ↔
      entry ∈ gathered inserted past ∨ entry ∈ gathered putBack past := by
  simp only [gathered, entering, List.mem_flatMap, List.mem_append, and_or_left, exists_or]

/-- What a course says about the entries of the queue that it has led to. -/
structure Told (past : List (Queue × Operation)) (queue : Queue) : Prop where
  seq_lt : ∀ entry ∈ gathered entering past, entry.key.seq < queue.nextSeq
  came_in : ∀ entry ∈ queue.entries, entry ∈ gathered entering past
  /-- No entry has come in both ways. -/
  one_way : ∀ entry ∈ gathered inserted past, entry ∉ gathered putBack past

namespace Told

/-- The next entry is none of those that have come in already. -/
theorem not_mem (htold : Told past queue) (hseq : entry.key.seq = queue.nextSeq) :
    entry ∉ gathered inserted past ∧ entry ∉ gathered putBack past := by
  have hnew : entry ∉ gathered entering past := fun hmem => by
    have hlt := htold.seq_lt entry hmem
    omega
  exact not_or.mp (mt mem_gathered_entering.mpr hnew)

theorem takesIn (htold : Told past queue)
    (htakesIn : TakesIn queue (queue.apply operation) entry)
    (hentering : queue.entering operation = [entry]) :
    (∀ other ∈ gathered entering ((queue, operation) :: past),
        other.key.seq < (queue.apply operation).nextSeq) ∧
      ∀ other ∈ (queue.apply operation).entries,
        other ∈ gathered entering ((queue, operation) :: past) := by
  rw [gathered_cons, hentering, List.singleton_append, htakesIn.nextSeq_eq]
  constructor
  · intro other hother
    rcases List.mem_cons.mp hother with rfl | hother
    · exact Nat.lt_succ_of_le (Nat.le_of_eq htakesIn.seq_eq)
    · exact Nat.lt_succ_of_lt (htold.seq_lt other hother)
  · intro other hother
    rcases List.mem_cons.mp (htakesIn.entries_perm.mem_iff.mp hother) with rfl | hother
    · exact List.mem_cons_self ..
    · exact List.mem_cons_of_mem _ (htold.came_in other hother)

theorem step (htold : Told past queue) :
    Told ((queue, operation) :: past) (queue.apply operation) := by
  cases queue.flow operation with
  | inserts entry hinserted hputBack _ _ htakesIn =>
      obtain ⟨hseq, hcame⟩ := htold.takesIn htakesIn (by rw [entering, hinserted, hputBack]; rfl)
      refine ⟨hseq, hcame, fun other hother => ?_⟩
      rw [gathered_cons, hinserted] at hother
      rw [gathered_cons, hputBack, List.nil_append]
      rcases List.mem_cons.mp hother with rfl | hother
      · exact (htold.not_mem htakesIn.seq_eq).2
      · exact htold.one_way other hother
  | putsBack entry hinserted hputBack _ htakesIn =>
      obtain ⟨hseq, hcame⟩ := htold.takesIn htakesIn (by rw [entering, hinserted, hputBack]; rfl)
      refine ⟨hseq, hcame, fun other hother => ?_⟩
      rw [gathered_cons, hinserted, List.nil_append] at hother
      rw [gathered_cons, hputBack, List.singleton_append, List.mem_cons, not_or]
      refine ⟨?_, htold.one_way other hother⟩
      rintro rfl
      exact (htold.not_mem htakesIn.seq_eq).1 hother
  | letsGo hentering hentries hnextSeq =>
      obtain ⟨hinserted, hputBack⟩ := List.append_eq_nil_iff.mp hentering
      constructor
      · rw [gathered_cons, hentering, hnextSeq]
        exact htold.seq_lt
      · rw [gathered_cons, hentering]
        exact fun other hother => htold.came_in other (hentries.subset hother)
      · rw [gathered_cons, gathered_cons, hinserted, hputBack]
        exact htold.one_way

end Told

theorem Course.told (hcourse : Course (new capacity) past queue) : Told past queue := by
  induction hcourse with
  | start =>
      constructor
      · exact fun _ hentry => absurd hentry List.not_mem_nil
      · exact fun _ hentry => absurd hentry List.not_mem_nil
      · exact fun _ hentry => absurd hentry List.not_mem_nil
  | step _ _ ih => exact ih.step

/-- The entries that were brought fit into the queue. -/
theorem Course.countP_inserted_le (hcapacity : capacity ≠ 0)
    (hcourse : Course (new capacity) past queue) :
    queue.entries.countP (fun entry => decide (entry ∈ gathered inserted past)) ≤ capacity := by
  induction hcourse with
  | start => exact Nat.zero_le _
  | @step past queue operation _ hcourse _ ih =>
      have hbounded : queue.capacity? = some capacity :=
        hcourse.capacity_eq.trans (by simp [new, hcapacity])
      cases queue.flow operation with
      | inserts entry _ _ _ hroom htakesIn =>
          -- Even with the new entry, there are no more entries than places.
          have hplace : ¬ capacity ≤ queue.size := fun hle =>
            Bool.false_ne_true (hroom.symm.trans ((isFull_iff hbounded).mpr hle))
          have hlength := htakesIn.entries_perm.length_eq
          have hcount := List.countP_le_length (l := (queue.apply operation).entries)
            (p := fun entry => decide (entry ∈ gathered inserted ((queue, operation) :: past)))
          rw [List.length_cons] at hlength
          rw [size] at hplace
          omega
      | putsBack entry hinserted _ _ htakesIn =>
          have hnew := (hcourse.told.not_mem htakesIn.seq_eq).1
          rw [gathered_cons, hinserted, List.nil_append, htakesIn.entries_perm.countP_eq,
            List.countP_cons_of_neg (by simpa using hnew)]
          exact ih
      | letsGo hentering hentries =>
          rw [gathered_cons, (List.append_eq_nil_iff.mp hentering).1, List.nil_append]
          exact Nat.le_trans (hentries.countP_le ..) ih

/-- Whether an operation, if it brings a task back, brings a periodic one. -/
def Operation.ReturnsPeriodic : Operation → Prop
  | .requeue _ periodic _ _ => periodic = true
  | _ => True

instance : (operation : Operation) → Decidable operation.ReturnsPeriodic
  | .requeue _ _ _ _ => inferInstanceAs (Decidable (_ = true))
  | .insert .. | .resume .. | .tryInsert .. | .take .. | .remove _ | .close _ | .wake
  | .expire _ => .isTrue trivial

theorem periodic_of_putBack (hreturns : operation.ReturnsPeriodic)
    (hentry : entry ∈ queue.putBack operation) : entry.periodic = true := by
  cases operation with
  | requeue task periodic cancelled due =>
      simp only [putBack] at hentry
      split at hentry
      · rw [List.mem_singleton.mp hentry]
        exact hreturns
      · exact absurd hentry List.not_mem_nil
  | _ => exact absurd hentry List.not_mem_nil

/-- What is put back is periodic if nothing else is ever brought back. -/
theorem periodic_of_gathered (hreturns : ∀ moment ∈ past, moment.2.ReturnsPeriodic)
    (hentry : entry ∈ gathered putBack past) : entry.periodic = true := by
  obtain ⟨moment, hmoment, hput⟩ := List.mem_flatMap.mp hentry
  exact periodic_of_putBack (hreturns moment hmoment) hput

theorem Told.one_of_two (htold : Told past queue) (hentry : entry ∈ queue.entries) :
    Xor (entry ∈ gathered inserted past) (entry ∈ gathered putBack past) := by
  rcases mem_gathered_entering.mp (htold.came_in entry hentry) with hbrought | hput
  · exact Or.inl ⟨hbrought, htold.one_way entry hbrought⟩
  · exact Or.inr ⟨hput, fun hbrought => htold.one_way entry hbrought hput⟩

theorem Course.countP_one_shots_le (hcapacity : capacity ≠ 0)
    (hcourse : Course (new capacity) past queue)
    (hreturns : ∀ moment ∈ past, moment.2.ReturnsPeriodic) :
    queue.entries.countP (fun entry => !entry.periodic) ≤ capacity := by
  refine Nat.le_trans (List.countP_mono_left fun entry hentry honce => ?_)
    (hcourse.countP_inserted_le hcapacity)
  rcases hcourse.told.one_of_two hentry with ⟨hbrought, -⟩ | ⟨hput, -⟩
  · exact decide_eq_true hbrought
  · simp [periodic_of_gathered hreturns hput] at honce

/-- Backpressure bounds what is brought, and only a task that returns can go beyond it.

In whatever way a bounded queue has come to hold its entries, each of them was either brought
or put back, and not both; at most as many as the capacity were brought; and beyond the
capacity there are no more entries than were put back.  When only periodic tasks are put back,
the entries beyond the capacity are matched by periodic ones, and the one-shot tasks keep
within the capacity by themselves. -/
theorem Course.within_capacity (hcapacity : capacity ≠ 0)
    (hcourse : Course (new capacity) past queue) :
    (∀ entry ∈ queue.entries,
        Xor (entry ∈ gathered inserted past) (entry ∈ gathered putBack past)) ∧
      queue.entries.countP (fun entry => decide (entry ∈ gathered inserted past)) ≤ capacity ∧
      queue.size ≤ capacity +
        queue.entries.countP (fun entry => decide (entry ∈ gathered putBack past)) ∧
      ((∀ moment ∈ past, moment.2.ReturnsPeriodic) →
        (∀ entry ∈ gathered putBack past, entry.periodic = true) ∧
          queue.entries.countP (fun entry => !entry.periodic) ≤ capacity) := by
  have htold := hcourse.told
  have hinserted := hcourse.countP_inserted_le hcapacity
  refine ⟨fun entry hentry => htold.one_of_two hentry, hinserted, ?_, fun hreturns =>
    ⟨fun entry hentry => periodic_of_gathered hreturns hentry,
      hcourse.countP_one_shots_le hcapacity hreturns⟩⟩
  have hsplit := queue.entries.length_eq_countP_add_countP
    fun entry => decide (entry ∈ gathered inserted past)
  have hothers : queue.entries.countP
        (fun entry => decide ¬ decide (entry ∈ gathered inserted past) = true) ≤
      queue.entries.countP fun entry => decide (entry ∈ gathered putBack past) := by
    refine List.countP_mono_left fun entry hentry hnot => ?_
    rcases htold.one_of_two hentry with ⟨hbrought, -⟩ | ⟨hput, -⟩
    · exact absurd hbrought (by simpa using hnot)
    · exact decide_eq_true hput
  rw [size]
  omega

/-- A task that returns overfills a queue with one place, in front of which a producer sleeps: of
the two entries one was brought, and the other was put back. -/
theorem within_capacity_when_overfull :
    ∃ past queue, Course (new 1) past queue ∧ queue.size = 2 ∧
      queue.producers.asleep = [⟨2, 2, false⟩] ∧
      queue.entries.countP (fun entry => decide (entry ∈ gathered inserted past)) ≤ 1 ∧
      queue.size ≤ 1 + queue.entries.countP (fun entry => decide (entry ∈ gathered putBack past)) ∧
      queue.entries.countP (fun entry => !entry.periodic) ≤ 1 := by
  have hfollow : (follow 0 [] (new 1)
      [.insert ⟨0, 0, true⟩ .origin, .take 0 .origin, .insert ⟨1, 1, false⟩ .origin,
        .insert ⟨2, 2, false⟩ .origin, .requeue 0 true false .origin]).map (fun result =>
          (decide (∀ moment ∈ result.1, moment.2.ReturnsPeriodic), result.2.size,
            result.2.producers.asleep)) =
      some (true, 2, [⟨2, 2, false⟩]) := by
    decide +kernel
  obtain ⟨⟨past, queue⟩, hresult, hparts⟩ := Option.map_eq_some_iff.mp hfollow
  simp only [Prod.mk.injEq, decide_eq_true_eq] at hparts
  obtain ⟨hreturns, hsize, hasleep⟩ := hparts
  have hcourse := Course.of_follow .start hresult
  obtain ⟨-, hinserted, hbound, hperiodic⟩ := hcourse.within_capacity (by decide : 1 ≠ 0)
  exact ⟨past, queue, hcourse, hsize, hasleep, hinserted, hbound, (hperiodic hreturns).2⟩

end Queue

end TimedTasks
