import Mathlib.Data.List.Nodup
import Mathlib.Data.List.Perm.Basic
import TimedTasks.Proofs.Agenda
import TimedTasks.Proofs.Scheduler.Move

/-!
# Calls and jobs

The calls in progress have different numbers, and the jobs have different workers.  What
`reply`, `goOn`, `release` and `goOnWith` do can therefore be said of one call or job and
the others, in any order: the others stay, and the one goes on or goes away.
-/

namespace TimedTasks

/-! ## Lists whose items have different keys -/

section Keyed

variable {β : Type} {key : β → Nat} {items : List β} {item : β}

theorem perm_cons_filter_key_ne (key : β → Nat) (hnodup : (items.map key).Nodup)
    (hitem : item ∈ items) :
    items.Perm (item :: items.filter fun other => key other != key item) := by
  obtain ⟨earlier, later, rfl⟩ := List.append_of_mem hitem
  rw [List.map_append, List.map_cons, List.nodup_append, List.nodup_cons] at hnodup
  obtain ⟨-, ⟨hlater, -⟩, hearlier⟩ := hnodup
  have hkeepEarlier : earlier.filter (fun other => key other != key item) = earlier := by
    refine List.filter_eq_self.mpr fun other hother => bne_iff_ne.mpr ?_
    exact hearlier _ (List.mem_map_of_mem hother) _ (List.mem_cons_self ..)
  have hkeepLater : later.filter (fun other => key other != key item) = later := by
    refine List.filter_eq_self.mpr fun other hother => bne_iff_ne.mpr fun heq => hlater ?_
    exact heq ▸ List.mem_map_of_mem hother
  rw [List.filter_append, List.filter_cons_of_neg (by simp), hkeepEarlier, hkeepLater]
  exact List.perm_middle

theorem flatMap_perm_append {γ : Type} (hnodup : (items.map key).Nodup) (hitem : item ∈ items)
    (f : β → List γ) :
    (items.flatMap f).Perm
      (f item ++ (items.filter fun other => key other != key item).flatMap f) :=
  (perm_cons_filter_key_ne key hnodup hitem).flatMap_right f

theorem perm_map_replace (hnodup : (items.map key).Nodup) (hitem : item ∈ items) (fresh : β) :
    (items.map fun other => if key other = key item then fresh else other).Perm
      (fresh :: items.filter fun other => key other != key item) := by
  refine ((perm_cons_filter_key_ne key hnodup hitem).map _).trans ?_
  rw [List.map_cons, if_pos rfl]
  refine List.Perm.cons fresh (List.Perm.of_eq ?_)
  refine (List.map_congr_left fun other hother => ?_).trans (List.map_id _)
  exact if_neg (bne_iff_ne.mp (List.mem_filter.mp hother).2)

theorem map_key_replace (item : β) {fresh : β} (hfresh : key fresh = key item) :
    (items.map fun other => if key other = key item then fresh else other).map key =
      items.map key := by
  rw [List.map_map]
  refine List.map_congr_left fun other _ => ?_
  by_cases hkey : key other = key item
  · simp [hkey, hfresh]
  · simp [hkey]

end Keyed

theorem perm_cons_eraseIdx {items : List TaskId} {position : Nat} {item : TaskId}
    (hitem : items[position]? = some item) : items.Perm (item :: items.eraseIdx position) := by
  obtain ⟨hlt, hget⟩ := List.getElem?_eq_some_iff.mp hitem
  have herase := List.erase_getElem hlt
  rw [hget] at herase
  exact (List.perm_cons_erase (List.mem_of_getElem? hitem)).trans (herase.cons item)

namespace Scheduler

variable {α : Type} {origin before after : Scheduler α} {action : Action α}

/-! ## The calls in progress -/

/-- Calls have different numbers, and the next one is new. -/
structure Numbered (scheduler : Scheduler α) : Prop where
  nodup : (scheduler.calls.map Prod.fst).Nodup
  lt_next : ∀ call ∈ scheduler.calls, call.1 < scheduler.nextCall

/-- The calls other than one. -/
def otherCalls (scheduler : Scheduler α) (call : CallId) : List (CallId × Call) :=
  scheduler.calls.filter fun other => other.1 != call

namespace Numbered

/-- What the calls amount to is what one of them does and what the others do. -/
theorem flatMap_perm {β : Type} (hnumbered : before.Numbered) {call : CallId} {stage : Call}
    (hcall : (call, stage) ∈ before.calls) (f : CallId × Call → List β) :
    (before.calls.flatMap f).Perm (f (call, stage) ++ (before.otherCalls call).flatMap f) :=
  flatMap_perm_append hnumbered.nodup hcall f

theorem flatMap_goOn {β : Type} (hnumbered : before.Numbered) {call : CallId} {stage : Call}
    (hcall : (call, stage) ∈ before.calls) (next : Call) (f : CallId × Call → List β) :
    ((before.goOn call next).calls.flatMap f).Perm
      (f (call, next) ++ (before.otherCalls call).flatMap f) :=
  (perm_map_replace hnumbered.nodup hcall (call, next)).flatMap_right f

theorem flatMap_goOn_same {β : Type} (hnumbered : before.Numbered) {call : CallId} {stage : Call}
    (hcall : (call, stage) ∈ before.calls) (next : Call) (f : CallId × Call → List β)
    (hsame : f (call, next) = f (call, stage)) :
    ((before.goOn call next).calls.flatMap f).Perm (before.calls.flatMap f) :=
  (hsame ▸ hnumbered.flatMap_goOn hcall next f).trans (hnumbered.flatMap_perm hcall f).symm

theorem eq_of_mem (hnumbered : before.Numbered) {call : CallId} {stage other : Call}
    (hcall : (call, stage) ∈ before.calls) (hother : (call, other) ∈ before.calls) :
    other = stage :=
  congrArg Prod.snd (List.inj_on_of_nodup_map hnumbered.nodup hother hcall rfl)

theorem lookup_eq (hnumbered : before.Numbered) {call : CallId} {stage : Call}
    (hcall : (call, stage) ∈ before.calls) : before.calls.lookup call = some stage := by
  cases hlookup : before.calls.lookup call with
  | none => simpa using List.lookup_eq_none_iff.mp hlookup _ hcall
  | some other =>
      rw [hnumbered.eq_of_mem hcall (mem_calls_of_lookup hlookup)]

theorem otherCalls_next (hnumbered : before.Numbered) :
    before.otherCalls before.nextCall = before.calls :=
  List.filter_eq_self.mpr fun call hcall =>
    bne_iff_ne.mpr (Nat.ne_of_lt (hnumbered.lt_next call hcall))

theorem of_goOn (hnumbered : before.Numbered) {call : CallId} {next : Call}
    (hcalls : after.calls = before.calls) (hnext : after.nextCall = before.nextCall) :
    (after.goOn call next).Numbered := by
  have hkeys : (after.goOn call next).calls.map Prod.fst = before.calls.map Prod.fst := by
    rw [← hcalls]
    exact map_key_replace (call, next) rfl
  constructor
  · exact hkeys ▸ hnumbered.nodup
  · intro other hother
    have hmem : other.1 ∈ before.calls.map Prod.fst := hkeys ▸ List.mem_map_of_mem hother
    obtain ⟨same, hsame, heq⟩ := List.mem_map.mp hmem
    show other.1 < after.nextCall
    rw [hnext, ← heq]
    exact hnumbered.lt_next same hsame

theorem of_reply (hnumbered : before.Numbered) {call : CallId} {answer : Answer}
    (hcalls : after.calls = before.calls) (hnext : before.nextCall ≤ after.nextCall) :
    (after.reply call answer).Numbered where
  nodup := (hcalls ▸ hnumbered.nodup : (after.calls.map Prod.fst).Nodup).sublist
    (List.filter_sublist.map _)
  lt_next := fun other hother => Nat.lt_of_lt_of_le
    (hnumbered.lt_next other (hcalls ▸ List.mem_of_mem_filter hother)) hnext

theorem of_opened (hnumbered : before.Numbered) {stage : Call} (hcalls : after.calls = before.calls)
    (hnext : after.nextCall = before.nextCall + 1) :
    (after.opened before.nextCall stage).Numbered := by
  have hfresh : before.nextCall ∉ before.calls.map Prod.fst := by
    intro hmem
    obtain ⟨call, hcall, heq⟩ := List.mem_map.mp hmem
    exact absurd heq (Nat.ne_of_lt (hnumbered.lt_next call hcall))
  constructor
  · show ((after.calls ++ [(before.nextCall, stage)]).map Prod.fst).Nodup
    rw [hcalls, List.map_append, List.nodup_append]
    refine ⟨hnumbered.nodup, List.nodup_singleton _, fun call hcall other hother heq => ?_⟩
    rw [List.map_singleton, List.mem_singleton] at hother
    have hsame : call = before.nextCall := heq.trans hother
    exact hfresh (hsame ▸ hcall)
  · intro call hcall
    show call.1 < after.nextCall
    rw [hnext]
    rcases List.mem_append.mp hcall with hcall | hcall
    · exact Nat.lt_succ_of_lt (hnumbered.lt_next call (hcalls ▸ hcall))
    · rw [List.mem_singleton.mp hcall]
      exact Nat.lt_succ_self _

end Numbered

theorem mem_calls_goOn {call : CallId} {next : Call} {item : CallId × Call}
    (hitem : item ∈ (before.goOn call next).calls) :
    item ∈ before.calls ∨ item = (call, next) := by
  obtain ⟨other, hother, heq⟩ := List.mem_map.mp hitem
  by_cases hcall : other.1 = call
  · rw [if_pos hcall] at heq
    exact Or.inr heq.symm
  · rw [if_neg hcall] at heq
    exact Or.inl (heq ▸ hother)

theorem mem_calls_opened {call : CallId} {stage : Call} {item : CallId × Call}
    (hitem : item ∈ (before.opened call stage).calls) :
    item ∈ before.calls ∨ item = (call, stage) :=
  (List.mem_append.mp hitem).imp_right List.mem_singleton.mp

theorem Move.numbered (hmove : Move origin action before after) (hnumbered : before.Numbered) :
    after.Numbered := by
  cases hmove with
  | refused => exact hnumbered.of_reply rfl (Nat.le_succ _)
  | drafted | cancelBegun | shutdownBegun => exact hnumbered.of_opened rfl rfl
  | turnedAway | admitted | resumedRefused | resumedAdmitted | removed | claimRefused
  | sweepDone =>
      exact hnumbered.of_reply rfl (Nat.le_refl _)
  | parked | parkedAgain | claimed | closed | swept | passedOver => exact hnumbered.of_goOn rfl rfl
  | _ => exact ⟨hnumbered.nodup, hnumbered.lt_next⟩

/-! ## The jobs -/

/-- Jobs have different workers. -/
def Staffed (scheduler : Scheduler α) : Prop :=
  (scheduler.jobs.map Job.worker).Nodup

namespace Staffed

theorem flatMap_perm {β : Type} (hstaffed : before.Staffed) {job : Job α}
    (hjob : job ∈ before.jobs) (f : Job α → List β) :
    (before.jobs.flatMap f).Perm (f job ++ (before.release job.worker).jobs.flatMap f) :=
  flatMap_perm_append hstaffed hjob f

theorem flatMap_goOnWith {β : Type} (hstaffed : before.Staffed) {job : Job α}
    (hjob : job ∈ before.jobs) (stage : Stage α) (f : Job α → List β) :
    ((before.goOnWith job stage).jobs.flatMap f).Perm
      (f { job with stage } ++ (before.release job.worker).jobs.flatMap f) :=
  (perm_map_replace hstaffed hjob { job with stage }).flatMap_right f

theorem of_goOnWith (hstaffed : before.Staffed) (job : Job α) (stage : Stage α) :
    (before.goOnWith job stage).Staffed := by
  have hworkers : (before.goOnWith job stage).jobs.map Job.worker =
      before.jobs.map Job.worker :=
    map_key_replace job rfl
  exact (congrArg List.Nodup hworkers).mpr hstaffed

theorem of_release (hstaffed : before.Staffed) (worker : Nat) :
    (before.release worker).Staffed :=
  List.Nodup.sublist (List.filter_sublist.map _) hstaffed

end Staffed

theorem mem_jobs_goOnWith {job item : Job α} {stage : Stage α}
    (hitem : item ∈ (before.goOnWith job stage).jobs) :
    item ∈ before.jobs ∨ item = { job with stage } := by
  obtain ⟨other, hother, heq⟩ := List.mem_map.mp hitem
  by_cases hworker : other.worker = job.worker
  · rw [if_pos hworker] at heq
    exact Or.inr heq.symm
  · rw [if_neg hworker] at heq
    exact Or.inl (heq ▸ hother)

theorem Move.staffed (hmove : Move origin action before after) (hstaffed : before.Staffed) :
    after.Staffed := by
  cases hmove with
  | @tookUp position task worker _ hworker =>
      have hfree := List.mem_of_getElem? hworker
      show ((before.jobs ++ [_]).map Job.worker).Nodup
      rw [List.map_append, List.nodup_append]
      refine ⟨hstaffed, List.nodup_singleton _, fun busy hbusy other hother heq => ?_⟩
      obtain ⟨job, hjob, rfl⟩ := List.mem_map.mp hbusy
      have hnot := (List.mem_filter.mp hfree).2
      obtain ⟨turn?, henter⟩ := before.agenda.enter_snd task worker before.agenda.reading
      rw [List.map_singleton, List.mem_singleton, henter] at hother
      rw [Bool.not_eq_true', List.any_eq_false] at hnot
      exact hnot job hjob (beq_iff_eq.mpr (heq.trans hother))
  | skipped | requeueRefused => exact hstaffed.of_goOnWith _ _
  | ended | rearmed => exact Staffed.of_goOnWith hstaffed _ _
  | settled | lostUncounted | requeued | dropped => exact Staffed.of_release hstaffed _
  | letGo => exact hstaffed.of_release _
  | _ => exact hstaffed

end Scheduler

end TimedTasks
