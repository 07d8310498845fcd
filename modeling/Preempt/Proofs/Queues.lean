import Mathlib.Data.List.Nodup
import Preempt.Queue.Ready
import Preempt.Queue.Sleep
import Preempt.Queue.Waiters

/-!
# What the queues hold

A queue is described by the condition that its members meet: `Listed list
belongs` says that `list` holds exactly the elements that `belongs` selects,
each of them once. Every operation of a queue adds or removes one element up to
order, so what it lists afterwards follows from a permutation (`Listed.add`,
`Listed.remove`).

The ready queue is besides in order of priority, which every operation keeps
(`sorted_push`, `sorted_erase`, `sorted_resort`).
-/

set_option autoImplicit false

namespace Preempt

/-! ## Lists described by a condition -/

section Listing

variable {α : Type} {list shorter : List α} {belongs remains : α → Prop} {x : α}

/-- The list holds exactly the elements that meet the condition, each once. -/
structure Listed (list : List α) (belongs : α → Prop) : Prop where
  nodup : list.Nodup
  mem_iff : ∀ x, x ∈ list ↔ belongs x

theorem Listed.congr (listed : Listed list belongs) (same : ∀ x, belongs x ↔ remains x) :
    Listed list remains :=
  ⟨listed.nodup, fun x => (listed.mem_iff x).trans (same x)⟩

/-- Two lists of the same elements differ in their order only. -/
theorem Listed.perm {other : List α} (listed : Listed list belongs) (also : Listed other belongs) :
    list.Perm other :=
  (List.perm_ext_iff_of_nodup listed.nodup also.nodup).mpr fun x =>
    (listed.mem_iff x).trans (also.mem_iff x).symm

theorem Listed.add {longer : List α} (listed : Listed list belongs) (absent : ¬ belongs x)
    (perm : longer.Perm (x :: list)) (grows : ∀ y, remains y ↔ y = x ∨ belongs y) :
    Listed longer remains where
  nodup := by
    rw [perm.nodup_iff, List.nodup_cons]
    exact ⟨fun member => absent ((listed.mem_iff x).mp member), listed.nodup⟩
  mem_iff y := by
    rw [perm.mem_iff, List.mem_cons, listed.mem_iff, grows]

theorem Listed.remove (listed : Listed list belongs) (perm : list.Perm (x :: shorter))
    (shrinks : ∀ y, remains y ↔ y ≠ x ∧ belongs y) : Listed shorter remains where
  nodup := (List.nodup_cons.mp (perm.nodup_iff.mp listed.nodup)).2
  mem_iff y := by
    have fresh := (List.nodup_cons.mp (perm.nodup_iff.mp listed.nodup)).1
    rw [shrinks, ← listed.mem_iff, perm.mem_iff, List.mem_cons]
    constructor
    · intro member
      exact ⟨fun same => fresh (same ▸ member), Or.inr member⟩
    · rintro ⟨different, same | member⟩
      · exact absurd same different
      · exact member

/-- A list in which a key does not occur is the same without it. -/
theorem eq_filter_ne {κ : Type} [DecidableEq κ] {key : α → κ} {k : κ}
    (absent : ∀ y ∈ list, key y ≠ k) : list = list.filter fun y => key y != k := by
  refine (List.filter_eq_self.mpr fun y member => ?_).symm
  simpa using absent y member

/-- Where no key occurs twice, erasing the first element with a key leaves all others. -/
theorem eraseP_eq_filter {κ : Type} [DecidableEq κ] {key : α → κ} (nodup : (list.map key).Nodup)
    (k : κ) : (list.eraseP fun y => key y == k) = list.filter fun y => key y != k := by
  induction list with
  | nil => rfl
  | cons first rest ih =>
      obtain ⟨fresh, nodup_rest⟩ := List.nodup_cons.mp nodup
      by_cases same : key first = k
      · rw [List.eraseP_cons_of_pos (by simp [same]), List.filter_cons_of_neg (by simp [same])]
        refine eq_filter_ne fun y inside own => fresh ?_
        rw [same, ← own]
        exact List.mem_map_of_mem inside
      · rw [List.eraseP_cons_of_neg (by simp [same]), List.filter_cons_of_pos (by simp [same]),
          ih nodup_rest]

/-- Erasing the first element with a key that occurs takes out one such key. -/
theorem map_perm_eraseP {κ : Type} [DecidableEq κ] {key : α → κ} {k : κ}
    (member : k ∈ list.map key) :
    (list.map key).Perm (k :: (list.eraseP fun y => key y == k).map key) := by
  obtain ⟨y, inside, rfl⟩ := List.mem_map.mp member
  obtain ⟨z, front, back, -, same, shape, erased⟩ :=
    List.exists_of_eraseP (p := fun z => key z == key y) inside (beq_self_eq_true (key y))
  rw [erased, shape, List.map_append, List.map_cons, List.map_append]
  rw [eq_of_beq same]
  exact List.perm_middle

end Listing

/-! ## The ready queue -/

namespace ReadyQueue

variable {queue : ReadyQueue} {tid : Tid} {priority : Int}

/-- The queued threads, first to be dispatched first. -/
def tids (queue : ReadyQueue) : List Tid :=
  queue.entries.map ReadyEntry.tid

/-- Priorities never increase from front to back. -/
def Sorted (queue : ReadyQueue) : Prop :=
  queue.entries.Pairwise fun front back => back.priority ≤ front.priority

theorem mem_entries_push {entry : ReadyEntry} :
    entry ∈ (queue.push tid priority).entries ↔ entry = ⟨tid, priority⟩ ∨ entry ∈ queue.entries := by
  rw [push, (placeBefore_perm _ _).mem_iff, List.mem_cons]

theorem tids_push_perm : (queue.push tid priority).tids.Perm (tid :: queue.tids) := by
  have perm : (queue.push tid priority).entries.Perm (⟨tid, priority⟩ :: queue.entries) :=
    placeBefore_perm _ _
  exact perm.map ReadyEntry.tid

theorem tids_erase_perm (member : tid ∈ queue.tids) :
    queue.tids.Perm (tid :: (queue.erase tid).tids) :=
  map_perm_eraseP member

theorem contains_iff : queue.contains tid = true ↔ tid ∈ queue.tids := by
  simp [contains, tids]

/-- A newcomer goes in front of lower priorities only, so the order is kept. -/
theorem sorted_push (sorted : queue.Sorted) : (queue.push tid priority).Sorted := by
  obtain ⟨entries⟩ := queue
  simp only [Sorted, push] at *
  induction entries with
  | nil => exact List.pairwise_singleton _ _
  | cons first rest ih =>
      obtain ⟨below, sortedRest⟩ := List.pairwise_cons.mp sorted
      unfold placeBefore
      by_cases higher : first.priority < priority
      · rw [if_pos (by simpa [outranks] using higher), List.pairwise_cons]
        refine ⟨fun entry member => ?_, sorted⟩
        rcases List.mem_cons.mp member with rfl | inside
        · exact Int.le_of_lt higher
        · exact Int.le_trans (below entry inside) (Int.le_of_lt higher)
      · rw [if_neg (by simpa [outranks] using higher), List.pairwise_cons]
        refine ⟨fun entry member => ?_, ih sortedRest⟩
        rcases List.mem_cons.mp ((placeBefore_perm _ _).mem_iff.mp member) with rfl | inside
        · exact Int.not_lt.mp higher
        · exact below entry inside

theorem sorted_erase (sorted : queue.Sorted) : (queue.erase tid).Sorted :=
  List.Pairwise.sublist List.eraseP_sublist sorted

theorem mem_of_mem_erase {entry : ReadyEntry} (member : entry ∈ (queue.erase tid).entries) :
    entry ∈ queue.entries :=
  List.mem_of_mem_eraseP member

/-- Sorting anew yields an ordered queue of the same threads at their new priorities. -/
theorem sorted_resort (priorityOf : Tid → Int) : (queue.resort priorityOf).Sorted := by
  have general : ∀ (entries : List ReadyEntry) (start : ReadyQueue), start.Sorted →
      (entries.foldl (fun sorted entry => sorted.push entry.tid (priorityOf entry.tid))
        start).Sorted := by
    intro entries
    induction entries with
    | nil => exact fun _ sorted => sorted
    | cons first rest ih => exact fun start sorted => ih _ (sorted_push sorted)
  exact general queue.entries {} List.Pairwise.nil

theorem entries_resort_perm (queue : ReadyQueue) (priorityOf : Tid → Int) :
    (queue.resort priorityOf).entries.Perm
      (queue.entries.map fun entry => ⟨entry.tid, priorityOf entry.tid⟩) := by
  have general : ∀ (entries : List ReadyEntry) (start : ReadyQueue),
      (entries.foldl (fun sorted entry => sorted.push entry.tid (priorityOf entry.tid))
        start).entries.Perm
        (entries.map (fun entry => ⟨entry.tid, priorityOf entry.tid⟩) ++ start.entries) := by
    intro entries
    induction entries with
    | nil => exact fun _ => List.Perm.refl _
    | cons first rest ih =>
        intro start
        refine (ih _).trans (((placeBefore_perm _ _).append_left _).trans ?_)
        exact List.perm_middle
  simpa [resort] using general queue.entries {}

theorem tids_resort_perm (priorityOf : Tid → Int) :
    (queue.resort priorityOf).tids.Perm queue.tids := by
  have perm := (entries_resort_perm queue priorityOf).map ReadyEntry.tid
  simpa [tids, List.map_map, Function.comp_def] using perm

/-- The front entry of an ordered queue has the highest priority. -/
theorem le_front {first : ReadyEntry} {rest : List ReadyEntry} (sorted : queue.Sorted)
    (shape : queue.entries = first :: rest) {entry : ReadyEntry} (member : entry ∈ queue.entries) :
    entry.priority ≤ first.priority := by
  rw [Sorted, shape, List.pairwise_cons] at sorted
  rcases List.mem_cons.mp (shape ▸ member) with rfl | inside
  · exact Int.le_refl _
  · exact sorted.1 entry inside

end ReadyQueue

/-! ## The sleep queue -/

namespace SleepQueue

variable {queue : SleepQueue} {tid : Tid}

/-- The sleeping threads, first to be examined first. -/
def tids (queue : SleepQueue) : List Tid :=
  queue.sleepers.map Sleeper.tid

theorem tids_insert_perm {priority : Int} {wakeTick : Nat} :
    (queue.insert tid priority wakeTick).tids.Perm (tid :: queue.tids) := by
  have perm : (queue.insert tid priority wakeTick).sleepers.Perm
      (⟨tid, priority, wakeTick⟩ :: queue.sleepers) := placeBefore_perm _ _
  exact perm.map Sleeper.tid

theorem tids_erase_perm (member : tid ∈ queue.tids) :
    queue.tids.Perm (tid :: (queue.erase tid).tids) :=
  map_perm_eraseP member

theorem due_sublist (queue : SleepQueue) (now : Nat) : (queue.due now).Sublist queue.tids :=
  (List.takeWhile_sublist _).map _

end SleepQueue

/-! ## Wait queues -/

/-- Taking the best waiter takes out just that one. -/
theorem takeBest?_perm {α : Type} {rank : α → Int} {waiters others : List α} {best : α}
    (taken : takeBest? rank waiters = some (best, others)) : waiters.Perm (best :: others) := by
  induction waiters generalizing best others with
  | nil => simp [takeBest?] at taken
  | cons first rest ih =>
      unfold takeBest? at taken
      split at taken
      · cases taken
        exact List.Perm.refl _
      · rename_i better left found
        split at taken
        · cases taken
          exact List.Perm.refl _
        · cases taken
          exact ((ih found).cons first).trans (List.Perm.swap _ _ _)

end Preempt
