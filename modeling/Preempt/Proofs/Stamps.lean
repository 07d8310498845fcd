import Mathlib.Data.Finset.Card
import Mathlib.Data.Finset.Image
import Preempt.Proofs.Bands

/-!
# The ready queue as a set of stamped tickets

What the ready queue is for can be said without a list. Every queued thread has a ticket
with its priority and a stamp, and whoever has the higher priority, or else the earlier
stamp, is ahead. To queue a thread is to give it a new stamp; to move it is to take back
its ticket and give it a new one; to sort all threads by new priorities is to stamp the
tickets anew in the order in which they stand (`Stamped.resort`). Places in a line do not
occur in this, except as the number of tickets ahead.

Whatever is done with the ready queue, its entries are the tickets in their order
(`ReadyQueue.run_shows`), provided that only threads are queued that are not queued already.
This is proved for each operation (`Shows.perform`). A new ticket finds its place because the
queue is in order (`ReadyQueue.admits_push`), and sorting anew is nothing but queueing all
threads again, in the order of the line (`Shows.resort`).
-/

set_option autoImplicit false

namespace Preempt

/-! ## Tickets -/

/-- A queued thread, the priority it is queued with, and when it was queued. -/
structure Ticket where
  tid : Tid
  priority : Int
  stamp : Nat
deriving DecidableEq

namespace Ticket

/-- The higher priority goes first, and among equals the earlier stamp. -/
def Ahead (front back : Ticket) : Prop :=
  back.priority < front.priority ∨ front.priority = back.priority ∧ front.stamp < back.stamp

instance (front back : Ticket) : Decidable (front.Ahead back) :=
  inferInstanceAs (Decidable (_ ∨ _))

/-- A ticket as the ready queue keeps it. -/
def entry (ticket : Ticket) : ReadyEntry :=
  ⟨ticket.tid, ticket.priority⟩

variable {front back : Ticket}

theorem Ahead.asymm (ahead : front.Ahead back) : ¬ back.Ahead front := by
  unfold Ahead at *
  omega

theorem not_ahead_self (ticket : Ticket) : ¬ ticket.Ahead ticket :=
  fun ahead => ahead.asymm ahead

theorem Ahead.ne (ahead : front.Ahead back) : front ≠ back := by
  rintro rfl
  exact not_ahead_self _ ahead

/-- In a line no ticket occurs twice. -/
theorem nodup_of_line {line : List Ticket} (ordered : line.Pairwise Ahead) : line.Nodup :=
  ordered.imp Ahead.ne

theorem Ahead.priority_le (ahead : front.Ahead back) : back.priority ≤ front.priority := by
  unfold Ahead at ahead
  omega

end Ticket

/-- The tickets of the queued threads, and the next stamp to be given. -/
structure Stamped where
  tickets : Finset Ticket := ∅
  next : Nat := 0

namespace Stamped

/-- The thread has a ticket. -/
def Holds (stamped : Stamped) (tid : Tid) : Prop :=
  ∃ ticket ∈ stamped.tickets, ticket.tid = tid

instance (stamped : Stamped) (tid : Tid) : Decidable (stamped.Holds tid) :=
  inferInstanceAs (Decidable (∃ ticket ∈ stamped.tickets, ticket.tid = tid))

/-- The thread gets a ticket with a new stamp. -/
def push (stamped : Stamped) (tid : Tid) (priority : Int) : Stamped :=
  ⟨insert ⟨tid, priority, stamped.next⟩ stamped.tickets, stamped.next + 1⟩

/-- The ticket that no other is ahead of is taken off. -/
def pop (stamped : Stamped) : Stamped :=
  { stamped with
    tickets := stamped.tickets.filter fun ticket => ∃ first ∈ stamped.tickets, first.Ahead ticket }

/-- The thread's ticket is taken off. -/
def erase (stamped : Stamped) (tid : Tid) : Stamped :=
  { stamped with tickets := stamped.tickets.filter fun ticket => ticket.tid ≠ tid }

/-- A thread that has a ticket gets a new one instead, with a new stamp. -/
def reposition (stamped : Stamped) (tid : Tid) (priority : Int) : Stamped :=
  if stamped.Holds tid then (stamped.erase tid).push tid priority else stamped

/-- The number of tickets ahead of one. -/
def position (stamped : Stamped) (ticket : Ticket) : Nat :=
  (stamped.tickets.filter fun other => other.Ahead ticket).card

/-- All tickets are stamped anew by their positions and get new priorities. -/
def resort (stamped : Stamped) (priorityOf : Tid → Int) : Stamped :=
  ⟨stamped.tickets.image fun ticket => ⟨ticket.tid, priorityOf ticket.tid, stamped.position ticket⟩,
    stamped.tickets.card⟩

end Stamped

/-! ## What the ready queue shows of the tickets -/

/-- The entries of the queue are the tickets in their order, one for each thread, and the next stamp
is later than all. -/
structure Shows (queue : ReadyQueue) (stamped : Stamped) : Prop where
  line : ∃ line : List Ticket, line.toFinset = stamped.tickets ∧ line.Pairwise Ticket.Ahead ∧
    line.map Ticket.entry = queue.entries
  single : ∀ one ∈ stamped.tickets, ∀ other ∈ stamped.tickets, one.tid = other.tid → one = other
  fresh : ∀ ticket ∈ stamped.tickets, ticket.stamp < stamped.next

namespace Shows

variable {queue : ReadyQueue} {stamped : Stamped} {tid : Tid}

theorem empty : Shows {} {} :=
  ⟨⟨[], rfl, List.Pairwise.nil, rfl⟩, by simp, by simp⟩

variable (shows : Shows queue stamped)
include shows

/-- **Priorities never increase from front to back.** -/
theorem sorted : queue.Sorted := by
  obtain ⟨line, -, ordered, entries⟩ := shows.line
  rw [ReadyQueue.Sorted, ← entries, List.pairwise_map]
  exact ordered.imp fun ahead => ahead.priority_le

theorem mem_tids_iff : tid ∈ queue.tids ↔ stamped.Holds tid := by
  obtain ⟨line, all, -, entries⟩ := shows.line
  rw [ReadyQueue.tids, ← entries, List.map_map, List.mem_map, Stamped.Holds]
  simp only [← all, List.mem_toFinset]
  rfl

theorem contains_iff : queue.contains tid = true ↔ stamped.Holds tid :=
  ReadyQueue.contains_iff.trans shows.mem_tids_iff

/-- **No thread is queued twice.** -/
theorem nodup : queue.tids.Nodup := by
  obtain ⟨line, all, ordered, entries⟩ := shows.line
  rw [ReadyQueue.tids, ← entries, List.map_map]
  refine List.Nodup.map_on (fun one first other second same => ?_) (Ticket.nodup_of_line ordered)
  exact shows.single one (all ▸ List.mem_toFinset.mpr first) other
    (all ▸ List.mem_toFinset.mpr second) same

/-- **No entry is lost or made up.** -/
theorem size_eq : queue.size = stamped.tickets.card := by
  obtain ⟨line, all, ordered, entries⟩ := shows.line
  rw [ReadyQueue.size, ← entries, List.length_map, ← all,
    List.toFinset_card_of_nodup (Ticket.nodup_of_line ordered)]

/-! ### Queueing, taking off, moving -/

/-- **A newcomer's stamp places it behind its equals.** -/
theorem push (absent : ¬ stamped.Holds tid) (priority : Int) :
    Shows (queue.push tid priority) (stamped.push tid priority) := by
  obtain ⟨line, all, ordered, entries⟩ := shows.line
  have later : ∀ ticket ∈ line, ticket.stamp < stamped.next := fun ticket member =>
    shows.fresh ticket (all ▸ List.mem_toFinset.mpr member)
  obtain ⟨higher, lower, was, now, above, below⟩ := ReadyQueue.admits_push shows.sorted tid priority
  rw [← entries] at was
  obtain ⟨front, back, rfl, rfl, rfl⟩ := List.map_eq_append_iff.mp was
  obtain ⟨ordered_front, ordered_back, apart⟩ := List.pairwise_append.mp ordered
  refine ⟨⟨front ++ ⟨tid, priority, stamped.next⟩ :: back, ?_, ?_, ?_⟩, ?_, ?_⟩
  · rw [Stamped.push, ← all]
    ext ticket
    simp [or_left_comm]
  · refine List.pairwise_append.mpr ⟨ordered_front, List.pairwise_cons.mpr ⟨?_, ordered_back⟩, ?_⟩
    · intro ticket member
      exact Or.inl (below ticket.entry (List.mem_map_of_mem member))
    · intro ticket member other behind
      rcases List.mem_cons.mp behind with rfl | behind
      · have most : priority ≤ ticket.priority := above ticket.entry (List.mem_map_of_mem member)
        have earlier := later ticket (List.mem_append_left _ member)
        rcases Int.lt_or_eq_of_le most with less | same
        · exact Or.inl less
        · exact Or.inr ⟨same.symm, earlier⟩
      · exact apart ticket member other behind
  · rw [List.map_append, List.map_cons, now]
    rfl
  · -- Only the newcomer has its ticket.
    intro one first other second same
    rcases Finset.mem_insert.mp first with rfl | first <;>
      rcases Finset.mem_insert.mp second with rfl | second
    · rfl
    · exact absurd ⟨other, second, same.symm⟩ absent
    · exact absurd ⟨one, first, same⟩ absent
    · exact shows.single one first other second same
  · intro ticket member
    rcases Finset.mem_insert.mp member with rfl | member
    · exact Nat.lt_succ_self _
    · exact Nat.lt_succ_of_lt (shows.fresh ticket member)

/-- A selection of the tickets is shown by the same selection of the entries. -/
theorem filter {after : ReadyQueue} {remain : Finset Ticket} (kept : ReadyEntry → Bool)
    (entries : after.entries = queue.entries.filter kept)
    (tickets : ∀ ticket, ticket ∈ remain ↔ ticket ∈ stamped.tickets ∧ kept ticket.entry = true) :
    Shows after { stamped with tickets := remain } := by
  obtain ⟨line, all, ordered, listed⟩ := shows.line
  refine ⟨⟨line.filter fun ticket => kept ticket.entry, ?_, ordered.filter _, ?_⟩, ?_, ?_⟩
  · ext ticket
    simp [← all, tickets]
  · rw [entries, ← listed, List.filter_map]
    rfl
  · intro one first other second
    exact shows.single one ((tickets one).mp first).1 other ((tickets other).mp second).1
  · exact fun ticket member => shows.fresh ticket ((tickets ticket).mp member).1

theorem erase (tid : Tid) : Shows (queue.erase tid) (stamped.erase tid) := by
  refine shows.filter (fun entry => entry.tid != tid) (ReadyQueue.entries_erase shows.nodup tid) ?_
  intro ticket
  simp [Ticket.entry]

theorem reposition (tid : Tid) (priority : Int) :
    Shows (queue.reposition tid priority) (stamped.reposition tid priority) := by
  rw [ReadyQueue.reposition, Stamped.reposition]
  by_cases held : stamped.Holds tid
  · rw [if_pos (shows.contains_iff.mpr held), if_pos held]
    refine (shows.erase tid).push ?_ priority
    rintro ⟨ticket, member, same⟩
    exact (Finset.mem_filter.mp member).2 same
  · rw [if_neg (mt shows.contains_iff.mp held), if_neg held]
    exact shows

/-- The first of the line is the ticket that all others are behind. -/
theorem front {first : ReadyEntry} {rest : List ReadyEntry} (entries : queue.entries = first :: rest) :
    ∃ ticket ∈ stamped.tickets, ticket.entry = first ∧
      (∀ other ∈ stamped.tickets.erase ticket, ticket.Ahead other) ∧
      stamped.pop.tickets = stamped.tickets.erase ticket ∧ Shows ⟨rest⟩ stamped.pop := by
  obtain ⟨line, all, ordered, listed⟩ := shows.line
  rw [entries] at listed
  obtain ⟨ticket, others, rfl, rfl, rfl⟩ := List.map_eq_cons_iff.mp listed
  obtain ⟨leads, ordered_others⟩ := List.pairwise_cons.mp ordered
  have member : ticket ∈ stamped.tickets := all ▸ by simp
  have behind : ∀ other ∈ stamped.tickets.erase ticket, ticket.Ahead other := by
    intro other inside
    obtain ⟨different, inside⟩ := Finset.mem_erase.mp inside
    rw [← all, List.mem_toFinset, List.mem_cons] at inside
    exact leads other (inside.resolve_left different)
  have popped : stamped.pop.tickets = stamped.tickets.erase ticket := by
    ext other
    rw [Stamped.pop, Finset.mem_filter, Finset.mem_erase]
    refine ⟨?_, fun ⟨different, inside⟩ =>
      ⟨inside, ticket, member, behind other (Finset.mem_erase.mpr ⟨different, inside⟩)⟩⟩
    rintro ⟨inside, rival, present, ahead⟩
    refine ⟨?_, inside⟩
    rintro rfl
    by_cases self : rival = other
    · exact Ticket.not_ahead_self _ (self ▸ ahead)
    · exact (behind rival (Finset.mem_erase.mpr ⟨self, present⟩)).asymm ahead
  have outside : ticket ∉ others := fun inside => Ticket.not_ahead_self _ (leads ticket inside)
  refine ⟨ticket, member, rfl, behind, popped, ⟨others, ?_, ordered_others, rfl⟩, ?_, ?_⟩
  · rw [popped, ← all, List.toFinset_cons, Finset.erase_insert (by simpa using outside)]
  · intro one first other second
    exact shows.single one (Finset.mem_filter.mp first).1 other (Finset.mem_filter.mp second).1
  · exact fun other inside => shows.fresh other (Finset.mem_filter.mp inside).1

/-- Where no thread is queued there is no ticket. -/
theorem tickets_eq_empty : queue.entries = [] ↔ stamped.tickets = ∅ := by
  rw [← Finset.card_eq_zero, ← shows.size_eq, ReadyQueue.size, List.length_eq_zero_iff]

end Shows

/-! ## Sorting anew -/

section Sorting

variable {line front : List Ticket} {last : Ticket} {priorityOf : Tid → Int}

/-- Queueing the threads of a line one after another, each with its new priority. -/
def Stamped.enqueueAll (priorityOf : Tid → Int) (line : List Ticket) : Stamped :=
  line.foldl (fun stamped ticket => stamped.push ticket.tid (priorityOf ticket.tid)) {}

/-- The tickets of a line, stamped anew by position. -/
theorem Stamped.position_of_line (ordered : (front ++ [last]).Pairwise Ticket.Ahead) :
    (⟨(front ++ [last]).toFinset, 0⟩ : Stamped).position last = front.length ∧
      ∀ ticket ∈ front, (⟨(front ++ [last]).toFinset, 0⟩ : Stamped).position ticket =
        (⟨front.toFinset, 0⟩ : Stamped).position ticket := by
  obtain ⟨ordered_front, -, apart⟩ := List.pairwise_append.mp ordered
  constructor
  · rw [Stamped.position, ← List.toFinset_card_of_nodup (Ticket.nodup_of_line ordered_front)]
    congr 1
    ext ticket
    simp only [Finset.mem_filter, List.mem_toFinset, List.mem_append, List.mem_singleton]
    constructor
    · rintro ⟨inside | rfl, ahead⟩
      · exact inside
      · exact absurd ahead (Ticket.not_ahead_self _)
    · exact fun inside => ⟨Or.inl inside, apart ticket inside last (List.mem_singleton_self last)⟩
  · intro ticket inside
    rw [Stamped.position, Stamped.position]
    congr 1
    ext other
    simp only [Finset.mem_filter, List.mem_toFinset, List.mem_append, List.mem_singleton]
    constructor
    · rintro ⟨member | rfl, ahead⟩
      · exact ⟨member, ahead⟩
      · exact absurd ahead (apart ticket inside other (List.mem_singleton_self other)).asymm
    · exact fun ⟨member, ahead⟩ => ⟨Or.inl member, ahead⟩

/-- **To queue all threads again in the order of the line is to stamp them by position.** -/
theorem Stamped.enqueueAll_eq (ordered : line.Pairwise Ticket.Ahead) :
    Stamped.enqueueAll priorityOf line =
      (⟨line.toFinset, 0⟩ : Stamped).resort priorityOf := by
  induction line using List.reverseRecOn with
  | nil => rfl
  | append_singleton front last ih =>
      obtain ⟨ordered_front, -, -⟩ := List.pairwise_append.mp ordered
      obtain ⟨own, others⟩ := Stamped.position_of_line ordered
      have before := ih ordered_front
      rw [Stamped.enqueueAll] at before ⊢
      rw [List.foldl_append, List.foldl_cons, List.foldl_nil, before, Stamped.push, Stamped.resort,
        Stamped.resort, List.toFinset_card_of_nodup (Ticket.nodup_of_line ordered),
        List.toFinset_card_of_nodup (Ticket.nodup_of_line ordered_front), List.length_append, List.length_singleton]
      congr 1
      ext ticket
      simp only [Finset.mem_insert, Finset.mem_image, List.mem_toFinset, List.mem_append,
        List.mem_singleton]
      constructor
      · rintro (rfl | ⟨old, member, rfl⟩)
        · exact ⟨last, Or.inr rfl, by rw [own]⟩
        · exact ⟨old, Or.inl member, by rw [others old member]⟩
      · rintro ⟨old, member | rfl, rfl⟩
        · exact Or.inr ⟨old, member, by rw [others old member]⟩
        · exact Or.inl (by rw [own])

/-- The queue made by queueing the threads of a line shows the tickets made so. -/
theorem Shows.enqueueAll (once : (line.map Ticket.tid).Nodup) :
    Shows ((line.map Ticket.entry).foldl
        (fun sorted entry => sorted.push entry.tid (priorityOf entry.tid)) {})
      (Stamped.enqueueAll priorityOf line) ∧
      ∀ tid, (Stamped.enqueueAll priorityOf line).Holds tid ↔ tid ∈ line.map Ticket.tid := by
  induction line using List.reverseRecOn with
  | nil => exact ⟨.empty, by simp [Stamped.enqueueAll, Stamped.Holds]⟩
  | append_singleton front last ih =>
      rw [List.map_append, List.map_singleton] at once
      obtain ⟨once_front, -, apart⟩ := List.nodup_append.mp once
      obtain ⟨shown, held⟩ := ih once_front
      have absent : ¬ (Stamped.enqueueAll priorityOf front).Holds last.tid := fun holds =>
        apart last.tid ((held _).mp holds) last.tid (List.mem_singleton_self _) rfl
      rw [Stamped.enqueueAll] at shown held absent ⊢
      rw [List.map_append, List.map_singleton, List.foldl_append, List.foldl_append]
      refine ⟨shown.push absent _, fun tid => ?_⟩
      rw [List.map_append, List.map_singleton, List.mem_append, List.mem_singleton, ← held]
      simp only [List.foldl_cons, List.foldl_nil, Stamped.Holds, Stamped.push, Finset.mem_insert,
        exists_eq_or_imp]
      rw [or_comm, eq_comm]

/-- **Sorting by new priorities keeps the order of the line among equals.** -/
theorem Shows.resort {queue : ReadyQueue} {stamped : Stamped} (shows : Shows queue stamped)
    (priorityOf : Tid → Int) : Shows (queue.resort priorityOf) (stamped.resort priorityOf) := by
  obtain ⟨line, all, ordered, entries⟩ := shows.line
  have once : (line.map Ticket.tid).Nodup := by
    have nodup := shows.nodup
    rw [ReadyQueue.tids, ← entries, List.map_map] at nodup
    exact nodup
  have shown : Shows _ (Stamped.enqueueAll priorityOf line) := (Shows.enqueueAll once).1
  rw [entries, Stamped.enqueueAll_eq ordered, all] at shown
  exact shown

end Sorting

/-! ## Any sequence of operations -/

/-- What can be done with the ready queue. -/
inductive QueueOp where
  | push (tid : Tid) (priority : Int)
  | pop
  | erase (tid : Tid)
  | reposition (tid : Tid) (priority : Int)
  | resort (priorityOf : Tid → Int)

/-- One operation on the ready queue. -/
def ReadyQueue.perform (queue : ReadyQueue) : QueueOp → ReadyQueue
  | .push tid priority => queue.push tid priority
  | .pop => (queue.pop?.map Prod.snd).getD queue
  | .erase tid => queue.erase tid
  | .reposition tid priority => queue.reposition tid priority
  | .resort priorityOf => queue.resort priorityOf

/-- The same operation on the tickets. -/
def Stamped.perform (stamped : Stamped) : QueueOp → Stamped
  | .push tid priority => stamped.push tid priority
  | .pop => stamped.pop
  | .erase tid => stamped.erase tid
  | .reposition tid priority => stamped.reposition tid priority
  | .resort priorityOf => stamped.resort priorityOf

/-- Only a thread that is not queued may be queued. -/
def QueueOp.Allowed (queue : ReadyQueue) : QueueOp → Prop
  | .push tid _ => queue.contains tid = false
  | _ => True

/-- All operations of a sequence are allowed where they are performed. -/
def QueueOp.AllAllowed (queue : ReadyQueue) : List QueueOp → Prop
  | [] => True
  | op :: rest => op.Allowed queue ∧ AllAllowed (queue.perform op) rest

instance QueueOp.decideAllowed (queue : ReadyQueue) : ∀ op : QueueOp, Decidable (op.Allowed queue)
  | .push tid _ => inferInstanceAs (Decidable (queue.contains tid = false))
  | .pop => .isTrue trivial
  | .erase _ => .isTrue trivial
  | .reposition _ _ => .isTrue trivial
  | .resort _ => .isTrue trivial

instance QueueOp.decideAllAllowed :
    ∀ (queue : ReadyQueue) (ops : List QueueOp), Decidable (AllAllowed queue ops)
  | _, [] => .isTrue trivial
  | queue, op :: rest =>
    have := decideAllAllowed (queue.perform op) rest
    inferInstanceAs (Decidable (op.Allowed queue ∧ AllAllowed (queue.perform op) rest))

section Sequences

variable {queue : ReadyQueue} {stamped : Stamped}

/-- **Each operation does to the queue what it does to the tickets.** -/
theorem Shows.perform (shows : Shows queue stamped) (op : QueueOp) (allowed : op.Allowed queue) :
    Shows (queue.perform op) (stamped.perform op) := by
  cases op with
  | push tid priority =>
      refine shows.push (fun held => ?_) priority
      exact Bool.noConfusion (allowed.symm.trans (shows.contains_iff.mpr held))
  | pop =>
      simp only [ReadyQueue.perform, ReadyQueue.pop?, Stamped.perform]
      cases entries : queue.entries with
      | nil =>
          have none := shows.tickets_eq_empty.mp entries
          have same : stamped.pop = stamped := by
            obtain ⟨tickets, next⟩ := stamped
            subst none
            rfl
          rw [same]
          exact shows
      | cons first rest =>
          obtain ⟨-, -, -, -, -, shown⟩ := shows.front entries
          exact shown
  | erase tid => exact shows.erase tid
  | reposition tid priority => exact shows.reposition tid priority
  | resort priorityOf => exact shows.resort priorityOf

theorem Shows.run (shows : Shows queue stamped) (ops : List QueueOp)
    (allowed : QueueOp.AllAllowed queue ops) :
    Shows (ops.foldl ReadyQueue.perform queue) (ops.foldl Stamped.perform stamped) := by
  induction ops generalizing queue stamped with
  | nil => exact shows
  | cons op rest ih =>
      obtain ⟨here, later⟩ := allowed
      exact ih (shows.perform op here) later

end Sequences

/-- What can be seen of the tickets on the ready queue: its iteration, which thread is queued, and
which is the next. -/
structure Faithful (queue : ReadyQueue) (stamped : Stamped) : Prop extends Shows queue stamped where
  isSorted : queue.isSorted = true
  nodup : queue.tids.Nodup
  size : queue.size = stamped.tickets.card
  contains : ∀ tid, queue.contains tid = true ↔ stamped.Holds tid
  /-- To take off a thread's ticket is to take off just that one. -/
  erases : ∀ ticket ∈ stamped.tickets,
    (stamped.erase ticket.tid).tickets = stamped.tickets.erase ticket
  /-- The first to leave is ahead of all others: of its equals it has the earliest stamp. -/
  pops : ∀ tid rest, queue.pop? = some (tid, rest) → ∃ ticket ∈ stamped.tickets, ticket.tid = tid ∧
    (∀ other ∈ stamped.tickets.erase ticket, ticket.Ahead other) ∧
      stamped.pop.tickets = stamped.tickets.erase ticket ∧ Shows rest stamped.pop
  empties : queue.pop? = none ↔ stamped.tickets = ∅
  /-- What names a thread that is not queued changes nothing. -/
  misses : ∀ tid priority, ¬ stamped.Holds tid → queue.erase tid = queue ∧
    queue.reposition tid priority = queue ∧ stamped.erase tid = stamped ∧
      stamped.reposition tid priority = stamped

/-- Order from front to back is order between neighbours. -/
theorem ReadyQueue.isSorted_of_sorted {queue : ReadyQueue} (sorted : queue.Sorted) :
    queue.isSorted = true := by
  obtain ⟨entries⟩ := queue
  simp only [Sorted, isSorted] at *
  induction entries with
  | nil => rfl
  | cons first rest ih =>
      obtain ⟨below, sorted_rest⟩ := List.pairwise_cons.mp sorted
      cases rest with
      | nil => rfl
      | cons second others =>
          have neighbour := below second List.mem_cons_self
          have behind := ih sorted_rest
          simp only [List.tail_cons, List.zip_cons_cons, List.all_cons, Bool.and_eq_true,
            decide_eq_true_eq] at behind ⊢
          exact ⟨neighbour, behind⟩

/-- To take off a thread that is not queued changes nothing. -/
theorem ReadyQueue.erase_of_not_mem {queue : ReadyQueue} {tid : Tid} (unqueued : tid ∉ queue.tids) :
    queue.erase tid = queue := by
  obtain ⟨entries⟩ := queue
  refine congrArg ReadyQueue.mk (List.eraseP_of_forall_not fun entry member => ?_)
  have different : entry.tid ≠ tid := fun same => unqueued (same ▸ List.mem_map_of_mem member)
  simpa using different

theorem Shows.faithful {queue : ReadyQueue} {stamped : Stamped} (shows : Shows queue stamped) :
    Faithful queue stamped where
  toShows := shows
  isSorted := ReadyQueue.isSorted_of_sorted shows.sorted
  nodup := shows.nodup
  size := shows.size_eq
  contains _ := shows.contains_iff
  erases ticket member := by
    ext other
    rw [Stamped.erase, Finset.mem_filter, Finset.mem_erase, and_comm]
    refine and_congr_left fun inside => not_congr ⟨fun same => ?_, fun same => by rw [same]⟩
    exact shows.single other inside ticket member same
  pops tid rest popped := by
    unfold ReadyQueue.pop? at popped
    split at popped
    · cases popped
    · rename_i first others entries
      cases popped
      obtain ⟨ticket, member, rfl, ahead, remain, shown⟩ := shows.front entries
      exact ⟨ticket, member, rfl, ahead, remain, shown⟩
  empties := by
    rw [← shows.tickets_eq_empty, ReadyQueue.pop?]
    cases queue.entries <;> simp
  misses tid priority absent := by
    have unqueued : tid ∉ queue.tids := mt shows.mem_tids_iff.mp absent
    refine ⟨ReadyQueue.erase_of_not_mem unqueued, ?_, ?_, if_neg absent⟩
    · exact if_neg (mt ReadyQueue.contains_iff.mp unqueued)
    · have all : stamped.tickets.filter (fun ticket => ticket.tid ≠ tid) = stamped.tickets :=
        Finset.filter_true_of_mem fun ticket member same => absent ⟨ticket, member, same⟩
      rw [Stamped.erase, all]

/-- **The ready queue is a set of stamped tickets in order**, whatever is done with it, as long as
only threads are queued that are not queued already. -/
theorem ReadyQueue.run_shows (ops : List QueueOp) (allowed : QueueOp.AllAllowed {} ops) :
    Faithful (ops.foldl ReadyQueue.perform {}) (ops.foldl Stamped.perform {}) :=
  (Shows.empty.run ops allowed).faithful

/-- Threads are queued, moved and taken off, and then those with odd numbers are raised. -/
def reshuffled : List QueueOp :=
  [.push ⟨1⟩ 10, .push ⟨2⟩ 30, .push ⟨3⟩ 10, .push ⟨4⟩ 30, .reposition ⟨1⟩ 30, .pop, .erase ⟨9⟩,
    .push ⟨6⟩ 20, .resort fun tid => if tid.val % 2 = 1 then 40 else 10, .push ⟨2⟩ 40]

theorem reshuffled_shows : QueueOp.AllAllowed {} reshuffled ∧
    Faithful (reshuffled.foldl ReadyQueue.perform {}) (reshuffled.foldl Stamped.perform {}) ∧
    (reshuffled.foldl ReadyQueue.perform {}).entries =
      [⟨⟨1⟩, 40⟩, ⟨⟨3⟩, 40⟩, ⟨⟨2⟩, 40⟩, ⟨⟨4⟩, 10⟩, ⟨⟨6⟩, 10⟩] ∧
    (reshuffled.foldl Stamped.perform {}).tickets =
      {⟨⟨1⟩, 40, 1⟩, ⟨⟨3⟩, 40, 3⟩, ⟨⟨2⟩, 40, 4⟩, ⟨⟨4⟩, 10, 0⟩, ⟨⟨6⟩, 10, 2⟩} :=
  ⟨by decide, ReadyQueue.run_shows reshuffled (by decide), by decide, by decide⟩

end Preempt
