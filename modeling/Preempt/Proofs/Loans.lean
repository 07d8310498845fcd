import Mathlib.Data.Finset.Card
import Mathlib.Data.List.Induction
import Preempt.Proofs.Edits

/-!
# The donation graph as a set of loans

The donation graph keeps, for every holder with donors, a list of donations. What it stands for is
the set of its loans: triples of a holder, a donor and a lock. To record a donation is to put a
loan into the set, and the three ways to drop donations take loans out of it, all that go to a
holder through a lock, a single one, or all that a thread takes part in.

The graph lists this set after any sequence of operations, without repetition and with no entry
for a holder that has no donors (`DonationGraph.run_records`). The order of a holder's donors says
for how long their loans have been there. A loan that is recorded again keeps its place, and one
that is dropped and recorded again goes to the end (`Since`).

Each operation drops some donations of a list and appends at most one that was not there
(`DonationGraph.received_perform`). That is all the proof of the order uses.
-/

set_option autoImplicit false

namespace Preempt

/-! ## Loans -/

/-- A thread that holds a lock, one that donates to it, and the lock. -/
structure Loan where
  holder : Tid
  donor : Tid
  lock : LockId
deriving DecidableEq

/-- What the graph keeps of a loan under its holder. -/
def Loan.donation (loan : Loan) : Donation :=
  ⟨loan.donor, loan.lock⟩

/-- A donation as the loan that a holder receives. -/
def Donation.loan (holder : Tid) (donation : Donation) : Loan :=
  ⟨holder, donation.donor, donation.lock⟩

theorem Donation.loan_injective (holder : Tid) : Function.Injective (Donation.loan holder) := by
  rintro ⟨donor, lock⟩ ⟨other, through⟩ same
  cases same
  rfl

theorem Loan.eq_iff {loan other : Loan} :
    loan = other ↔ loan.holder = other.holder ∧ loan.donation = other.donation := by
  constructor
  · rintro rfl
    exact ⟨rfl, rfl⟩
  · rintro ⟨same, equal⟩
    exact (congrArg₂ Donation.loan same equal : _)

/-- What can be done with donations. -/
inductive LoanOp where
  | add (loan : Loan)
  | dropLock (holder : Tid) (lock : LockId)
  | drop (loan : Loan)
  | forget (tid : Tid)

/-- One operation on a set of loans. -/
def LoanOp.perform (loans : Finset Loan) : LoanOp → Finset Loan
  | add loan => insert loan loans
  | dropLock holder lock => loans.filter fun loan => ¬ (loan.holder = holder ∧ loan.lock = lock)
  | drop loan => loans.erase loan
  | forget tid => loans.filter fun loan => ¬ (loan.holder = tid ∨ loan.donor = tid)

/-- The loans there are after a sequence of operations. -/
def loansAfter (ops : List LoanOp) : Finset Loan :=
  ops.foldl LoanOp.perform ∅

/-- The loans that another operation takes out. -/
def dropped (ops : List LoanOp) (op : LoanOp) : Finset Loan :=
  loansAfter ops \ loansAfter (ops ++ [op])

/-- The loan came with the operation at a place of the sequence, and has been there ever since. -/
structure Since (ops : List LoanOp) (loan : Loan) (place : Nat) : Prop where
  within : place < ops.length
  absent : loan ∉ loansAfter (ops.take place)
  present : ∀ count, place < count → count ≤ ops.length → loan ∈ loansAfter (ops.take count)

/-- The first loan has been there for longer than the second. -/
def Earlier (ops : List LoanOp) (first second : Loan) : Prop :=
  ∃ place later, Since ops first place ∧ Since ops second later ∧ place < later

section Loans

variable {ops : List LoanOp} {op : LoanOp} {loan other : Loan} {place later : Nat}

theorem loansAfter_append : loansAfter (ops ++ [op]) = op.perform (loansAfter ops) :=
  List.foldl_append

/-- A loan came with one operation only. -/
theorem Since.unique (since : Since ops loan place) (too : Since ops loan later) : place = later := by
  rcases Nat.lt_trichotomy place later with before | same | behind
  · exact absurd (since.present later before too.within.le) too.absent
  · exact same
  · exact absurd (too.present place behind since.within.le) since.absent

theorem Earlier.ne (earlier : Earlier ops loan other) : loan ≠ other := by
  rintro rfl
  obtain ⟨place, later, since, too, less⟩ := earlier
  exact Nat.ne_of_lt less (since.unique too)

/-- A loan that an operation leaves has been there for as long as before. -/
theorem Since.append (since : Since ops loan place) (left : loan ∈ loansAfter (ops ++ [op])) :
    Since (ops ++ [op]) loan place where
  within := by
    rw [List.length_append]
    exact Nat.lt_add_right _ since.within
  absent := by
    rw [List.take_append_of_le_length since.within.le]
    exact since.absent
  present count behind most := by
    rw [List.length_append, List.length_singleton] at most
    rcases Nat.lt_or_eq_of_le most with before | last
    · rw [List.take_append_of_le_length (Nat.le_of_lt_succ before)]
      exact since.present count behind (Nat.le_of_lt_succ before)
    · rw [List.take_of_length_le (by simp [last])]
      exact left

/-- A new loan has been there since the last operation. -/
theorem since_last (absent : loan ∉ loansAfter ops) (left : loan ∈ loansAfter (ops ++ [op])) :
    Since (ops ++ [op]) loan ops.length where
  within := by simp
  absent := by
    rw [List.take_append_of_le_length le_rfl, List.take_length]
    exact absent
  present count behind _ := by
    rw [List.take_of_length_le (by simpa using Nat.succ_le_of_lt behind)]
    exact left

/-- Every loan came with some operation, by induction on the sequence from its end. -/
theorem exists_since (here : loan ∈ loansAfter ops) : ∃ place, Since ops loan place := by
  induction ops using List.reverseRecOn with
  | nil => exact absurd here (Finset.notMem_empty loan)
  | append_singleton ops op ih =>
      by_cases before : loan ∈ loansAfter ops
      · obtain ⟨place, since⟩ := ih before
        exact ⟨place, since.append here⟩
      · exact ⟨ops.length, since_last before here⟩

theorem Earlier.append (earlier : Earlier ops loan other) (left : loan ∈ loansAfter (ops ++ [op]))
    (too : other ∈ loansAfter (ops ++ [op])) : Earlier (ops ++ [op]) loan other := by
  obtain ⟨place, later, since, since_other, less⟩ := earlier
  exact ⟨place, later, since.append left, since_other.append too, less⟩

/-- A loan that an operation leaves has been there for longer than one that comes with it. -/
theorem earlier_of_new (before : loan ∈ loansAfter ops) (left : loan ∈ loansAfter (ops ++ [op]))
    (absent : other ∉ loansAfter ops) (new : other ∈ loansAfter (ops ++ [op])) :
    Earlier (ops ++ [op]) loan other := by
  obtain ⟨place, since⟩ := exists_since before
  exact ⟨place, ops.length, since.append left, since_last absent new, since.within⟩

end Loans

/-! ## What one operation does to the graph -/

namespace DonationGraph

/-- One operation on the graph. -/
def perform (graph : DonationGraph) : LoanOp → DonationGraph
  | .add loan => graph.add loan.holder loan.donor loan.lock
  | .dropLock holder lock => graph.dropLock holder lock
  | .drop loan => graph.drop loan.holder loan.donor loan.lock
  | .forget tid => graph.forget tid

/-- The loans that the graph lists, holder by holder. -/
def loans (graph : DonationGraph) : List Loan :=
  graph.donations.toList.flatMap fun (holder, known) => known.map (Donation.loan holder)

/-- No holder has an empty list. -/
def Filled (graph : DonationGraph) : Prop :=
  ∀ (holder : Tid) (known : List Donation), graph.donations[holder]? = some known → known ≠ []

variable {graph : DonationGraph}

/-- **An operation drops donations of a holder, or appends one that was not there.** -/
theorem received_perform (graph : DonationGraph) (op : LoanOp) (holder : Tid) :
    ((graph.perform op).received holder).Sublist (graph.received holder) ∨
      ∃ donation ∉ graph.received holder,
        (graph.perform op).received holder = graph.received holder ++ [donation] := by
  cases op with
  | add loan =>
      simp only [perform, add]
      split
      · exact Or.inl (List.Sublist.refl _)
      · rename_i fresh
        rw [received_eq, Table.getElem?_insert]
        split
        · rename_i same
          subst same
          exact Or.inr ⟨loan.donation, fresh, rfl⟩
        · rw [← received_eq]
          exact Or.inl (List.Sublist.refl _)
  | dropLock => exact Or.inl sublist_dropReceived
  | drop => exact Or.inl sublist_dropReceived
  | forget tid =>
      rw [perform, received_forget]
      split
      · exact Or.inl (List.nil_sublist _)
      · exact Or.inl List.filter_sublist

theorem filled_empty : ({} : DonationGraph).Filled := by
  simp [Filled]

theorem filled_forget (graph : DonationGraph) (tid : Tid) : (graph.forget tid).Filled := by
  intro other listed found
  rw [DonationGraph.forget, Std.TreeMap.getElem?_filterMap'] at found
  obtain ⟨before, -, kept⟩ := Option.bind_eq_some_iff.mp found
  unfold withoutDonor at kept
  dsimp only at kept
  split at kept
  · cases kept
  · rename_i left
    cases kept
    simpa using left

namespace Filled

variable (filled : graph.Filled)
include filled

/-- A holder may get any list that is not empty. -/
theorem insert {holder : Tid} {known : List Donation} (some : known ≠ []) :
    Filled ⟨graph.donations.insert holder known⟩ := by
  intro other listed found
  rw [Table.getElem?_insert] at found
  split at found
  · cases found
    exact some
  · exact filled other listed found

theorem dropReceived (holder : Tid) (selected : Donation → Bool) :
    (graph.dropReceived holder selected).Filled := by
  unfold DonationGraph.dropReceived
  split
  · exact filled
  · dsimp only
    split
    · intro other listed found
      rw [Table.getElem?_erase] at found
      split at found
      · cases found
      · exact filled other listed found
    · rename_i left
      exact filled.insert (by simpa using left)

theorem perform (op : LoanOp) : (graph.perform op).Filled := by
  cases op with
  | add loan =>
      simp only [DonationGraph.perform, add]
      split
      · exact filled
      · exact filled.insert (by simp)
  | dropLock holder lock => exact filled.dropReceived holder _
  | drop loan => exact filled.dropReceived loan.holder _
  | forget tid => exact graph.filled_forget tid

end Filled

/-! ## The graph lists its loans -/

theorem mem_loans {loan : Loan} :
    loan ∈ graph.loans ↔ loan.donation ∈ graph.received loan.holder := by
  rw [loans, List.mem_flatMap, received_eq]
  constructor
  · rintro ⟨⟨holder, known⟩, entry, member⟩
    obtain ⟨donation, listed, rfl⟩ := List.mem_map.mp member
    have found : graph.donations[holder]? = some known :=
      Std.TreeMap.mem_toList_iff_getElem?_eq_some.mp entry
    show donation ∈ (graph.donations[holder]?).getD []
    rw [found]
    exact listed
  · intro member
    cases found : graph.donations[loan.holder]? with
    | none =>
        rw [found] at member
        exact absurd member List.not_mem_nil
    | some known =>
        rw [found] at member
        exact ⟨(loan.holder, known), Std.TreeMap.mem_toList_iff_getElem?_eq_some.mpr found,
          List.mem_map.mpr ⟨loan.donation, member, rfl⟩⟩

theorem nodup_loans (simple : graph.Simple) : graph.loans.Nodup := by
  refine List.nodup_flatMap.mpr ⟨?_, ?_⟩
  · rintro ⟨holder, known⟩ entry
    have found : graph.donations[holder]? = some known :=
      Std.TreeMap.mem_toList_iff_getElem?_eq_some.mp entry
    have once := simple holder
    rw [received_eq, found] at once
    exact once.map (Donation.loan_injective holder)
  · refine Std.TreeMap.distinct_keys_toList.imp ?_
    rintro ⟨holder, known⟩ ⟨other, too⟩ apart loan member again
    obtain ⟨donation, -, rfl⟩ := List.mem_map.mp member
    obtain ⟨_, _, same⟩ := List.mem_map.mp again
    exact apart (byNumber_eq_iff.mpr (congrArg Loan.holder same).symm)

end DonationGraph

/-! ## Any sequence of operations -/

/-- The graph has the loans of a sequence of operations, those of a holder in the order in which they
came. -/
structure Lists (graph : DonationGraph) (ops : List LoanOp) : Prop where
  mem : ∀ loan : Loan, loan.donation ∈ graph.received loan.holder ↔ loan ∈ loansAfter ops
  filled : graph.Filled
  ordered : ∀ holder, ((graph.received holder).map (Donation.loan holder)).Pairwise (Earlier ops)

namespace Lists

variable {graph : DonationGraph} {ops : List LoanOp}

theorem empty : Lists {} [] where
  mem loan := by simp [DonationGraph.received, loansAfter]
  filled := DonationGraph.filled_empty
  ordered holder := by simp [DonationGraph.received]

section Sequence

variable (lists : Lists graph ops)
include lists

theorem simple : graph.Simple := fun holder =>
  List.Nodup.of_map _ ((lists.ordered holder).imp Earlier.ne)

theorem mem_perform (op : LoanOp) (loan : Loan) :
    loan.donation ∈ (graph.perform op).received loan.holder ↔ loan ∈ op.perform (loansAfter ops) := by
  have known := lists.mem loan
  cases op with
  | add added =>
      rw [LoanOp.perform, Finset.mem_insert, ← known, or_comm, Loan.eq_iff]
      exact DonationGraph.mem_received_add
  | dropLock holder lock =>
      rw [LoanOp.perform, Finset.mem_filter, ← known]
      exact DonationGraph.mem_received_dropLock
  | drop dropped =>
      rw [LoanOp.perform, Finset.mem_erase, ← known, and_comm, ne_eq, Loan.eq_iff]
      exact DonationGraph.mem_received_drop
  | forget tid =>
      rw [LoanOp.perform, Finset.mem_filter, ← known, not_or]
      exact DonationGraph.mem_received_forget

theorem ordered_perform (op : LoanOp) (holder : Tid) :
    (((graph.perform op).received holder).map (Donation.loan holder)).Pairwise
      (Earlier (ops ++ [op])) := by
  have left : ∀ donation ∈ (graph.perform op).received holder,
      donation.loan holder ∈ loansAfter (ops ++ [op]) := by
    intro donation listed
    rw [loansAfter_append]
    exact (lists.mem_perform op (donation.loan holder)).mp listed
  have ordered := List.pairwise_map.mp (lists.ordered holder)
  rw [List.pairwise_map]
  rcases graph.received_perform op holder with fewer | ⟨new, absent, more⟩
  · refine (ordered.sublist fewer).imp_of_mem fun one other earlier => ?_
    exact earlier.append (left _ one) (left _ other)
  · rw [more] at left ⊢
    have old : ∀ donation ∈ graph.received holder, donation.loan holder ∈ loansAfter (ops ++ [op]) :=
      fun donation listed => left donation (List.mem_append_left _ listed)
    refine List.pairwise_append.mpr ⟨?_, List.pairwise_singleton _ _, ?_⟩
    · exact ordered.imp_of_mem fun one other earlier => earlier.append (old _ one) (old _ other)
    · intro donation listed last member
      rw [List.mem_singleton.mp member]
      exact earlier_of_new ((lists.mem _).mp listed) (old donation listed)
        (mt (lists.mem (new.loan holder)).mpr absent) (left new (by simp))

/-- **Each operation does to the graph what it does to the set.** -/
theorem perform (op : LoanOp) : Lists (graph.perform op) (ops ++ [op]) where
  mem loan := by
    rw [loansAfter_append]
    exact lists.mem_perform op loan
  filled := lists.filled.perform op
  ordered := lists.ordered_perform op

/-! ### What can be seen of the loans -/

theorem mem_loans_iff {loan : Loan} : loan ∈ graph.loans ↔ loan ∈ loansAfter ops :=
  DonationGraph.mem_loans.trans (lists.mem loan)

theorem countLock_eq (holder : Tid) (lock : LockId) :
    graph.countLock holder lock = (dropped ops (.dropLock holder lock)).card := by
  have once := ((lists.simple holder).filter fun donation => donation.lock == lock).map
    (Donation.loan_injective holder)
  rw [DonationGraph.countLock, DonationGraph.countReceived, List.countP_eq_length_filter,
    ← List.length_map (Donation.loan holder), ← List.toFinset_card_of_nodup once, dropped,
    loansAfter_append]
  congr 1
  ext loan
  rw [List.mem_toFinset, List.mem_map, Finset.mem_sdiff, LoanOp.perform, Finset.mem_filter,
    ← lists.mem]
  constructor
  · rintro ⟨donation, listed, rfl⟩
    obtain ⟨listed, through⟩ := List.mem_filter.mp listed
    exact ⟨listed, fun ⟨_, other⟩ => other ⟨rfl, eq_of_beq through⟩⟩
  · rintro ⟨listed, taken⟩
    obtain ⟨rfl, rfl⟩ := not_not.mp (not_and.mp taken listed)
    exact ⟨loan.donation, List.mem_filter.mpr ⟨listed, beq_self_eq_true _⟩, rfl⟩

/-- A single loan is taken out if it is there. -/
theorem contains_iff (loan : Loan) : graph.contains loan.holder loan.donor loan.lock = true ↔
    (dropped ops (.drop loan)).Nonempty := by
  rw [DonationGraph.contains, List.contains_iff_mem, dropped, loansAfter_append, LoanOp.perform]
  constructor
  · intro listed
    exact ⟨loan, Finset.mem_sdiff.mpr ⟨(lists.mem loan).mp listed, Finset.notMem_erase _ _⟩⟩
  · rintro ⟨other, taken⟩
    obtain ⟨member, erased⟩ := Finset.mem_sdiff.mp taken
    have same : other = loan := by
      by_contra different
      exact erased (Finset.mem_erase.mpr ⟨different, member⟩)
    exact (lists.mem loan).mpr (same ▸ member)

theorem hasDonors_iff (holder : Tid) :
    graph.hasDonors holder = true ↔ ∃ loan ∈ loansAfter ops, loan.holder = holder := by
  have some : graph.hasDonors holder = true ↔ ∃ donation, donation ∈ graph.received holder := by
    rw [DonationGraph.hasDonors, Bool.not_eq_true', List.isEmpty_eq_false_iff_exists_mem]
  rw [some]
  constructor
  · rintro ⟨donation, listed⟩
    exact ⟨donation.loan holder, (lists.mem _).mp listed, rfl⟩
  · rintro ⟨loan, member, rfl⟩
    exact ⟨loan.donation, (lists.mem loan).mpr member⟩

theorem hasDonors_iff_entry (holder : Tid) :
    graph.hasDonors holder = true ↔ holder ∈ graph.donations := by
  rw [DonationGraph.hasDonors, DonationGraph.received_eq, Std.TreeMap.mem_iff_isSome_getElem?]
  cases found : graph.donations[holder]? with
  | none => simp
  | some known =>
      have filled := lists.filled holder known found
      simpa using filled

/-- The donors of a holder, in the order in which their loans came. -/
theorem exists_line (holder : Tid) : ∃ line : List Loan,
    (∀ loan, loan ∈ line ↔ loan ∈ loansAfter ops ∧ loan.holder = holder) ∧
      line.Pairwise (Earlier ops) ∧ graph.donorsOf holder = line.map Loan.donor := by
  refine ⟨(graph.received holder).map (Donation.loan holder), fun loan => ?_, lists.ordered holder, ?_⟩
  · rw [List.mem_map]
    constructor
    · rintro ⟨donation, listed, rfl⟩
      exact ⟨(lists.mem _).mp listed, rfl⟩
    · rintro ⟨member, rfl⟩
      exact ⟨loan.donation, (lists.mem loan).mpr member, rfl⟩
  · rw [List.map_map]
    rfl

end Sequence

/-- By induction on the sequence from its end. -/
theorem of_run (ops : List LoanOp) : Lists (ops.foldl DonationGraph.perform {}) ops := by
  induction ops using List.reverseRecOn with
  | nil => exact empty
  | append_singleton ops op ih =>
      rw [List.foldl_append]
      exact ih.perform op

end Lists

/-- What the graph tells of the loans that there are after a sequence of operations. -/
structure Records (graph : DonationGraph) (ops : List LoanOp) : Prop where
  loans : graph.loans.toFinset = loansAfter ops
  once : graph.loans.Nodup
  /-- The answers to the next operation, if it is one that drops. -/
  counts : ∀ holder lock,
    graph.countLock holder lock = (dropped ops (.dropLock holder lock)).card
  finds : ∀ loan : Loan, graph.contains loan.holder loan.donor loan.lock = true ↔
    (dropped ops (.drop loan)).Nonempty
  lent : ∀ holder,
    graph.hasDonors holder = true ↔ ∃ loan ∈ loansAfter ops, loan.holder = holder
  entries : ∀ holder, graph.hasDonors holder = true ↔ holder ∈ graph.donations
  filled : graph.Filled
  donors : ∀ holder, ∃ line : List Loan,
    (∀ loan, loan ∈ line ↔ loan ∈ loansAfter ops ∧ loan.holder = holder) ∧
      line.Pairwise (Earlier ops) ∧ graph.donorsOf holder = line.map Loan.donor

/-- **The donation graph is a set of loans**, whatever is done with it. -/
theorem DonationGraph.run_records (ops : List LoanOp) :
    Records (ops.foldl DonationGraph.perform {}) ops := by
  have lists := Lists.of_run ops
  exact {
    loans := by
      ext loan
      rw [List.mem_toFinset]
      exact lists.mem_loans_iff
    once := DonationGraph.nodup_loans lists.simple
    counts := lists.countLock_eq
    finds := lists.contains_iff
    lent := lists.hasDonors_iff
    entries := lists.hasDonors_iff_entry
    filled := lists.filled
    donors := lists.exists_line }

example : (([.add ⟨⟨1⟩, ⟨2⟩, ⟨1⟩⟩, .add ⟨⟨1⟩, ⟨3⟩, ⟨1⟩⟩, .add ⟨⟨1⟩, ⟨2⟩, ⟨1⟩⟩, .add ⟨⟨1⟩, ⟨2⟩, ⟨2⟩⟩,
    .drop ⟨⟨1⟩, ⟨2⟩, ⟨1⟩⟩] : List LoanOp).foldl DonationGraph.perform {}).donorsOf ⟨1⟩ =
      [⟨3⟩, ⟨2⟩] := by decide

end Preempt
