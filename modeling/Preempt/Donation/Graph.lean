import Preempt.Thread.Id

/-!
# Who donates to whom

A donation goes from a thread that waits for a lock to the thread that holds
the lock. The graph lists, for every holder, the donors and the locks through
which they donate, in order of arrival and without repetition. A holder
without donors has no entry.
-/

set_option autoImplicit false

namespace Preempt

/-- A donor and the lock it waits for. -/
structure Donation where
  donor : Tid
  lock : LockId
deriving DecidableEq

/-- Donations by holder. -/
structure DonationGraph where
  donations : Table Tid (List Donation) := ∅

namespace DonationGraph

/-- The donations that a holder receives, in order of arrival. -/
def received (graph : DonationGraph) (holder : Tid) : List Donation :=
  graph.donations.getD holder []

/-- The threads that donate to a holder, in order of arrival. -/
def donorsOf (graph : DonationGraph) (holder : Tid) : List Tid :=
  (graph.received holder).map Donation.donor

/-- Whether anyone donates to a holder. -/
def hasDonors (graph : DonationGraph) (holder : Tid) : Bool :=
  !(graph.received holder).isEmpty

/-- Records that `donor` donates to `holder` through `lock`. -/
def add (graph : DonationGraph) (holder donor : Tid) (lock : LockId) : DonationGraph :=
  let known := graph.received holder
  if ⟨donor, lock⟩ ∈ known then graph
  else ⟨graph.donations.insert holder (known ++ [⟨donor, lock⟩])⟩

/-- Drops the donations to a holder that a test selects, and the holder's
entry with the last of them. -/
def dropReceived (graph : DonationGraph) (holder : Tid) (selected : Donation → Bool) :
    DonationGraph :=
  match graph.donations[holder]? with
  | none => graph
  | some known =>
    let kept := known.filter fun donation => !selected donation
    if kept.isEmpty then ⟨graph.donations.erase holder⟩
    else ⟨graph.donations.insert holder kept⟩

/-- The number of donations to a holder that a test selects. -/
def countReceived (graph : DonationGraph) (holder : Tid) (selected : Donation → Bool) : Nat :=
  (graph.received holder).countP selected

/-- Drops every donation to a holder through a lock. -/
def dropLock (graph : DonationGraph) (holder : Tid) (lock : LockId) : DonationGraph :=
  graph.dropReceived holder fun donation => donation.lock == lock

/-- The number of donations to a holder through a lock. -/
def countLock (graph : DonationGraph) (holder : Tid) (lock : LockId) : Nat :=
  graph.countReceived holder fun donation => donation.lock == lock

/-- Drops one donation. -/
def drop (graph : DonationGraph) (holder donor : Tid) (lock : LockId) : DonationGraph :=
  graph.dropReceived holder fun donation => donation == ⟨donor, lock⟩

/-- Whether a donation is recorded. -/
def contains (graph : DonationGraph) (holder donor : Tid) (lock : LockId) : Bool :=
  (graph.received holder).contains ⟨donor, lock⟩

/-- The donations of one holder without those of a donor, or nothing if none
are left. -/
def withoutDonor (tid : Tid) (known : List Donation) : Option (List Donation) :=
  let kept := known.filter fun donation => donation.donor != tid
  if kept.isEmpty then none else some kept

/-- Drops a thread as holder and as donor. -/
def forget (graph : DonationGraph) (tid : Tid) : DonationGraph :=
  ⟨(graph.donations.erase tid).filterMap fun _ known => withoutDonor tid known⟩

end DonationGraph

end Preempt
