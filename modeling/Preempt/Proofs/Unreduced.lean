import Preempt.Kernel.Tick

/-!
# Ticks whose arithmetic needs no reduction

Products and quotients of fixed-point numbers, and the count of runnable
threads, are brought into the 32-bit range by reducing them modulo `2^32`. Here
the steps of a tick are written once more with the reduction as a parameter. With
the reduction that the scheduler uses they are the steps of the scheduler
(`KernelM.tickBy_modulo`).

The other reduction of interest refuses every value that it would have to change.
As long as a tick with this one does not fail in its arithmetic, it does what the
scheduler does (`refines_tick`), which then has changed no value by reducing it.
-/

set_option autoImplicit false

namespace Preempt

/-- How a value that is not checked is brought into the range. -/
abbrev Reduction : Type :=
  Int → Except ArithFault Fixed

namespace Reduction

/-- The remainder modulo `2^32`. -/
def modulo : Reduction :=
  fun value => pure (Fixed.wrap value)

/-- Values that would be changed are refused. -/
def refusing : Reduction :=
  Fixed.ofRaw .mulOverflow

end Reduction

/-! ## The steps of a tick by either reduction -/

section Steps

variable (reduce : Reduction)

/-- The product, rescaled and brought into the range. -/
def Fixed.mulBy (x y : Fixed) : Except ArithFault Fixed :=
  reduce ((x.raw * y.raw).tdiv Fixed.scale)

/-- The quotient, scaled up before the division and brought into the range. -/
def Fixed.divBy (x y : Fixed) : Except ArithFault Fixed :=
  if y.raw = 0 then .error .divByZero else reduce ((x.raw * Fixed.scale).tdiv y.raw)

namespace Feedback

/-- `59/60` of the old load average and `1/60` of the new sample. -/
def nextLoadAvgBy (loadAvg : Fixed) (readyCount : Int) : Except ArithFault Fixed := do
  let whole ← Fixed.ofInt 59
  let weight ← whole.divInt 60
  let sample ← Fixed.ofInt readyCount
  let share ← sample.divInt 60
  let kept ← Fixed.mulBy reduce weight loadAvg
  kept.add share

/-- `2L / (2L + 1)` of the old value, plus the nice value. -/
def decayBy (recentCpu loadAvg : Fixed) (nice : Int) : Except ArithFault Fixed := do
  let twice ← loadAvg.mulInt 2
  let above ← twice.addInt 1
  let weight ← Fixed.divBy reduce twice above
  let kept ← Fixed.mulBy reduce weight recentCpu
  kept.addInt nice

/-- Takes one sample into the load average. -/
def sampleBy (feedback : Feedback) (readyCount : Nat) : Except ArithFault Feedback := do
  let count ← reduce readyCount
  let loadAvg ← nextLoadAvgBy reduce feedback.loadAvg count.raw
  return { feedback with loadAvg := loadAvg }

end Feedback

namespace KernelM

/-- Decays the processor use of the listed threads, the idle thread excepted. -/
def decayAllBy : List Tid → KernelM Unit
  | [] => return
  | tid :: rest => do
    let kernel ← get
    unless kernel.isIdle tid do
      let thread ← thread tid
      let recentCpu ← ofArith
        (Feedback.decayBy reduce thread.recentCpu kernel.feedback.loadAvg thread.nice)
      change tid fun thread => { thread with recentCpu := recentCpu }
    decayAllBy rest

/-- Takes a sample of runnable threads into the load average, then decays the processor use of all
live threads. -/
def endSecondBy : KernelM Unit := do
  let kernel ← get
  let running := if kernel.isIdle kernel.current then 0 else 1
  let feedback ← ofArith (Feedback.sampleBy reduce kernel.feedback (kernel.ready.size + running))
  set { kernel with feedback := feedback }
  decayAllBy reduce kernel.live

/-- The part of a tick that the feedback policy adds. -/
def feedbackTickBy : KernelM Unit := do
  chargeTick
  let kernel ← get
  let secondEnds ← ofArith (kernel.feedback.isSecondBoundary kernel.stats.ticks)
  if secondEnds then
    endSecondBy reduce
  if Feedback.isPriorityBoundary kernel.stats.ticks then
    rederive
    modify fun kernel =>
      if kernel.outranked then { kernel with yieldPending := true } else kernel

/-- All accounting of one timer tick. -/
def tickBy : KernelM Unit := do
  checkStack
  countTick
  if (← get).usesFeedback then
    feedbackTickBy reduce
  chargeQuantum

end KernelM

end Steps

/-! ## The scheduler reduces modulo `2^32` -/

theorem Fixed.mulBy_modulo (x y : Fixed) : mulBy .modulo x y = pure (x.mul y) :=
  rfl

theorem Fixed.divBy_modulo (x y : Fixed) : divBy .modulo x y = x.div y :=
  rfl

theorem Feedback.nextLoadAvgBy_modulo (loadAvg : Fixed) (readyCount : Int) :
    nextLoadAvgBy .modulo loadAvg readyCount = nextLoadAvg loadAvg readyCount := by
  simp only [nextLoadAvgBy, nextLoadAvg, Fixed.mulBy_modulo, pure_bind]

theorem Feedback.decayBy_modulo (recentCpu loadAvg : Fixed) (nice : Int) :
    decayBy .modulo recentCpu loadAvg nice = decay recentCpu loadAvg nice := by
  simp only [decayBy, decay, Fixed.mulBy_modulo, Fixed.divBy_modulo, pure_bind]

theorem Feedback.sampleBy_modulo (feedback : Feedback) (readyCount : Nat) :
    sampleBy .modulo feedback readyCount = feedback.sample readyCount := by
  simp only [sampleBy, sample, nextLoadAvgBy_modulo, Reduction.modulo, Fixed.wrap, pure_bind]

theorem KernelM.decayAllBy_modulo : decayAllBy .modulo = decayAll := by
  funext tids
  induction tids with
  | nil => rfl
  | cons tid rest ih =>
      simp only [decayAllBy, decayAll, ih, Feedback.decayBy_modulo, Feedback.decayed]

/-- **With the reduction modulo `2^32` the steps are the scheduler's.** -/
theorem KernelM.tickBy_modulo : tickBy .modulo = tick := by
  have second : endSecondBy .modulo = endSecond := by
    simp only [endSecondBy, endSecond, decayAllBy_modulo, Feedback.sampleBy_modulo]
  simp only [tickBy, tick, feedbackTickBy, feedbackTick, second]

/-! ## Stricter reductions -/

/-- Whenever the first step succeeds, so does the second, with the same result. -/
def Narrows {α : Type} (strict loose : Except ArithFault α) : Prop :=
  ∀ value, strict = .ok value → loose = .ok value

/-- The first step does the same as the second, or fails in its arithmetic. -/
def Refines {α : Type} (strict loose : KernelM α) : Prop :=
  ∀ kernel, strict kernel = loose kernel ∨ ∃ fault next, strict kernel = .error (.arith fault) next

section Rules

variable {α β : Type}

theorem Narrows.refl (step : Except ArithFault α) : Narrows step step :=
  fun _ success => success

theorem Narrows.bind {strict loose : Except ArithFault α} {rest rest' : α → Except ArithFault β}
    (first : Narrows strict loose) (second : ∀ value, Narrows (rest value) (rest' value)) :
    Narrows (strict >>= rest) (loose >>= rest') := by
  intro result success
  obtain ⟨value, outcome, success⟩ := exists_ok_of_bind success
  rw [first value outcome]
  exact second value result success

theorem Refines.refl (step : KernelM α) : Refines step step :=
  fun _ => Or.inl rfl

theorem Refines.bind {strict loose : KernelM α} {rest rest' : α → KernelM β}
    (first : Refines strict loose) (second : ∀ value, Refines (rest value) (rest' value)) :
    Refines (strict >>= rest) (loose >>= rest') := by
  intro kernel
  rcases first kernel with same | ⟨fault, next, fails⟩
  · cases outcome : loose kernel with
    | error fault next =>
        refine Or.inl ?_
        simp only [Bind.bind, EStateM.bind, same, outcome]
    | ok value next =>
        simp only [Bind.bind, EStateM.bind, same, outcome]
        exact second value next
  · refine Or.inr ⟨fault, next, ?_⟩
    simp only [Bind.bind, EStateM.bind, fails]

theorem Refines.ofArith {strict loose : Except ArithFault α} (narrows : Narrows strict loose) :
    Refines (KernelM.ofArith strict) (KernelM.ofArith loose) := by
  intro kernel
  cases outcome : strict with
  | error fault => exact Or.inr ⟨fault, kernel, rfl⟩
  | ok value =>
      rw [narrows value outcome]
      exact Or.inl rfl

theorem Refines.ite {condition : Prop} [Decidable condition] {strict strict' loose loose' : KernelM α}
    (first : Refines strict loose) (second : Refines strict' loose') :
    Refines (if condition then strict else strict') (if condition then loose else loose') := by
  split
  · exact first
  · exact second

end Rules

section Stricter

variable {strict loose : Reduction} (narrows : ∀ value, Narrows (strict value) (loose value))
include narrows

theorem narrows_mulBy (x y : Fixed) : Narrows (Fixed.mulBy strict x y) (Fixed.mulBy loose x y) :=
  narrows _

theorem narrows_divBy (x y : Fixed) : Narrows (Fixed.divBy strict x y) (Fixed.divBy loose x y) := by
  unfold Fixed.divBy
  split
  · exact Narrows.refl _
  · exact narrows _

theorem narrows_nextLoadAvgBy (loadAvg : Fixed) (readyCount : Int) :
    Narrows (Feedback.nextLoadAvgBy strict loadAvg readyCount)
      (Feedback.nextLoadAvgBy loose loadAvg readyCount) :=
  .bind (.refl _) fun _ => .bind (.refl _) fun _ => .bind (.refl _) fun _ => .bind (.refl _) fun _ =>
    .bind (narrows_mulBy narrows _ _) fun _ => .refl _

theorem narrows_decayBy (recentCpu loadAvg : Fixed) (nice : Int) :
    Narrows (Feedback.decayBy strict recentCpu loadAvg nice)
      (Feedback.decayBy loose recentCpu loadAvg nice) :=
  .bind (.refl _) fun _ => .bind (.refl _) fun _ => .bind (narrows_divBy narrows _ _) fun _ =>
    .bind (narrows_mulBy narrows _ _) fun _ => .refl _

theorem narrows_sampleBy (feedback : Feedback) (readyCount : Nat) :
    Narrows (Feedback.sampleBy strict feedback readyCount)
      (Feedback.sampleBy loose feedback readyCount) :=
  .bind (narrows _) fun _ => .bind (narrows_nextLoadAvgBy narrows _ _) fun _ => .refl _

theorem refines_decayAllBy (tids : List Tid) :
    Refines (KernelM.decayAllBy strict tids) (KernelM.decayAllBy loose tids) := by
  induction tids with
  | nil => exact .refl _
  | cons tid rest ih =>
      refine .bind (.refl _) fun kernel => .ite ih ?_
      exact .bind (.refl _) fun _ => .bind (.ofArith (narrows_decayBy narrows _ _ _)) fun _ =>
        .bind (.refl _) fun _ => ih

theorem refines_endSecondBy : Refines (KernelM.endSecondBy strict) (KernelM.endSecondBy loose) :=
  .bind (.refl _) fun _ => .bind (.ofArith (narrows_sampleBy narrows _ _)) fun _ =>
    .bind (.refl _) fun _ => refines_decayAllBy narrows _

theorem refines_feedbackTickBy :
    Refines (KernelM.feedbackTickBy strict) (KernelM.feedbackTickBy loose) := by
  refine .bind (.refl _) fun _ => .bind (.refl _) fun _ => .bind (.refl _) fun _ => .ite ?_ (.refl _)
  exact .bind (refines_endSecondBy narrows) fun _ => .refl _

theorem refines_tickBy : Refines (KernelM.tickBy strict) (KernelM.tickBy loose) := by
  refine .bind (.refl _) fun _ => .bind (.refl _) fun _ => .bind (.refl _) fun _ => .ite ?_ (.refl _)
  exact .bind (refines_feedbackTickBy narrows) fun _ => .refl _

end Stricter

/-- A value that is not refused is not changed. -/
theorem narrows_refusing (value : Int) :
    Narrows (Reduction.refusing value) (Reduction.modulo value) := by
  intro result accepted
  have same := Fixed.ofRaw_ok_iff.mp accepted
  have inside : InRange value := same ▸ result.inRange
  exact congrArg Except.ok (Fixed.ext_raw ((Fixed.wrap_of_inRange inside).trans same.symm))

/-- **A tick that refuses to change values does what a tick of the scheduler does, or fails in its
arithmetic.** -/
theorem refines_tick : Refines (KernelM.tickBy .refusing) KernelM.tick := by
  rw [← KernelM.tickBy_modulo]
  exact refines_tickBy narrows_refusing

end Preempt
