import Preempt.Proofs.Outcome

/-!
# How a step can fail

`After` says what a step leaves behind if it succeeds. `FailsOnly allowed` is about
the other case: whenever the step fails, the failure is an allowed one. A step to
which no failure is allowed succeeds (`FailsOnly.succeeds`).

As for `After` there is one rewrite rule for each way of building steps and for each
elementary step. Where a step goes on after another, the rule asks that the first
fails only as allowed and that, after each of its successes, the rest does
(`failsOnly_bind`). So what is known of the states in between, by the rules for
`After`, is at hand where a later part must not fail.

`Fails` says that the step does fail, how, and what it leaves behind. `Ensures` says that
it succeeds, with what result and in what state; this is the total version of `After`
(`ensures_iff`), with the same rules.
-/

set_option autoImplicit false

namespace Preempt

section Steps

variable {ε σ α β : Type} {allowed : ε → Prop} {state : σ}

/-- Whenever the step fails, it fails in an allowed way. -/
def FailsOnly (allowed : ε → Prop) (step : EStateM ε σ α) (state : σ) : Prop :=
  ∀ failure last, step state = .error failure last → allowed failure

/-- More may be allowed. -/
theorem FailsOnly.mono {more : ε → Prop} {step : EStateM ε σ α}
    (only : FailsOnly allowed step state) (weaken : ∀ failure, allowed failure → more failure) :
    FailsOnly more step state :=
  fun failure last fails => weaken failure (only failure last fails)

/-- A step that must not fail succeeds. -/
theorem FailsOnly.succeeds {step : EStateM ε σ α} (never : FailsOnly (fun _ => False) step state) :
    ∃ value next, step state = .ok value next := by
  cases result : step state with
  | ok value next => exact ⟨value, next, rfl⟩
  | error failure last => exact absurd result (never failure last)

/-- Two things that hold after a step hold together. -/
theorem After.and {step : EStateM ε σ α} {first second : α → σ → Prop}
    (one : After step first state) (two : After step second state) :
    After step (fun value next => first value next ∧ second value next) state :=
  fun value next success => ⟨one value next success, two value next success⟩

/-- Where what follows cannot fail, nothing is asked of the successes of a step. -/
@[simp] theorem after_trivial (step : EStateM ε σ α) :
    After step (fun _ _ => True) state ↔ True :=
  iff_of_true (fun _ _ _ => trivial) trivial

@[simp] theorem failsOnly_bind (first : EStateM ε σ α) (rest : α → EStateM ε σ β) :
    FailsOnly allowed (first >>= rest) state ↔
      FailsOnly allowed first state ∧
        After first (fun value next => FailsOnly allowed (rest value) next) state := by
  simp only [FailsOnly, After, bind, EStateM.bind]
  cases first state with
  | ok value next => simp
  | error failure last => simp

@[simp] theorem failsOnly_map (f : α → β) (first : EStateM ε σ α) :
    FailsOnly allowed (f <$> first) state ↔ FailsOnly allowed first state := by
  simp only [FailsOnly, Functor.map, EStateM.map]
  cases first state with
  | ok value next => simp
  | error failure last => simp

@[simp] theorem failsOnly_pure (value : α) :
    FailsOnly allowed (pure value : EStateM ε σ α) state ↔ True :=
  iff_of_true (fun _ _ fails => by cases fails) trivial

@[simp] theorem failsOnly_throw (failure : ε) :
    FailsOnly allowed (throw failure : EStateM ε σ α) state ↔ allowed failure :=
  ⟨fun only => only failure state rfl, fun holds _ _ fails => by cases fails; exact holds⟩

@[simp] theorem failsOnly_get : FailsOnly allowed (get : EStateM ε σ σ) state ↔ True :=
  iff_of_true (fun _ _ fails => by cases fails) trivial

@[simp] theorem failsOnly_set (new : σ) :
    FailsOnly allowed (set new : EStateM ε σ Unit) state ↔ True :=
  iff_of_true (fun _ _ fails => by cases fails) trivial

@[simp] theorem failsOnly_modify (change : σ → σ) :
    FailsOnly allowed (modify change : EStateM ε σ Unit) state ↔ True :=
  iff_of_true (fun _ _ fails => by cases fails) trivial

@[simp] theorem failsOnly_ite (condition : Prop) [Decidable condition]
    (first second : EStateM ε σ α) :
    FailsOnly allowed (if condition then first else second) state ↔
      (condition → FailsOnly allowed first state) ∧
        (¬ condition → FailsOnly allowed second state) := by
  split <;> simp [*]

/-- The step fails with `failure`, and the state that it leaves satisfies `post`. -/
def Fails (step : EStateM ε σ α) (failure : ε) (post : σ → Prop) (state : σ) : Prop :=
  ∃ last, step state = .error failure last ∧ post last

namespace Fails

variable {failure : ε} {post weaker : σ → Prop} {first : EStateM ε σ α} {rest : α → EStateM ε σ β}

theorem mono {step : EStateM ε σ α} (fails : Fails step failure post state)
    (weaken : ∀ last, post last → weaker last) : Fails step failure weaker state := by
  obtain ⟨last, result, holds⟩ := fails
  exact ⟨last, result, weaken last holds⟩

theorem throw (holds : post state) :
    Fails (throw failure : EStateM ε σ α) failure post state :=
  ⟨state, rfl, holds⟩

/-- What follows a step that fails is not reached. -/
theorem bind (fails : Fails first failure post state) :
    Fails (first >>= rest) failure post state := by
  obtain ⟨last, result, holds⟩ := fails
  exact ⟨last, by simp only [Bind.bind, EStateM.bind, result], holds⟩

theorem map (f : α → β) (fails : Fails first failure post state) :
    Fails (f <$> first) failure post state := by
  obtain ⟨last, result, holds⟩ := fails
  exact ⟨last, by simp only [Functor.map, EStateM.map, result], holds⟩

/-- A step goes on after another that cannot fail, and then fails. -/
theorem later (never : FailsOnly (fun _ => False) first state)
    (fails : After first (fun value next => Fails (rest value) failure post next) state) :
    Fails (first >>= rest) failure post state := by
  obtain ⟨value, next, success⟩ := never.succeeds
  obtain ⟨last, result, holds⟩ := fails value next success
  exact ⟨last, by simp only [Bind.bind, EStateM.bind, success, result], holds⟩

end Fails

/-- The step succeeds, and its result and new state satisfy `post`. -/
def Ensures (step : EStateM ε σ α) (post : α → σ → Prop) (state : σ) : Prop :=
  ∃ value next, step state = .ok value next ∧ post value next

/-- To ensure something is not to fail, and to have it hold after every success. -/
theorem ensures_iff {step : EStateM ε σ α} {post : α → σ → Prop} :
    Ensures step post state ↔ FailsOnly (fun _ => False) step state ∧ After step post state := by
  constructor
  · rintro ⟨value, next, success, holds⟩
    refine ⟨fun failure last fails => ?_, fun other reached again => ?_⟩
    · cases success.symm.trans fails
    · cases success.symm.trans again
      exact holds
  · rintro ⟨never, after⟩
    obtain ⟨value, next, success⟩ := never.succeeds
    exact ⟨value, next, success, after value next success⟩

theorem Ensures.mono {step : EStateM ε σ α} {post weaker : α → σ → Prop}
    (ensures : Ensures step post state)
    (weaken : ∀ value next, post value next → weaker value next) : Ensures step weaker state := by
  obtain ⟨value, next, success, holds⟩ := ensures
  exact ⟨value, next, success, weaken value next holds⟩

@[simp] theorem ensures_bind (first : EStateM ε σ α) (rest : α → EStateM ε σ β)
    (post : β → σ → Prop) : Ensures (first >>= rest) post state ↔
      Ensures first (fun value next => Ensures (rest value) post next) state := by
  simp only [Ensures, bind, EStateM.bind]
  cases first state with
  | ok value next =>
      constructor
      · exact fun ensures => ⟨value, next, rfl, ensures⟩
      · rintro ⟨_, _, ⟨⟩, ensures⟩
        exact ensures
  | error failure last => simp

@[simp] theorem ensures_pure (value : α) (post : α → σ → Prop) :
    Ensures (pure value : EStateM ε σ α) post state ↔ post value state := by
  simp [ensures_iff]

@[simp] theorem ensures_get (post : σ → σ → Prop) :
    Ensures (get : EStateM ε σ σ) post state ↔ post state state := by
  simp [ensures_iff]

@[simp] theorem ensures_set (new : σ) (post : Unit → σ → Prop) :
    Ensures (set new : EStateM ε σ Unit) post state ↔ post () new := by
  simp [ensures_iff]

@[simp] theorem ensures_modify (change : σ → σ) (post : Unit → σ → Prop) :
    Ensures (modify change : EStateM ε σ Unit) post state ↔ post () (change state) := by
  simp [ensures_iff]

end Steps

/-! ## Elementary steps of the scheduler -/

namespace KernelM

variable {allowed : Fault → Prop} {kernel : Kernel} {tid : Tid}

@[simp] theorem failsOnly_thread :
    FailsOnly allowed (thread tid) kernel ↔
      (kernel.threads[tid]? = none → allowed (.noThread tid)) := by
  simp only [thread, failsOnly_bind, failsOnly_get, true_and, after_get]
  cases kernel.threads[tid]? <;> simp

@[simp] theorem failsOnly_running :
    FailsOnly allowed running kernel ↔
      (kernel.threads[kernel.current]? = none → allowed (.noThread kernel.current)) := by
  simp [running]

@[simp] theorem failsOnly_change {change : Thread → Thread} :
    FailsOnly allowed (KernelM.change tid change) kernel ↔
      (kernel.threads[tid]? = none → allowed (.noThread tid)) := by
  simp [KernelM.change]

@[simp] theorem failsOnly_notify {notice : Notice} :
    FailsOnly allowed (notify notice) kernel ↔ True := by
  simp [notify]

@[simp] theorem failsOnly_fail {α : Type} {error : KernelError} {reason : String} :
    FailsOnly allowed (fail error reason : KernelM (Except KernelError α)) kernel ↔ True := by
  simp [fail]

@[simp] theorem failsOnly_ofArith {α : Type} {step : Except ArithFault α} :
    FailsOnly allowed (ofArith step) kernel ↔
      ∀ fault, step = .error fault → allowed (.arith fault) := by
  cases step <;> simp [ofArith]

@[simp] theorem failsOnly_checkStack :
    FailsOnly allowed checkStack kernel ↔
      (kernel.threads[kernel.current]? = none → allowed (.noThread kernel.current)) ∧
        ∀ found, kernel.threads[kernel.current]? = some found → found.isIntact ≠ true →
          allowed (.stackOverflow found.name found.tid) := by
  simp [checkStack]

@[simp] theorem ensures_thread {post : Thread → Kernel → Prop} :
    Ensures (thread tid) post kernel ↔
      ∃ found, kernel.threads[tid]? = some found ∧ post found kernel := by
  cases found : kernel.threads[tid]? <;> simp [ensures_iff, found]

@[simp] theorem ensures_running {post : Thread → Kernel → Prop} :
    Ensures running post kernel ↔
      ∃ found, kernel.threads[kernel.current]? = some found ∧ post found kernel := by
  simp [running]

@[simp] theorem ensures_change {change : Thread → Thread} {post : Unit → Kernel → Prop} :
    Ensures (KernelM.change tid change) post kernel ↔
      (∃ found, kernel.threads[tid]? = some found) ∧ post () (kernel.update tid change) := by
  cases found : kernel.threads[tid]? <;> simp [ensures_iff, found]

@[simp] theorem ensures_notify {notice : Notice} {post : Unit → Kernel → Prop} :
    Ensures (notify notice) post kernel ↔ post () (kernel.notify notice) := by
  simp [ensures_iff]

@[simp] theorem ensures_fail {α : Type} {error : KernelError} {reason : String}
    {post : Except KernelError α → Kernel → Prop} :
    Ensures (fail error reason : KernelM (Except KernelError α)) post kernel ↔
      post (.error error) (kernel.notify (.failed error reason)) := by
  simp only [fail, ensures_bind, ensures_notify, ensures_pure]

@[simp] theorem ensures_checkStack {post : Unit → Kernel → Prop} :
    Ensures checkStack post kernel ↔
      (∃ found, kernel.threads[kernel.current]? = some found ∧ found.isIntact = true) ∧
        post () kernel := by
  cases found : kernel.threads[kernel.current]? with
  | none => simp [ensures_iff, found]
  | some thread =>
      cases intact : thread.isIntact <;> simp [ensures_iff, found, intact]

end KernelM

/-! ## Elementary steps of the machine -/

namespace MachineM

variable {allowed : Stop → Prop} {machine : Machine}

@[simp] theorem failsOnly_fault {α : Type} {reason : Fault} :
    FailsOnly allowed (fault reason : MachineM α) machine ↔ allowed (.fault reason) := by
  simp [fault]

/-- A step of the scheduler fails where the scheduler does. -/
@[simp] theorem failsOnly_kernel {α : Type} {step : KernelM α} :
    FailsOnly allowed (kernel step) machine ↔
      FailsOnly (fun fault => allowed (.fault fault)) step machine.kernel := by
  simp only [FailsOnly, kernel]
  cases step machine.kernel <;> simp

@[simp] theorem failsOnly_push {frames : List Frame} :
    FailsOnly allowed (push frames) machine ↔ True := by
  simp [push]

@[simp] theorem failsOnly_setLevel {level : IntrLevel} :
    FailsOnly allowed (setLevel level) machine ↔ True := by
  simp [setLevel]

@[simp] theorem failsOnly_assertThread {call : ThreadCall} :
    FailsOnly allowed (assertThread call) machine ↔
      (machine.cpu.inInterrupt = true → allowed (.fault (.inInterrupt call))) := by
  simp [assertThread]

@[simp] theorem failsOnly_assertMasked {call : MaskedCall} :
    FailsOnly allowed (assertMasked call) machine ↔
      (machine.cpu.level = .on → allowed (.fault (.interruptsOn call))) := by
  simp [assertMasked]

@[simp] theorem failsOnly_masked {frames : List Frame} :
    FailsOnly allowed (masked frames) machine ↔ True := by
  simp [masked]

@[simp] theorem failsOnly_record {label : Label} {value : Value} :
    FailsOnly allowed (record label value) machine ↔ True := by
  simp [record]

/-- A step of the scheduler succeeds where the scheduler does. -/
@[simp] theorem ensures_kernel {α : Type} {step : KernelM α} {post : α → Machine → Prop} :
    Ensures (kernel step) post machine ↔
      Ensures step (fun value next => post value (machine.absorb next)) machine.kernel := by
  simp [ensures_iff]

@[simp] theorem ensures_push {frames : List Frame} {post : Unit → Machine → Prop} :
    Ensures (push frames) post machine ↔
      post () { machine with
        work := machine.work.insert machine.current
          (frames ++ machine.workOf machine.current) } := by
  simp [ensures_iff]

@[simp] theorem ensures_setLevel {level : IntrLevel} {post : IntrLevel → Machine → Prop} :
    Ensures (setLevel level) post machine ↔
      post machine.cpu.level { machine with cpu := { machine.cpu with level := level } } := by
  simp [ensures_iff]

@[simp] theorem ensures_assertThread {call : ThreadCall} {post : Unit → Machine → Prop} :
    Ensures (assertThread call) post machine ↔
      machine.cpu.inInterrupt = false ∧ post () machine := by
  cases inside : machine.cpu.inInterrupt <;> simp [ensures_iff, inside]

/-- The machine fails where the scheduler does. -/
theorem fails_kernel {α : Type} {step : KernelM α} {fault : Fault} {post : Kernel → Prop}
    (fails : Fails step fault post machine.kernel) :
    Fails (kernel step) (.fault fault) (fun last => ∃ next, post next ∧ last = machine.absorb next)
      machine := by
  obtain ⟨next, result, holds⟩ := fails
  exact ⟨machine.absorb next, by simp only [kernel, result], next, holds, rfl⟩

end MachineM

end Preempt
