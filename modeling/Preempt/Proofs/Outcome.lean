import Preempt.Machine.Run

/-!
# What a successful step leaves behind

`After step post state` says that `post` holds of the result and the state of
`step` whenever it succeeds from `state`. A step that fails ends the run, so
what it leaves behind is never built upon.

The rules below take a step apart from front to back: each says what `After`
means for one way of building steps (`after_bind`, `after_ite`) or for one
elementary step (`after_get`, `after_change`). Used as rewrite rules they turn
a step written in `do` notation into a statement about the states it passes.
-/

set_option autoImplicit false

namespace Preempt

section Steps

variable {ε σ α β : Type}

/-- Whenever the step succeeds, its result and new state satisfy `post`. -/
def After (step : EStateM ε σ α) (post : α → σ → Prop) (state : σ) : Prop :=
  ∀ value next, step state = .ok value next → post value next

theorem After.mono {step : EStateM ε σ α} {post weaker : α → σ → Prop} {state : σ}
    (after : After step post state) (weaken : ∀ value next, post value next → weaker value next) :
    After step weaker state :=
  fun value next success => weaken value next (after value next success)

@[simp] theorem after_bind (first : EStateM ε σ α) (rest : α → EStateM ε σ β)
    (post : β → σ → Prop) (state : σ) :
    After (first >>= rest) post state ↔
      After first (fun value next => After (rest value) post next) state := by
  simp only [After, bind, EStateM.bind]
  cases first state with
  | ok value next => simp
  | error failure next => simp

@[simp] theorem after_map (f : α → β) (first : EStateM ε σ α) (post : β → σ → Prop) (state : σ) :
    After (f <$> first) post state ↔ After first (fun value next => post (f value) next) state := by
  simp only [After, Functor.map, EStateM.map]
  cases first state with
  | ok value next => simp
  | error failure next => simp

@[simp] theorem after_pure (value : α) (post : α → σ → Prop) (state : σ) :
    After (pure value : EStateM ε σ α) post state ↔ post value state := by
  simp [After, pure, EStateM.pure]

@[simp] theorem after_throw (failure : ε) (post : α → σ → Prop) (state : σ) :
    After (throw failure : EStateM ε σ α) post state ↔ True :=
  iff_of_true (fun _ _ success => by cases success) trivial

@[simp] theorem after_get (post : σ → σ → Prop) (state : σ) :
    After (get : EStateM ε σ σ) post state ↔ post state state :=
  ⟨fun holds => holds state state rfl, fun holds _ _ success => by cases success; exact holds⟩

@[simp] theorem after_set (new : σ) (post : Unit → σ → Prop) (state : σ) :
    After (set new : EStateM ε σ Unit) post state ↔ post () new :=
  ⟨fun holds => holds () new rfl, fun holds _ _ success => by cases success; exact holds⟩

@[simp] theorem after_modify (change : σ → σ) (post : Unit → σ → Prop) (state : σ) :
    After (modify change : EStateM ε σ Unit) post state ↔ post () (change state) :=
  ⟨fun holds => holds () (change state) rfl, fun holds _ _ success => by cases success; exact holds⟩

@[simp] theorem after_ite (condition : Prop) [Decidable condition] (first second : EStateM ε σ α)
    (post : α → σ → Prop) (state : σ) :
    After (if condition then first else second) post state ↔
      (condition → After first post state) ∧ (¬ condition → After second post state) := by
  split <;> simp [*]

/-- A step goes on where the one before it has ended. -/
theorem bind_of_ok {first : EStateM ε σ α} {rest : α → EStateM ε σ β} {state next : σ}
    {value : α} (success : first state = .ok value next) :
    (first >>= rest) state = rest value next := by
  show EStateM.bind first rest state = rest value next
  delta EStateM.bind
  rw [success]

/-- What is left of a step that succeeds when the new state is forgotten. -/
theorem run'_of_ok {step : EStateM ε σ α} {state next : σ} {value : α}
    (success : step state = .ok value next) : step.run' state = some value := by
  delta EStateM.run' EStateM.run
  rw [success]

end Steps

/-! ## Elementary steps of the scheduler -/

namespace KernelM

variable {kernel : Kernel} {tid : Tid}

@[simp] theorem after_thread {post : Thread → Kernel → Prop} :
    After (thread tid) post kernel ↔
      ∀ found, kernel.threads[tid]? = some found → post found kernel := by
  simp only [thread, after_bind, after_get]
  cases kernel.threads[tid]? <;> simp

@[simp] theorem after_running {post : Thread → Kernel → Prop} :
    After running post kernel ↔
      ∀ found, kernel.threads[kernel.current]? = some found → post found kernel := by
  simp [running]

@[simp] theorem after_change {change : Thread → Thread} {post : Unit → Kernel → Prop} :
    After (KernelM.change tid change) post kernel ↔
      ∀ found, kernel.threads[tid]? = some found → post () (kernel.update tid change) := by
  simp [KernelM.change]

@[simp] theorem after_notify {notice : Notice} {post : Unit → Kernel → Prop} :
    After (notify notice) post kernel ↔ post () (kernel.notify notice) := by
  simp [notify]

@[simp] theorem after_fail {α : Type} {error : KernelError} {reason : String}
    {post : Except KernelError α → Kernel → Prop} :
    After (fail error reason) post kernel ↔
      post (.error error) (kernel.notify (.failed error reason)) := by
  simp [fail]

@[simp] theorem after_ofArith {α : Type} {step : Except ArithFault α} {post : α → Kernel → Prop} :
    After (ofArith step) post kernel ↔ ∀ value, step = .ok value → post value kernel := by
  cases step <;> simp [ofArith]

@[simp] theorem after_checkStack {post : Unit → Kernel → Prop} :
    After checkStack post kernel ↔
      ∀ found, kernel.threads[kernel.current]? = some found → found.isIntact = true →
        post () kernel := by
  simp [checkStack]

end KernelM

/-! ## Elementary steps of the machine -/

namespace MachineM

variable {machine : Machine}

@[simp] theorem after_fault {α : Type} {reason : Fault} {post : α → Machine → Prop} :
    After (fault reason : MachineM α) post machine ↔ True := by
  simp [fault]

/-- A step of the scheduler is judged by the scheduler's state before and after. -/
@[simp] theorem after_kernel {α : Type} {step : KernelM α} {post : α → Machine → Prop} :
    After (kernel step) post machine ↔
      After step (fun value next => post value (machine.absorb next)) machine.kernel := by
  simp only [After, kernel]
  cases step machine.kernel <;> simp

@[simp] theorem after_push {frames : List Frame} {post : Unit → Machine → Prop} :
    After (push frames) post machine ↔
      post () { machine with
        work := machine.work.insert machine.current
          (frames ++ machine.workOf machine.current) } := by
  simp [push]

@[simp] theorem after_setLevel {level : IntrLevel} {post : IntrLevel → Machine → Prop} :
    After (setLevel level) post machine ↔
      post machine.cpu.level { machine with cpu := { machine.cpu with level := level } } := by
  simp [setLevel]

@[simp] theorem after_assertThread {call : ThreadCall} {post : Unit → Machine → Prop} :
    After (assertThread call) post machine ↔
      (machine.cpu.inInterrupt = false → post () machine) := by
  simp [assertThread]

@[simp] theorem after_assertMasked {call : MaskedCall} {post : Unit → Machine → Prop} :
    After (assertMasked call) post machine ↔ (machine.cpu.level ≠ .on → post () machine) := by
  simp [assertMasked]

end MachineM

end Preempt
