import Preempt.Kernel.Tick

/-!
# Thread attributes

Reading and setting what callers may see of a thread: its attributes, its
priority and nice value, and the data that other subsystems attach to it.
-/

set_option autoImplicit false

namespace Preempt

namespace KernelM

/-- The running thread's attributes; its stack must be intact. -/
def currentInfo : KernelM ThreadInfo := do
  checkStack
  return (← running).info

/-- The attributes of a thread that has not exited. -/
def info (tid : Tid) : KernelM (Except KernelError ThreadInfo) := do
  match (← get).liveThread? tid with
  | some thread => return .ok thread.info
  | none => fail .noSuchThread ""

/-- Sets the running thread's base priority. Under the feedback policy this is
ignored. The result tells whether the thread may now be outranked. -/
def setPriority (priority : Int) : KernelM Bool := do
  unless IsPriority priority do
    throw (.badPriority priority)
  let kernel ← get
  if kernel.usesFeedback then
    return false
  change kernel.current fun thread => { thread with base := priority }
  modify fun kernel =>
    match kernel.refresh? kernel.current with
    | none => kernel
    | some (_, refreshed) => refreshed
  return true

/-- Sets the running thread's nice value, kept between its bounds, and derives
its priority anew under the feedback policy. -/
def setNice (nice : Int) : KernelM Unit := do
  let kernel ← get
  change kernel.current fun thread => { thread with nice := clamp niceMin niceMax nice }
  if kernel.usesFeedback then
    rederiveOne kernel.current

/-- Changes what is attached to a thread that has not exited and returns the
result. -/
def editPayload (tid : Tid) (edit : Payload → Payload) :
    KernelM (Except KernelError Payload) := do
  match (← get).liveThread? tid with
  | none => fail .noSuchThread ""
  | some thread =>
    let payload := edit thread.payload
    change tid fun thread => { thread with payload := payload }
    return .ok payload

/-- Whether a thread is asleep on a lock or semaphore. -/
def isWaiting (tid : Tid) : KernelM Bool := do
  match (← get).liveThread? tid with
  | none => return false
  | some thread =>
    match thread.membership with
    | .waiting _ => return thread.state = .blocked
    | _ => return false

/-- Alters the lowest byte of the running thread's stack. The result tells
whether it has one. -/
def alterStack : KernelM Bool := do
  let self ← running
  match self.stack with
  | none => return false
  | some stack =>
    change self.tid fun thread => { thread with stack := some stack.flipLowByte }
    return true

/-- Logs the tick counters. -/
def logStats : KernelM Unit := do
  let stats := (← get).stats
  notify (.statistics stats.idle stats.kernel stats.user)

end KernelM

end Preempt
