import Preempt.Kernel.Attributes
import Preempt.Machine.Basic

/-!
# Answering queries

A query is answered from the state of the scheduler and of the processor. It
changes neither; at most it leaves a notice.
-/

set_option autoImplicit false

namespace Preempt

namespace MachineM

/-- The running thread's control block. -/
def running : MachineM Thread :=
  kernel KernelM.running

/-- The result of a query. -/
def answer : Query → MachineM Value
  | .current => .info <$> kernel KernelM.currentInfo
  | .tid => return .tid (← get).current
  | .name => do
    let info ← kernel KernelM.currentInfo
    return .text info.name
  | .info tid => .ofExcept .info <$> kernel (KernelM.info tid)
  | .threads => return .infos (← get).kernel.liveInfos
  | .threadNames => do
    assertMasked .forEachThread
    return .texts ((← get).kernel.liveInfos.map ThreadInfo.name)
  | .policy => return .policy (← get).kernel.config.policy
  | .priority => return .number (← running).effective
  | .nice => return .number (← running).nice
  | .recentCpu => do
    let self ← running
    .number <$> kernel (KernelM.ofArith (Feedback.times100 self.recentCpu))
  | .loadAvg => do
    let loadAvg := (← get).kernel.feedback.loadAvg
    .number <$> kernel (KernelM.ofArith (Feedback.times100 loadAvg))
  | .ticks => return .number (← get).kernel.stats.ticks
  | .stats => return .stats (← get).kernel.stats
  | .logStats => do
    kernel KernelM.logStats
    return .nothing
  | .audit => return .audit (← get).kernel.audit
  | .holdsLock lock => .flag <$> kernel (KernelM.holds lock)
  | .semaValue sema => do
    let state ← kernel (KernelM.semaState sema)
    return .number state.value
  | .permits sema => do
    if sema ∈ (← get).semaObjects then
      let state ← kernel (KernelM.semaState sema)
      return .number state.value
    else
      return .noObject
  | .isWaiting tid => .flag <$> kernel (KernelM.isWaiting tid)
  | .level => return .level (← get).cpu.level
  | .inInterrupt => return .flag (← get).cpu.inInterrupt
  | .note text => return .text text

end MachineM

end Preempt
