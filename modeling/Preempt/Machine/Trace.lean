import Preempt.Machine.Script

/-!
# The trace of a run

A run leaves a list of events: operations that completed and notices that the
scheduler gave. It ends for one of four reasons, a fault being one of them.
That the trace is too long is found by whoever watches the run: the machine
itself goes on.
-/

set_option autoImplicit false

namespace Preempt

/-- Something that a run shows. -/
inductive Event where
  /-- Thread `tid` completed an operation. The threads that had not exited at
  that moment are listed if the setup asks for it. -/
  | completed (tid : Tid) (label : Label) (value : Value)
      (threads : Option (List ThreadInfo))
  | notice (notice : Notice)
deriving DecidableEq

/-- Why a run ended. -/
inductive Stop where
  /-- The initial thread has nothing left to do. -/
  | done
  /-- The processor has halted as often as allowed. -/
  | idleLimit
  /-- The trace is as long as it may be. -/
  | eventLimit
  /-- The system stopped itself. -/
  | fault (fault : Fault)
deriving DecidableEq

end Preempt
