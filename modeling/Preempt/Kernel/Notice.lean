import Preempt.Thread.Basic
import Preempt.Thread.Error

/-!
# Notices

What the scheduler tells the outside while it works: log lines of four levels
of severity, and two announcements to the layers above it, that a thread is
about to exit and that a thread has been switched to. Notices are kept as
data; `Notice.line?` gives the level and wording of those that are log lines.
-/

set_option autoImplicit false

namespace Preempt

/-- The level of a log line, most severe first. -/
inductive LogLevel where
  | warn
  | info
  | debug
  | trace
deriving DecidableEq

namespace LogLevel

/-- The name of a level. -/
def name : LogLevel → String
  | warn => "warn"
  | info => "info"
  | debug => "debug"
  | trace => "trace"

/-- Larger for less severe levels. -/
def rank : LogLevel → Nat
  | warn => 1
  | info => 2
  | debug => 3
  | trace => 4

end LogLevel

/-- What is told to the outside. -/
inductive Notice where
  | booted (policy : Policy)
  | idleStarted
  | created (name : String) (tid : Tid) (priority : Int)
  | exited (name : String) (tid : Tid) (status : Int)
  | exitsHolding (name : String) (lock : LockId)
  | reclaimed (name : String) (tid : Tid)
  | switched (previous next : String)
  | raised (name : String) (priority : Int)
  | chainCut (start : Tid) (depth : Nat)
  | statistics (idle kernel user : Nat)
  | failed (error : KernelError) (reason : String)
  /-- The running thread is about to exit. -/
  | exitAnnounced (tid : Tid) (status : Int)
  /-- A thread has just been switched to. -/
  | activated (tid : Tid)
deriving DecidableEq

namespace Notice

/-- Level and wording of a log line; announcements are not log lines. -/
def line? : Notice → Option (LogLevel × String)
  | booted policy => some (.info, "Initialize scheduler: policy " ++ policy.name)
  | idleStarted => some (.info, "idle thread started")
  | created name tid priority =>
    some (.debug,
      "create thread " ++ name ++ " (" ++ tid.text ++ ") at priority " ++ toString priority)
  | exited name tid status =>
    some (.debug, "thread " ++ name ++ " (" ++ tid.text ++ ") exits with " ++ toString status)
  | exitsHolding name lock => some (.warn, "thread " ++ name ++ " exits holding " ++ lock.text)
  | reclaimed name tid => some (.debug, "reclaim thread " ++ name ++ " (" ++ tid.text ++ ")")
  | switched previous next => some (.trace, "switch " ++ previous ++ " -> " ++ next)
  | raised name priority =>
    some (.trace, "donation: " ++ name ++ " now at priority " ++ toString priority)
  | chainCut start depth =>
    some (.debug, "donation chain from " ++ start.text ++ " cut at depth " ++ toString depth)
  | statistics idle kernel user =>
    some (.info,
      "Thread: " ++ toString idle ++ " idle ticks, " ++ toString kernel ++ " kernel ticks, " ++
        toString user ++ " user ticks")
  | failed error reason =>
    some (.warn,
      "[" ++ error.qualifiedName ++ "]" ++ if reason.isEmpty then "" else " " ++ reason)
  | exitAnnounced _ _ => none
  | activated _ => none

/-- The level of a log line. -/
def level? (notice : Notice) : Option LogLevel :=
  notice.line?.map Prod.fst

end Notice

end Preempt
