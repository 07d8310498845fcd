import Preempt.Proofs.Announcements
import Preempt.Proofs.Census
import Preempt.Proofs.Runs

/-!
# What becomes of threads that exit

A thread exits in two phases, and two threads carry them out: it gives up its locks
and is marked as exited, and the thread that runs next frees its control block. In
every run both happen in one step, so that between two steps no thread is left half
exited (`Tidy`), and a thread that has exited is nowhere to be found (`Reclaimed`)
and is not announced to run again (`SilentOn`).

Before that the thread has announced its exit, and the upper layers have acted on the
announcement. The scheduler has no say in what they do. If they make no call of it by
which threads are scheduled (`ExitHook.Passive`), the announcement is the last that
concerns the thread (`Farewell`); a hook that has its thread yield would make it run,
and be announced, once more.
-/

set_option autoImplicit false

namespace Preempt

open Kernel

variable {setup : Setup} {past : List Machine} {machine before after : Machine} {kernel : Kernel}
  {frame : Frame} {rest frames : List Frame} {tid : Tid} {status : Int}

/-! ## Statements -/

/-- The threads there are between two steps of a run. -/
structure Tidy (kernel : Kernel) : Prop where
  /-- No switch is left unfinished. -/
  whole : kernel.leaving = none
  /-- Only the initial thread keeps its control block when it exits. -/
  exited : ∀ (tid : Tid) (thread : Thread), kernel.threads[tid]? = some thread →
    thread.state = .dying → tid = initialTid
  /-- It always has one. -/
  initial : ∃ thread, kernel.threads[initialTid]? = some thread
  /-- The list of live threads holds those that have not exited. -/
  live : ∀ tid : Tid, tid ∈ kernel.live ↔
    ∃ thread, kernel.threads[tid]? = some thread ∧ thread.state ≠ .dying
  /-- It is in the order of their numbers. -/
  sorted : kernel.live.Pairwise fun first second => first.val < second.val

/-- Nothing is left of a thread but, if it is the initial one, its control block. -/
structure Reclaimed (kernel : Kernel) (tid : Tid) : Prop where
  current : kernel.current ≠ tid
  block : tid ≠ initialTid → kernel.threads[tid]? = none
  exited : ∀ thread, kernel.threads[tid]? = some thread → thread.state = .dying
  unready : tid ∉ kernel.ready.tids
  awake : tid ∉ kernel.sleepers.tids
  unqueued : ∀ object, tid ∉ kernel.waiters object
  holdless : ∀ lock, kernel.holder? lock ≠ some tid
  owed : kernel.donations.received tid = []
  owing : ∀ holder lock, (⟨tid, lock⟩ : Donation) ∉ kernel.donations.received holder

/-- The operation makes no call by which threads are scheduled: it asks for something, or edits what
is attached to a thread. -/
def Op.isPassive : Op → Bool
  | .query _ => true
  | .call c => c.isPayload
  | _ => false

/-- The upper layers call nothing that schedules threads when they are told of an exit. -/
def ExitHook.Passive (hook : ExitHook) : Prop :=
  ∀ tid status, ∀ op ∈ hook.script tid status, op.isPassive = true

/-- Nothing that has been announced since an earlier machine concerns the thread. -/
def SilentOn (tid : Tid) (earlier machine : Machine) : Prop :=
  ∃ more, machine.announced = more ++ earlier.announced ∧ .activated tid ∉ more ∧
    ∀ status, .exitAnnounced tid status ∉ more

/-- The thread announced its exit once, with the status, and was not switched to afterwards. The
announcements are listed newest first. -/
def Farewell (announced : List Notice) (tid : Tid) (status : Int) : Prop :=
  ∃ later earlier, announced = later ++ .exitAnnounced tid status :: earlier ∧
    .activated tid ∉ later ∧ ∀ other, .exitAnnounced tid other ∉ later ++ earlier

/-- The next step is the end of a thread. -/
def Machine.Exits (machine : Machine) (tid : Tid) (status : Int) : Prop :=
  machine.current = tid ∧ machine.frame?.bind Frame.exit? = some status

instance (machine : Machine) (tid : Tid) (status : Int) : Decidable (machine.Exits tid status) :=
  inferInstanceAs (Decidable (_ ∧ _))

/-! ## Threads that are gone -/

theorem Settled.reclaimed (settled : Settled kernel) (census : Census kernel)
    (first : kernel.initial = initialTid) (gone : Gone kernel tid) (other : kernel.current ≠ tid) :
    Reclaimed kernel tid := by
  have lifeless : ¬ kernel.IsLive tid := fun alive =>
    gone.departed ((census.live tid).mpr (Kernel.life_eq_alive.mpr alive))
  have linked := settled.coherent.linked
  have nowhere := settled.nowhere_of_gone lifeless
  have dying : ∀ thread, kernel.threads[tid]? = some thread → thread.state = .dying := by
    intro thread found
    by_contra alive
    exact lifeless ⟨_, phase_of_found found, alive⟩
  have holdless : ∀ lock, kernel.holder? lock ≠ some tid :=
    fun lock holds => lifeless (linked.held lock tid holds)
  refine ⟨other, fun later => ?_, dying, ?_, ?_, fun object => ?_, holdless, ?_,
    fun holder lock => ?_⟩
  · by_contra present
    obtain ⟨thread, found⟩ := Option.ne_none_iff_exists'.mp present
    have exited : kernel.life tid = some true := by
      rw [Kernel.life_eq_exited, phase_of_found found, dying thread found]
    exact later ((census.exited tid exited).trans first)
  · rw [settled.coherent.ranked.listed.mem_iff, nowhere]
    simp
  · rw [linked.asleep.mem_iff, nowhere]
    simp
  · rw [(linked.waiting object).mem_iff, nowhere]
    simp
  · rw [List.eq_nil_iff_forall_not_mem]
    rintro ⟨waiter, lock⟩ lends
    exact holdless lock ((linked.lent tid waiter lock).mp lends).2.1
  · intro lends
    cases nowhere.symm.trans ((linked.lent holder tid lock).mp lends).2.2

theorem Census.tidy (census : Census kernel) (first : kernel.initial = initialTid) :
    Tidy kernel := by
  refine ⟨census.whole, fun tid thread found dying => ?_, ?_, fun tid => ?_, census.sorted⟩
  · rw [← first]
    exact census.exited tid (by rw [Kernel.life_eq_exited, phase_of_found found, dying])
  · rw [← first]
    have present : kernel.phase kernel.initial ≠ none := mt Kernel.life_eq_none.mpr census.kept
    exact Option.ne_none_iff_exists'.mp (mt phase_eq_none_iff.mpr present)
  · rw [census.live, Kernel.life_eq_alive]
    constructor
    · rintro ⟨state, phase, alive⟩
      obtain ⟨thread, found, rfl⟩ := found_of_phase phase
      exact ⟨thread, found, alive⟩
    · rintro ⟨thread, found, alive⟩
      exact ⟨_, phase_of_found found, alive⟩

/-- A control block is freed only when the running thread exits, and it is that thread's. -/
theorem Turned.freed {before after : Kernel} (turned : Turned frame before after)
    (present : before.threads[tid]? ≠ none) (absent : after.threads[tid]? = none) :
    before.current = tid ∧ (∃ status, frame.exit? = some status) ∧ after.current ≠ tid := by
  have lived : before.life tid ≠ none :=
    mt Kernel.life_eq_none.mp (mt phase_eq_none_iff.mp present)
  have gone : after.life tid = none := Kernel.life_eq_none.mpr (phase_eq_none_iff.mpr absent)
  cases turned.turnover with
  | same _ life =>
      rw [life] at gone
      exact absurd gone lived
  | joined _ _ _ life =>
      rw [life, Function.update_apply] at gone
      split at gone
      · cases gone
      · exact absurd gone lived
  | left status exits other life =>
      rw [life, Function.update_apply] at gone
      split at gone
      · rename_i self
        exact ⟨self.symm, ⟨status, exits⟩, by rw [self]; exact other⟩
      · exact absurd gone lived

/-! ## After the end -/

/-- Only a thread that begins to exit announces that. -/
theorem Frame.mem_announces_exit {old new : Tid}
    (member : .exitAnnounced tid status ∈ frame.announces old new) :
    tid = old ∧ frame = .announceExit status := by
  cases frame with
  | announceExit told =>
      obtain ⟨rfl, rfl⟩ := Notice.exitAnnounced.inj (List.mem_singleton.mp member)
      exact ⟨rfl, rfl⟩
  | exit _ => cases List.mem_singleton.mp member
  | yield => cases List.mem_singleton.mp member
  | block => cases List.mem_singleton.mp member
  | _ => cases member

/-- Only the thread that runs afterwards is announced to run. -/
theorem Frame.mem_announces_activated {old new : Tid}
    (member : .activated tid ∈ frame.announces old new) : tid = new := by
  cases frame with
  | announceExit _ => cases List.mem_singleton.mp member
  | exit _ => simpa [Frame.announces] using member
  | yield => simpa [Frame.announces] using member
  | block => simpa [Frame.announces] using member
  | _ => cases member

theorem Setup.mem_of_heard {notices : List Notice} {notice : Notice}
    (member : notice ∈ setup.heard notices) : notice ∈ notices := by
  rw [Setup.heard] at member
  split at member
  · exact member
  · cases member

theorem SilentOn.trans {earlier : Machine} (first : SilentOn tid earlier before)
    (second : SilentOn tid before after) : SilentOn tid earlier after := by
  obtain ⟨old, told, asleep, silent⟩ := first
  obtain ⟨new, told', asleep', silent'⟩ := second
  refine ⟨new ++ old, by rw [told', told, List.append_assoc], ?_, fun status => ?_⟩
  · exact List.mem_append.not.mpr (not_or.mpr ⟨asleep', asleep⟩)
  · exact List.mem_append.not.mpr (not_or.mpr ⟨silent' status, silent status⟩)

/-- Announcements that do not concern a thread do not spoil its farewell. -/
theorem Farewell.later {earlier : Machine} (farewell : Farewell earlier.announced tid status)
    (silent : SilentOn tid earlier machine) : Farewell machine.announced tid status := by
  obtain ⟨later, older, told, inactive, once⟩ := farewell
  obtain ⟨more, more_told, asleep, silent⟩ := silent
  refine ⟨more ++ later, older, by rw [more_told, told, List.append_assoc], ?_, fun other => ?_⟩
  · exact List.mem_append.not.mpr (not_or.mpr ⟨asleep, inactive⟩)
  · rw [List.append_assoc, List.mem_append]
    exact not_or.mpr ⟨silent other, once other⟩

/-- A step of a run, with what it turns over and what it announces. -/
structure Told (before after : Machine) (frame : Frame) (rest frames : List Frame) : Prop extends
    Performed before after frame rest frames where
  steps : before.Steps after
  turned : Turned frame before.kernel after.kernel
  working : Working before.kernel
  landed : Working after.kernel
  setup : after.setup = before.setup
  announced : after.announced =
    before.setup.heard (frame.announces before.current after.current) ++ before.announced

theorem Run.told (run : Run setup past before) (steps : before.Steps after) :
    ∃ frame rest frames, Told before after frame rest frames := by
  obtain ⟨frame, rest, frames, performed⟩ := run.performed steps
  have regular := run.regular
  have turned := performed.deed.turned run.census.1 regular.working (regular.busy performed.front)
  obtain ⟨same, -, announced⟩ :=
    steps.announced (Machine.frame?_of_front performed.front) run.delivered.2
  exact ⟨frame, rest, frames, performed, steps, turned, regular.working,
    (run.step steps).regular.working, same, announced⟩

namespace Told

variable (told : Told before after frame rest frames)
include told

/-- A step announces nothing about a thread that is gone after it and has not begun to exit in it. -/
theorem silentOn (gone : Gone after.kernel tid)
    (silent : ∀ status, frame = .announceExit status → before.current ≠ tid) :
    SilentOn tid before after := by
  refine ⟨_, told.announced, fun member => ?_, fun status member => ?_⟩
  · exact gone.current told.landed (Frame.mem_announces_activated (Setup.mem_of_heard member)).symm
  · obtain ⟨self, begins⟩ := Frame.mem_announces_exit (Setup.mem_of_heard member)
    exact silent status begins self.symm

/-- A thread that ends is gone, and nothing more is announced about it. -/
theorem ends (exits : before.Exits tid status) : Gone after.kernel tid ∧ SilentOn tid before after := by
  obtain ⟨rfl, exits⟩ := exits
  rw [Machine.frame?_of_front told.front, Option.bind_some] at exits
  have gone := told.turned.gone exits told.working
  refine ⟨gone, told.silentOn gone fun other begins => ?_⟩
  cases begins.symm.trans (Frame.eq_exit exits)

/-- It stays so. -/
theorem stays_gone (gone : Gone before.kernel tid) :
    Gone after.kernel tid ∧ SilentOn tid before after := by
  have stays := gone.turned told.turned
  exact ⟨stays, told.silentOn stays fun _ _ => gone.current told.working⟩

end Told

/-- **In every run a thread that has ended is gone, and nothing is announced about it any more.** -/
theorem Run.ended (run : Run setup past machine) {earlier : Machine} (member : earlier ∈ past)
    (exits : earlier.Exits tid status) : Gone machine.kernel tid ∧ SilentOn tid earlier machine := by
  induction run with
  | boot => cases member
  | @step past before after run steps ih =>
      obtain ⟨frame, rest, frames, told⟩ := run.told steps
      rcases List.mem_cons.mp member with rfl | older
      · exact told.ends exits
      · obtain ⟨gone, silent⟩ := ih older
        obtain ⟨stays, since⟩ := told.stays_gone gone
        exact ⟨stays, silent.trans since⟩

/-! ## From the announcement to the end -/

/-- The frame is part of a passive operation. -/
def Frame.isPassive : Frame → Bool
  | .op begun => begun.isPassive
  | .done _ _ => true
  | _ => false

/-- Passive frames have taken the place of the one that was executed. -/
def Machine.Serves (before after : Machine) : Prop :=
  ∃ frames, (∀ frame ∈ frames, frame.isPassive = true) ∧
    after.workOf before.current = frames ++ before.workOf before.current

namespace MachineM

theorem serves_push {label : Label} {value : Value} (same : Untouched machine before) :
    After (push [.done label value]) (fun _ after => machine.Serves after) before := by
  refine after_push.mpr ⟨[.done label value], List.forall_mem_singleton.mpr rfl, ?_⟩
  rw [same.workOf_push rfl, Function.update_self]

/-- An operation of the scheduler is replaced by a report. -/
theorem serves_kernel {α : Type} {step : KernelM α} {label : Label} (value : α → Value)
    (stays : Stays step machine.kernel) :
    After (do let result ← MachineM.kernel step; push [.done label (value result)])
      (fun _ after => machine.Serves after) machine := by
  simp only [after_bind, after_kernel, after_push]
  refine stays.mono fun result next current =>
    ⟨[.done label (value result)], List.forall_mem_singleton.mpr rfl, ?_⟩
  have current : (machine.absorb next).current = machine.current := current
  rw [current]
  exact Machine.workOf_popped machine _

/-- A passive operation is replaced by its report, and a report by nothing. -/
theorem serves_execute (passive : frame.isPassive = true) :
    After (execute frame) (fun _ after => machine.Serves after) machine := by
  cases frame with
  | done label value =>
      refine after_record.mono fun _ after same => ⟨[], List.forall_mem_nil _, ?_⟩
      rw [Machine.workOf_eq same.2.2, List.nil_append]
  | op op =>
      cases op with
      | query query =>
          simp only [execute, perform, after_bind]
          exact (untouched_answer query).mono fun _ _ => serves_push
      | call c =>
          cases c with
          | setSpace tid => exact serves_kernel (.ofExcept fun _ => .nothing) (.of_tweaks tweaks_editPayload)
          | setFiles tid => exact serves_kernel (.ofExcept fun _ => .nothing) (.of_tweaks tweaks_editPayload)
          | payload tid remove => exact serves_kernel (.ofExcept .payload) (.of_tweaks tweaks_editPayload)
          | _ => cases passive
      | _ => cases passive
  | _ => cases passive

/-- The announcement of an exit is followed by the script of the hook, and that by the end. -/
theorem hook_execute {status : Int} : After (execute (.announceExit status)) (fun _ after =>
    after.workOf machine.current =
      Frame.ofScript (machine.setup.exitHook.script machine.current status) ++
        [Frame.exit status] ++ machine.workOf machine.current) machine := by
  simp only [execute, after_bind, after_assertThread, after_get, after_kernel, KernelM.after_notify,
    after_push]
  exact fun _ => Machine.workOf_popped machine _

end MachineM

/-- The thread runs and has announced its exit. Before it ends it does nothing but passive
operations. -/
structure Machine.Parts (machine : Machine) (tid : Tid) (status : Int) : Prop where
  runs : machine.current = tid
  work : ∃ chores rest, machine.workOf tid = chores ++ .exit status :: rest ∧
    ∀ chore ∈ chores, chore.isPassive = true
  farewell : machine.setup.recordHooks = true → Farewell machine.announced tid status

/-- The thread is gone or about to go. -/
def Machine.Departs (machine : Machine) (tid : Tid) : Prop :=
  Gone machine.kernel tid ∨ ∃ status, machine.Parts tid status

/-- Whoever has announced its exit, or is to end, departs. -/
structure Departures (machine : Machine) : Prop where
  announced : ∀ tid status, .exitAnnounced tid status ∈ machine.announced → machine.Departs tid
  ending : ∀ tid status, .exit status ∈ machine.workOf tid → machine.Departs tid

/-- A running thread that departs does a passive operation next, or ends with the status that it has
announced. -/
theorem Machine.Departs.front (departs : machine.Departs machine.current)
    (working : Working machine.kernel) (front : machine.workOf machine.current = frame :: rest) :
    frame.isPassive = true ∨ ∃ status, frame = .exit status ∧ machine.Parts machine.current status := by
  rcases departs with gone | ⟨status, parts⟩
  · exact absurd rfl (gone.current working)
  · obtain ⟨chores, behind, work, passive⟩ := parts.work
    rw [front] at work
    cases chores with
    | nil => exact Or.inr ⟨status, (List.cons.inj work).1, parts⟩
    | cons chore chores =>
        obtain ⟨rfl, -⟩ := List.cons.inj work
        exact Or.inl (passive frame List.mem_cons_self)

namespace Told

variable (told : Told before after frame rest frames)
include told

/-- A thread that departs does so after the step. -/
theorem departs (departs : before.Departs tid) : after.Departs tid := by
  rcases departs with gone | ⟨status, rfl, ⟨chores, behind, work, passive⟩, farewell⟩
  · exact Or.inl (told.stays_gone gone).1
  · rw [told.front] at work
    cases chores with
    | nil =>
        obtain ⟨rfl, -⟩ := List.cons.inj work
        exact Or.inl (told.turned.gone rfl told.working)
    | cons chore chores =>
        obtain ⟨rfl, rfl⟩ := List.cons.inj work
        obtain ⟨now, others⟩ := List.forall_mem_cons.mp passive
        obtain ⟨served, all, own⟩ := MachineM.serves_execute now () after
          ((Machine.steps_iff told.front).mp told.steps)
        have quiet : frame.switches = false ∧ frame.isSilent = true := by
          cases frame <;> first | exact ⟨rfl, rfl⟩ | cases now
        have announced := told.announced
        rw [frame.announces_of_isSilent quiet.2, Setup.heard_nil, List.nil_append] at announced
        refine Or.inr ⟨status, told.turned.stays quiet.1, ⟨served ++ chores, behind, ?_, ?_⟩, ?_⟩
        · rw [List.append_assoc, ← Machine.workOf_popped before (chores ++ .exit status :: behind)]
          exact own
        · exact fun each member => (List.mem_append.mp member).elim (all each) (others each)
        · rwa [told.setup, announced]

/-- A thread that begins to exit departs, if the hook is passive. -/
theorem begins (departures : Departures before) (passive : before.setup.exitHook.Passive)
    (begins : frame = .announceExit status) : after.Departs before.current := by
  subst begins
  have unannounced : ∀ other, .exitAnnounced before.current other ∉ before.announced := by
    intro other member
    rcases (departures.announced _ other member).front told.working told.front with
      silent | ⟨_, ends, -⟩
    · cases silent
    · cases ends
  have own := MachineM.hook_execute () after ((Machine.steps_iff told.front).mp told.steps)
  refine Or.inr ⟨status, told.turned.stays rfl,
    ⟨Frame.ofScript (before.setup.exitHook.script before.current status), rest, ?_, ?_⟩,
    fun recorded => ?_⟩
  · rw [← List.singleton_append, ← List.append_assoc, ← Machine.workOf_popped before rest]
    exact own
  · intro chore member
    obtain ⟨op, inside, rfl⟩ := List.mem_map.mp member
    exact passive _ _ op inside
  · rw [told.setup] at recorded
    rw [told.announced, Setup.heard, if_pos recorded]
    exact ⟨[], before.announced, rfl, List.not_mem_nil, unannounced⟩

/-- **Every step keeps what is known of the threads that depart.** -/
theorem departures (departures : Departures before) (passive : before.setup.exitHook.Passive) :
    Departures after where
  announced tid status member := by
    rw [told.announced] at member
    rcases List.mem_append.mp member with new | old
    · obtain ⟨rfl, begins⟩ := Frame.mem_announces_exit (Setup.mem_of_heard new)
      exact told.begins departures passive begins
    · exact told.departs (departures.announced tid status old)
  ending tid status member := by
    by_cases self : tid = before.current
    · subst self
      rw [told.own] at member
      rcases List.mem_append.mp member with new | old
      · obtain ⟨behind, later, split⟩ := List.append_of_mem new
        obtain ⟨script, announced, -, begins, -⟩ := told.spread.ends split
        exact told.begins departures passive begins
      · refine told.departs (departures.ending before.current status ?_)
        rw [told.front]
        exact List.mem_cons_of_mem _ old
    · rcases told.launches tid self with same | ⟨rfl, body, fresh, launched⟩
      · rw [same] at member
        exact told.departs (departures.ending tid status member)
      · rw [fresh] at member
        exact absurd (List.mem_of_ne_of_mem (by simp) member) (launched.unended status)

end Told

theorem Run.departures (run : Run setup past machine) (passive : setup.exitHook.Passive) :
    Departures machine := by
  induction run with
  | boot boots =>
      refine ⟨fun tid status member => ?_, fun tid status member => ?_⟩
      · rw [Machine.announced_boot boots] at member
        cases member
      · cases calm_boot boots tid _ member
  | step run steps ih =>
      obtain ⟨frame, rest, frames, told⟩ := run.told steps
      exact told.departures ih (by rwa [run.delivered.1])

/-- **If the hook is passive, a thread that has ended has said farewell.** -/
theorem Run.farewell (run : Run setup past machine) (passive : setup.exitHook.Passive)
    (recorded : setup.recordHooks = true) {earlier : Machine} (member : earlier ∈ past)
    (exits : earlier.Exits tid status) : Farewell machine.announced tid status := by
  refine Farewell.later ?_ (run.ended member exits).2
  obtain ⟨between, older, rfl⟩ := List.append_of_mem member
  have before := run.earlier
  obtain ⟨rfl, exits⟩ := exits
  obtain ⟨frame, next, exits⟩ := Option.bind_eq_some_iff.mp exits
  obtain rfl := Frame.eq_exit exits
  obtain ⟨rest, front⟩ := List.head?_eq_some_iff.mp next
  have departs := (before.departures passive).ending earlier.current status (by simp [front])
  rcases departs.front before.regular.working front with silent | ⟨announced, ends, parts⟩
  · cases silent
  · cases ends
    exact parts.farewell (by rwa [before.delivered.1])

/-! ## The theorem -/

/-- **Exited threads are reclaimed completely and never run again.** Whatever the hook does, nothing is
announced about a thread that has ended; if the hook is passive, nothing is from the announcement on. -/
theorem Run.exited_reclaimed (run : Run setup past machine) (documented : Documented past) :
    Tidy machine.kernel ∧
      (∀ tid status, ∀ earlier ∈ past, earlier.Exits tid status →
        Reclaimed machine.kernel tid ∧ SilentOn tid earlier machine ∧
          (setup.exitHook.Passive → setup.recordHooks = true →
            Farewell machine.announced tid status)) ∧
      ∀ before ∈ past.head?, ∀ tid : Tid, before.kernel.threads[tid]? ≠ none →
        machine.kernel.threads[tid]? = none →
          (∃ status, before.Exits tid status) ∧ machine.current ≠ tid := by
  obtain ⟨census, first⟩ := run.census
  refine ⟨census.tidy first, fun tid status earlier member exits => ?_, ?_⟩
  · obtain ⟨gone, silent⟩ := run.ended member exits
    exact ⟨(run.sound documented).settled.reclaimed census first gone
      (gone.current run.regular.working), silent,
        fun passive recorded => run.farewell passive recorded member exits⟩
  · intro before previous tid present absent
    cases run with
    | boot => cases previous
    | @step past before after run steps =>
        cases previous
        obtain ⟨frame, rest, frames, told⟩ := run.told steps
        obtain ⟨self, ⟨status, exits⟩, other⟩ := told.turned.freed present absent
        refine ⟨⟨status, self, ?_⟩, other⟩
        rw [Machine.frame?_of_front told.front, Option.bind_some, exits]

/-- A thread exits while it holds a lock for which another waits, and later that one exits. Told of an
exit, the upper layers look up the thread and clear what is attached to it. -/
def parting : Setup where
  autoStart := false
  recordHooks := true
  exitHook := {
    script := fun tid _ => [.query .current, .call (.payload tid none)]
    allowed := by simp [Op.mayHook] }
  main := [.call .lockCreate,
    .spawn "holder" 40 [.call (.lockAcquire ⟨1⟩),
      .spawn "heir" 50 [.call (.lockAcquire ⟨1⟩)], .call (.exit 7)]]

theorem parting_reclaimed : parting.exitHook.Passive ∧ ∃ past machine, Run parting past machine ∧
    Documented past ∧ Tidy machine.kernel ∧
      Reclaimed machine.kernel ⟨2⟩ ∧ Farewell machine.announced ⟨2⟩ 7 ∧
        Reclaimed machine.kernel ⟨3⟩ ∧ Farewell machine.announced ⟨3⟩ 0 ∧
          ∃ before ∈ past.head?, before.kernel.threads[(⟨3⟩ : Tid)]? ≠ none ∧
            machine.kernel.threads[(⟨3⟩ : Tid)]? = none ∧ machine.current ≠ ⟨3⟩ := by
  have passive : parting.exitHook.Passive := fun tid status => by
    simp [parting, Op.isPassive, Call.isPayload]
  have reached : ∃ reached ∈ Machine.history parting 41, Documented reached.1 ∧
      (∃ earlier ∈ reached.1, earlier.Exits ⟨2⟩ 7) ∧ (∃ earlier ∈ reached.1, earlier.Exits ⟨3⟩ 0) ∧
        ∃ before ∈ reached.1.head?, before.kernel.threads[(⟨3⟩ : Tid)]? ≠ none ∧
          reached.2.kernel.threads[(⟨3⟩ : Tid)]? = none := by decide +kernel
  obtain ⟨⟨past, machine⟩, follows, documented, ⟨earlier, member, exits⟩,
    ⟨later, later_member, later_exits⟩, before, previous, present, absent⟩ := reached
  have run := Run.history follows
  obtain ⟨tidy, exited, freed⟩ := run.exited_reclaimed documented
  obtain ⟨holder_reclaimed, -, holder_farewell⟩ := exited ⟨2⟩ 7 earlier member exits
  obtain ⟨heir_reclaimed, -, heir_farewell⟩ := exited ⟨3⟩ 0 later later_member later_exits
  exact ⟨passive, past, machine, run, documented, tidy,
    holder_reclaimed, holder_farewell passive rfl, heir_reclaimed, heir_farewell passive rfl,
    before, previous, present, absent, (freed before previous ⟨3⟩ present absent).2⟩

end Preempt
