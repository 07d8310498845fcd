import Preempt.Proofs.Execution
import Preempt.Proofs.Histories

/-!
# Documented runs and what holds throughout them

`Documented` is what is asked of callers: a thread that puts itself on the sleep
queue calls nothing of the scheduler before it blocks.

`Sound` is the invariant of documented runs. The scheduler is settled, the work
of every thread fits where the thread stands (`Orderly`), the idle thread does
idle work, and a running thread is on the sleep queue only if it has just put
itself there. From it follows that the next step has one of the listed effects
(`Sound.stepped`), and each such step keeps it (`Run.sound`).
-/

set_option autoImplicit false

namespace Preempt

open Kernel

/-! ## What is asked of callers -/

/-- Whether the running thread has put itself on the sleep queue by number and has not blocked
since. -/
def registered : List Machine → Bool
  | [] => false
  | machine :: past =>
    match machine.call?.bind Call.registered? with
    | some tid => tid == machine.current
    | none =>
      match machine.frame? with
      | some .block => false
      | _ => registered past

/-- A thread that has put itself on the sleep queue calls nothing of the scheduler before it
blocks. -/
def Documented : List Machine → Prop
  | [] => True
  | machine :: past =>
    Documented past ∧ (registered past = true → ∀ frame ∈ machine.frame?, frame.isAside = true)

instance Documented.decide : DecidablePred Documented
  | [] => isTrue trivial
  | _ :: past =>
    have := Documented.decide past
    inferInstanceAs (Decidable (_ ∧ _))

/-! ## Where threads stand -/

/-- What a thread is about to try for, if anything, and nothing else after that. -/
inductive Standing : List Frame → Option WaitObject → Prop where
  | calm {frames : List Frame} : Tame frames → Standing frames none
  | retry {rest : List Frame} (object : WaitObject) : Tame rest →
      Standing (object.retry :: rest) (some object)

/-- Threads on a wait queue are about to try again for the object, the running one after it has
blocked. -/
structure Orderly (machine : Machine) : Prop where
  own : ((∃ goal, Standing (machine.workOf machine.current) goal) ∧
      ∀ object, machine.kernel.tag machine.current ≠ .waiting object) ∨
    ∃ (object : WaitObject) (rest : List Frame),
      machine.workOf machine.current = .block :: object.retry :: rest ∧ Tame rest ∧
        machine.kernel.tag machine.current = .waiting object
  others : ∀ tid ≠ machine.current, ∃ goal, Standing (machine.workOf tid) goal ∧
    ∀ object, machine.kernel.tag tid = .waiting object → goal = some object

/-- The invariant of documented runs. -/
structure Sound (past : List Machine) (machine : Machine) : Prop where
  settled : Settled machine.kernel
  orderly : Orderly machine
  idle : ∀ tid, machine.kernel.idle = some tid → IdleWork (machine.workOf tid)
  asleep : machine.kernel.tag machine.current = .sleep →
    machine.kernel.idle = some machine.current ∨ registered past = true ∨
      machine.frame? = some .block

/-! ## One step -/

/-- A step of a settled scheduler, with its effect. -/
structure Stepped (before after : Machine) (frame : Frame) (rest frames : List Frame) : Prop
    extends Performed before after frame rest frames where
  fresh : before.kernel.phase ⟨before.kernel.nextTid⟩ = none
  fit : Fit before.kernel frame
  effect : ∃ next, Effect before.cpu.inInterrupt frame frames before.kernel next ∧
    Alike next after.kernel

variable {setup : Setup} {past : List Machine} {machine before after : Machine} {frame : Frame}
  {rest frames : List Frame}

/-- The other threads have the work they had, or are new. -/
theorem Stepped.others (stepped : Stepped before after frame rest frames) :
    ∀ tid ≠ before.current, after.workOf tid = before.workOf tid ∨
      before.kernel.phase tid = none ∧
        ∃ body, after.workOf tid = .setLevel .on :: body ∧ Tame body := by
  intro tid other
  rcases stepped.launches tid other with same | ⟨rfl, body, work, launched⟩
  · exact Or.inl same
  · exact Or.inr ⟨stepped.fresh, body, work, launched.tame⟩

namespace Sound

/-- What the invariant says about the frame that comes next. -/
theorem fit (sound : Sound past machine) (front : machine.workOf machine.current = frame :: rest)
    (documented : registered past = true → frame.isAside = true) : Fit machine.kernel frame where
  settled := sound.settled
  unqueued other object := by
    rcases sound.orderly.own with ⟨-, free⟩ | ⟨waited, behind, work, -, -⟩
    · exact free object
    · rw [front] at work
      exact absurd (List.cons_eq_cons.mp work).1 other
  working chore loop registered := by
    have idle := sound.idle machine.current registered
    rw [front] at idle
    rcases idle.front with chores | looping
    · simp [chore] at chores
    · simp [loop] at looping
  awake aside asleep := by
    rcases sound.asleep asleep with idle | registered | block
    · exact idle
    · simp [documented registered] at aside
    · rw [Machine.frame?_of_front front] at block
      cases block
      cases aside

/-- **The next step of a sound machine has one of the listed effects.** -/
theorem stepped (sound : Sound past before) (steps : before.Steps after)
    (documented : registered past = true → ∀ frame ∈ before.frame?, frame.isAside = true) :
    ∃ frame rest frames, Stepped before after frame rest frames := by
  have below := sound.settled.coherent.linked.tids_below
  have numbered : before.current.val < before.kernel.nextTid := by
    by_contra above
    cases (below _ (Nat.le_of_not_lt above)).symm.trans sound.settled.runner
  obtain ⟨frame, rest, frames, performed⟩ := steps.performed numbered
  have fit := sound.fit performed.front fun registered =>
    documented registered frame (Machine.frame?_of_front performed.front)
  exact ⟨frame, rest, frames, performed, below _ (Nat.le_refl _), fit, fit.effect performed.deed⟩

end Sound

/-! ## The invariant is kept -/

namespace Standing

/-- What remains behind the first frame is tame. -/
theorem tame_rest {goal : Option WaitObject} (standing : Standing (frame :: rest) goal) :
    Tame rest := by
  cases standing with
  | calm tame => exact (tame_cons.mp tame).2
  | retry object tame => exact tame

/-- The work of a thread that is about to try for an object begins with the try. -/
theorem eq_retry {object : WaitObject} (standing : Standing frames (some object)) :
    ∃ rest, frames = object.retry :: rest ∧ Tame rest := by
  cases standing with
  | retry object tame => exact ⟨_, rfl, tame⟩

end Standing

namespace Stepped

variable (stepped : Stepped before after frame rest frames)
include stepped

theorem contained : Contained frame frames before.kernel after.kernel := by
  obtain ⟨next, effect, alike⟩ := stepped.effect
  exact effect.contained.trans_alike alike

theorem settled (settled : Settled before.kernel) : Settled after.kernel := by
  obtain ⟨next, effect, alike⟩ := stepped.effect
  exact (effect.settled settled).of_alike alike

theorem waiting {object : WaitObject} (front : frame = object.retry)
    (pushed : frames = [.block, object.retry]) :
    after.kernel.tag before.current = .waiting object := by
  obtain ⟨next, effect, alike⟩ := stepped.effect
  rw [alike.tag]
  exact effect.waiting front pushed

theorem behind (switches : frame.switches = true) :
    Tame frames ∧ (frame = .block → frames = []) := by
  obtain ⟨next, effect, alike⟩ := stepped.effect
  exact effect.behind switches

/-- The thread that has taken the step stands before nothing or before the object it tried for. -/
theorem standing_own (orderly : Orderly before) (switches : frame.switches = true) :
    ∃ goal, Standing (after.workOf before.current) goal ∧
      ∀ object, after.kernel.tag before.current = .waiting object → goal = some object := by
  obtain ⟨tame, nothing⟩ := stepped.behind switches
  have waits : ∀ object, after.kernel.tag before.current = .waiting object →
      before.kernel.tag before.current = .waiting object := by
    intro object waiting
    rcases stepped.contained.waits before.current object waiting with was | ⟨-, front, -⟩
    · exact was
    · rw [front] at switches
      cases object <;> cases switches
  rw [stepped.own]
  rcases orderly.own with ⟨⟨goal, standing⟩, free⟩ | ⟨object, behind, work, rest_tame, waiting⟩
  · rw [stepped.front] at standing
    refine ⟨none, .calm (tame_append.mpr ⟨tame, standing.tame_rest⟩), fun object waiting => ?_⟩
    exact absurd (waits object waiting) (free object)
  · rw [stepped.front] at work
    obtain ⟨front, rfl⟩ := List.cons_eq_cons.mp work
    rw [nothing front]
    refine ⟨some object, .retry object rest_tame, fun other now => ?_⟩
    have same := waiting.symm.trans (waits other now)
    simpa using same

/-- The other threads stand where they stood, and new ones before nothing. -/
theorem standing_other (orderly : Orderly before) {tid : Tid}
    (other : tid ≠ before.current) :
    ∃ goal, Standing (after.workOf tid) goal ∧
      ∀ object, after.kernel.tag tid = .waiting object → goal = some object := by
  have waits : ∀ object, after.kernel.tag tid = .waiting object →
      before.kernel.tag tid = .waiting object := by
    intro object waiting
    rcases stepped.contained.waits tid object waiting with was | ⟨self, -⟩
    · exact was
    · exact absurd self other
  rcases stepped.others tid other with same | ⟨absent, body, work, tame⟩
  · obtain ⟨goal, standing, waiting⟩ := orderly.others tid other
    rw [same]
    exact ⟨goal, standing, fun object now => waiting object (waits object now)⟩
  · rw [work]
    refine ⟨none, .calm (by simp [tame, Frame.retried?]), fun object now => ?_⟩
    have was := waits object now
    rw [tag_eq_nowhere_of_absent absent] at was
    cases was

/-- **Every step keeps the work of all threads in order.** -/
theorem orderly (settled : Settled before.kernel) (orderly : Orderly before) : Orderly after := by
  have contained := stepped.contained
  cases switches : frame.switches with
  | true =>
      have every : ∀ tid, ∃ goal, Standing (after.workOf tid) goal ∧
          ∀ object, after.kernel.tag tid = .waiting object → goal = some object := by
        intro tid
        by_cases self : tid = before.current
        · rw [self]
          exact stepped.standing_own orderly switches
        · exact stepped.standing_other orderly self
      refine ⟨Or.inl ⟨?_, fun object waiting => ?_⟩, fun tid _ => every tid⟩
      · obtain ⟨goal, standing, -⟩ := every after.current
        exact ⟨goal, standing⟩
      · have linked := (stepped.settled settled).coherent.linked
        rcases contained.resting switches with free | registered
        · cases free.symm.trans waiting
        · rcases linked.idle_free _ registered with free | asleep
          · cases free.symm.trans waiting
          · cases asleep.symm.trans waiting
  | false =>
      have current : after.current = before.current := contained.current switches
      refine ⟨?_, fun tid other => stepped.standing_other orderly (current ▸ other)⟩
      rw [current, stepped.own]
      obtain ⟨⟨goal, standing⟩, free⟩ := orderly.own.resolve_right (by
        rintro ⟨object, behind, work, -⟩
        rw [stepped.front] at work
        rw [(List.cons_eq_cons.mp work).1] at switches
        cases switches)
      rw [stepped.front] at standing
      have rest_tame := standing.tame_rest
      have waits : ∀ object, after.kernel.tag before.current = .waiting object →
          frame = object.retry ∧ frames = [.block, object.retry] := by
        intro object waiting
        rcases contained.waits before.current object waiting with was | ⟨-, queues⟩
        · exact absurd was (free object)
        · exact queues
      rcases stepped.spread.tame with tame | ⟨object, level, rfl⟩ | ⟨object, front, pushed⟩
      · refine Or.inl ⟨⟨none, .calm (tame_append.mpr ⟨tame, rest_tame⟩)⟩, fun object waiting => ?_⟩
        obtain ⟨-, rfl⟩ := waits object waiting
        simp [Frame.retried?_retry] at tame
      · refine Or.inl ⟨⟨some object, .retry object (by simp [Frame.retried?, rest_tame])⟩,
          fun other waiting => ?_⟩
        obtain ⟨-, pushed⟩ := waits other waiting
        cases object <;> cases (List.cons_eq_cons.mp pushed).1
      · refine Or.inr ⟨object, rest, ?_, rest_tame, stepped.waiting front pushed⟩
        rw [pushed]
        rfl

/-- **Every step leaves idle work to the idle thread.** -/
theorem idle (settled : Settled before.kernel)
    (idle : ∀ tid, before.kernel.idle = some tid → IdleWork (before.workOf tid)) :
    ∀ tid, after.kernel.idle = some tid → IdleWork (after.workOf tid) := by
  intro tid registered
  rcases stepped.contained.idle with same | ⟨⟨started, -, rfl⟩, -, became⟩
  · rw [same] at registered
    have work := idle tid registered
    by_cases self : tid = before.current
    · subst self
      rw [stepped.front] at work
      rw [stepped.own]
      exact work.spread stepped.spread
    · rcases stepped.others tid self with same | ⟨absent, -⟩
      · rwa [same]
      · obtain ⟨state, there, -⟩ := settled.coherent.linked.idle_live tid registered
        cases absent.symm.trans there
  · cases became.symm.trans registered
    refine ⟨[.upSema started], .idleLoop, rest, stepped.own, ?_, rfl⟩
    simp [Frame.isChore]

end Stepped

/-- While a thread that has put itself on the sleep queue does nothing but block, it stays so. -/
theorem registered_cons_of_aside (front : before.frame? = some frame)
    (aside : frame.isAside = true) (stays : frame.switches = false) :
    registered (before :: past) = registered past := by
  have call : before.call?.bind Call.registered? = none := by
    rw [Machine.call?, front, Option.bind_some]
    cases frame <;> simp_all [Frame.isAside, Frame.call?]
    rename_i op
    cases op <;> simp_all
    rename_i c
    cases c <;> simp_all [Call.registered?]
  rw [registered, call, front]
  cases frame <;> simp_all [Frame.switches]

/-- **Every step keeps the machine sound.** -/
theorem Sound.step (sound : Sound past before)
    (stepped : Stepped before after frame rest frames)
    (documented : registered past = true → frame.isAside = true) :
    Sound (before :: past) after where
  settled := stepped.settled sound.settled
  orderly := stepped.orderly sound.settled sound.orderly
  idle := stepped.idle sound.settled sound.idle
  asleep asleep := by
    have contained := stepped.contained
    have front := Machine.frame?_of_front stepped.front
    cases switches : frame.switches with
    | true =>
        rcases contained.resting switches with free | registered
        · cases free.symm.trans asleep
        · exact Or.inl registered
    | false =>
        have current : after.current = before.current := contained.current switches
        rw [current] at asleep
        rcases contained.sleeps before.current asleep with was | named | ⟨-, -, blocks⟩
        · rcases sound.asleep was with idle | already | block
          · rcases contained.idle with same | ⟨-, -, became⟩
            · exact Or.inl (by rw [current, same, idle])
            · exact Or.inl (by rw [current, became]; rfl)
          · rw [registered_cons_of_aside front (documented already) switches]
            exact Or.inr (Or.inl already)
          · cases front.symm.trans block
            cases switches
        · refine Or.inr (Or.inl ?_)
          have call : before.call?.bind Call.registered? = some before.current := by
            rw [Machine.call?, front, Option.bind_some, named]
          rw [registered, call]
          exact beq_self_eq_true _
        · refine Or.inr (Or.inr ?_)
          rw [Machine.frame?, current, stepped.own]
          cases frames with
          | nil => cases blocks
          | cons first others => exact blocks

/-! ## The beginning -/

/-- At boot there is one thread, it runs, and it is in no collection. -/
theorem settled_atBoot (config : Config) : Settled (Kernel.atBoot config) := by
  refine ⟨⟨⟨fun _ _ => tid_atBoot, fun _ => phase_atBoot_of_le, ?_, ?_, ?_, ?_, ?_, ?_, ?_, ?_, ?_⟩,
    ⟨?_, ?_, ?_⟩⟩, ⟨?_, ?_, ?_⟩, rfl⟩
  · intro lock _
    simp [Kernel.atBoot]
  · intro sema _
    simp [Kernel.atBoot]
  · exact ⟨List.nodup_nil, fun tid => iff_of_false List.not_mem_nil (by simp [tag_atBoot])⟩
  · intro object
    rw [waiters_atBoot]
    exact ⟨List.nodup_nil, by simp [tag_atBoot]⟩
  · intro tid
    rw [tag_atBoot, blockedOn_atBoot]
    rfl
  · intro holder waiter lock
    simp [received_atBoot, holder?_atBoot]
  · intro lock holder holds
    rw [holder?_atBoot] at holds
    cases holds
  · intro tid registered
    cases registered
  · intro tid registered
    cases registered
  · exact ⟨List.nodup_nil, fun tid => iff_of_false List.not_mem_nil (by simp [tag_atBoot])⟩
  · simp [Kernel.atBoot]
  · exact List.Pairwise.nil
  · intro tid
    rw [phase_atBoot, show (Kernel.atBoot config).current = initialTid from rfl, Option.some.injEq]
    split
    · rename_i same
      simp [same]
    · rename_i other
      simp [other]
  · intro tid
    rw [phase_atBoot, tag_atBoot]
    split <;> simp
  · intro tid queued
    exact absurd (tag_atBoot config tid) queued

theorem sound_boot (boots : Machine.boot setup = .ok machine) : Sound [] machine := by
  obtain ⟨silent, -, work, -⟩ := Machine.boot_eq boots
  have alike := silent.alike
  have settled := (settled_atBoot setup.config).of_alike alike
  have nowhere : ∀ tid, machine.kernel.tag tid = .nowhere := by
    intro tid
    rw [alike.tag, tag_atBoot]
  have tame : ∀ tid, Tame (machine.workOf tid) := by
    intro tid
    rw [work, Function.update_apply]
    split
    · rw [Machine.mainFrames]
      split <;> simp [Frame.retried?]
    · exact tame_nil
  refine ⟨settled, ⟨Or.inl ⟨⟨none, .calm (tame _)⟩, by simp [nowhere]⟩, ?_⟩, ?_, by simp [nowhere]⟩
  · exact fun tid _ => ⟨none, .calm (tame tid), by simp [nowhere]⟩
  · intro tid registered
    rw [alike.idle] at registered
    cases registered

/-- **Every documented run is sound.** -/
theorem Run.sound (run : Run setup past machine) (documented : Documented past) :
    Sound past machine := by
  induction run with
  | boot boots => exact sound_boot boots
  | step run steps ih =>
      obtain ⟨earlier, now⟩ := documented
      have sound := ih earlier
      obtain ⟨frame, rest, frames, stepped⟩ := sound.stepped steps now
      exact sound.step stepped fun already =>
        now already frame (Machine.frame?_of_front stepped.front)

/-- **What holds at boot and is kept by the steps of sound machines holds throughout a documented
run.** -/
theorem Run.invariant {motive : List Machine → Machine → Prop} (run : Run setup past machine)
    (documented : Documented past)
    (boots : ∀ machine, Machine.boot setup = .ok machine → motive [] machine)
    (keeps : ∀ (past : List Machine) (before after : Machine) (frame : Frame)
      (rest frames : List Frame), Run setup past before → Documented past → Sound past before →
      Stepped before after frame rest frames → motive past before → motive (before :: past) after) :
    motive past machine := by
  induction run with
  | boot start => exact boots _ start
  | step run steps ih =>
      obtain ⟨earlier, now⟩ := documented
      have sound := run.sound earlier
      obtain ⟨frame, rest, frames, stepped⟩ := sound.stepped steps now
      exact keeps _ _ _ frame rest frames run earlier sound stepped (ih earlier)

end Preempt
