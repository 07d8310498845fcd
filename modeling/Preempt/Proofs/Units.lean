import Preempt.Proofs.Runs

/-!
# No unit of a semaphore is lost

Units of a semaphore come from the call that creates it and from each giving
back; they go to the threads whose try for a unit succeeds. The past of a run
tells how many of each there were (`initialUnits`, `ups`, `downs`), and at every
machine of a documented run the units left are the difference (`Run.balanced`).
-/

set_option autoImplicit false

namespace Preempt

open Kernel

/-- The units of a semaphore, if there is such a semaphore. -/
def Kernel.units (kernel : Kernel) (sema : SemaId) : Option Nat :=
  kernel.semas[sema]?.map SemaState.value

/-- The semaphore to which a frame gives back a unit. -/
def Frame.raised? : Frame → Option SemaId
  | .upSema sema => some sema
  | _ => none

theorem Frame.eq_of_call {frame : Frame} {c : Call} (begins : frame.call? = some c) :
    frame = .op (.call c) := by
  cases frame with
  | op op =>
      cases op <;> cases begins
      rfl
  | _ => cases begins

/-- A try for a unit succeeds: one that is part of waiting is not put back, and one without waiting
reports success. -/
def Taken (sema : SemaId) (frame : Frame) (frames : List Frame) : Prop :=
  (frame = .retrySema sema ∧ frames = []) ∨
    (frame.call?.bind Call.tried? = some sema ∧ ∃ label, frames = [.done label (.flag true)])

/-! ## One step -/

section Effects

variable {inside : Bool} {frame : Frame} {frames : List Frame} {before after : Kernel}
  {sema : SemaId}

theorem Frame.untried_of_plain (plain : frame.isPlain = true) :
    frame.call?.bind Call.tried? = none := by
  cases frame <;> simp_all [Frame.isPlain, Frame.call?]
  rename_i op
  cases op <;> simp_all

theorem Frame.untried_of_created {value : Nat}
    (called : frame.call?.bind Call.created? = some value) :
    frame.call?.bind Call.tried? = none := by
  obtain ⟨c, calls, creates⟩ := Option.bind_eq_some_iff.mp called
  rw [calls, Option.bind_some]
  cases c <;> cases creates <;> rfl

theorem Frame.untried_of_registered {tid : Tid}
    (called : frame.call?.bind Call.registered? = some tid) :
    frame.call?.bind Call.tried? = none := by
  obtain ⟨c, calls, registers⟩ := Option.bind_eq_some_iff.mp called
  rw [calls, Option.bind_some]
  cases c <;> cases registers <;> rfl

theorem not_taken_of_untried (untried : frame.call?.bind Call.tried? = none)
    (other : frame ≠ .retrySema sema) : ¬ Taken sema frame frames := by
  rintro (⟨front, -⟩ | ⟨called, -⟩)
  · exact other front
  · cases untried.symm.trans called

theorem Frame.ne_retry_of_call {α : Type} {view : Call → Option α} {value : α}
    (called : frame.call?.bind view = some value) : frame ≠ .retrySema sema := by
  rintro rfl
  cases called

theorem Frame.raised?_of_call {α : Type} {view : Call → Option α} {value : α}
    (called : frame.call?.bind view = some value) : frame.raised? ≠ some sema := by
  cases frame <;> simp_all [Frame.call?, Frame.raised?]

theorem Counted.units {changed : SemaId} {value : Nat} (counted : Counted before after changed value)
    (sema : SemaId) :
    after.units sema = if changed = sema then some value else before.units sema := by
  obtain ⟨known, rfl⟩ := counted
  obtain ⟨state, there⟩ := Option.ne_none_iff_exists'.mp known
  rw [Kernel.units, Table.getElem?_modify]
  split
  · rename_i same
    rw [there]
    rfl
  · rfl

theorem Kernel.units_addSema (kernel : Kernel) (value : Nat) (sema : SemaId) :
    (kernel.addSema value).units sema =
      if (⟨kernel.nextSema⟩ : SemaId) = sema then some value else kernel.units sema := by
  rw [Kernel.units, Kernel.addSema, Table.getElem?_insert]
  split <;> rfl

theorem Alike.units (alike : Alike before after) (sema : SemaId) :
    after.units sema = before.units sema := by
  rw [Kernel.units, alike.semas, Kernel.units]

/-- Waking a thread that waits for the semaphore takes no unit. -/
theorem Upped.units {raised : SemaId} {value : Nat} (upped : Upped before after raised value)
    (sema : SemaId) :
    after.units sema = if raised = sema then some (value + 1) else before.units sema := by
  obtain ⟨counted, count, ⟨-, rfl⟩ | ⟨best, chosen, -, moved, roused⟩⟩ := upped
  · exact count.units sema
  · exact ((roused.kept.units sema).trans (moved.shift.units sema)).trans (count.units sema)

/-- What becomes of the units of a semaphore when `frame` is replaced by `frames`. -/
inductive Tally (sema : SemaId) (frame : Frame) (frames : List Frame) (before after : Kernel) : Prop
    where
  | kept : frame.raised? ≠ some sema → ¬ Taken sema frame frames →
      after.units sema = before.units sema → Tally sema frame frames before after
  | created (value : Nat) : frame.raised? ≠ some sema → ¬ Taken sema frame frames →
      frame.call?.bind Call.created? = some value → before.nextSema = sema.val →
      after.units sema = some value → Tally sema frame frames before after
  | raised (value : Nat) : frame = .upSema sema → before.units sema = some value →
      after.units sema = some (value + 1) → Tally sema frame frames before after
  | taken (value : Nat) : Taken sema frame frames → before.units sema = some (value + 1) →
      after.units sema = some value → Tally sema frame frames before after

namespace Tally

theorem of_plain (plain : frame.isPlain = true) (same : after.units sema = before.units sema) :
    Tally sema frame frames before after := by
  refine .kept ?_ (not_taken_of_untried (Frame.untried_of_plain plain) ?_) same
  · cases frame <;> simp_all [Frame.isPlain, Frame.raised?]
  · rintro rfl
    cases plain

theorem of_uncalled (uncalled : frame.call? = none) (unraised : frame.raised? = none)
    (waits : frame = .retrySema sema → frames ≠ [])
    (same : after.units sema = before.units sema) : Tally sema frame frames before after := by
  refine .kept (by simp [unraised]) ?_ same
  rintro (⟨front, empty⟩ | ⟨called, -⟩)
  · exact waits front empty
  · rw [uncalled] at called
    cases called

theorem of_created {value : Nat} (called : frame.call?.bind Call.created? = some value)
    (acts : Acts (before.addSema value) after) : Tally sema frame frames before after := by
  have units : after.units sema = (before.addSema value).units sema := acts.kept.units sema
  have unraised : frame.raised? ≠ some sema := Frame.raised?_of_call called
  have untaken : ¬ Taken sema frame frames :=
    not_taken_of_untried (Frame.untried_of_created called) (Frame.ne_retry_of_call called)
  rw [Kernel.units_addSema] at units
  split at units
  · rename_i new
    exact .created value unraised untaken called (congrArg SemaId.val new) units
  · exact .kept unraised untaken units

theorem of_upped {raised : SemaId} {state : SemaState}
    (there : before.semas[raised]? = some state) (upped : Upped before after raised state.value) :
    Tally sema (.upSema raised) [.preempt] before after := by
  have units := upped.units sema
  split at units
  · rename_i same
    subst same
    exact .raised state.value rfl (by rw [Kernel.units, there]; rfl) units
  · rename_i other
    exact .kept (by simpa [Frame.raised?] using other) (by simp [Taken, Frame.call?]) units

/-- A unit of one semaphore is taken, which may be another. -/
theorem of_counted {tried : SemaId} {state : SemaState} {value : Nat}
    (cause : Taken tried frame frames) (there : before.semas[tried]? = some state)
    (positive : state.value = value + 1) (count : Counted before after tried value) :
    Tally sema frame frames before after := by
  have units := count.units sema
  split at units
  · rename_i same
    subst same
    exact .taken value cause (by rw [Kernel.units, there, Option.map_some, positive]) units
  · rename_i other
    refine .kept ?_ ?_ units
    · rcases cause with ⟨rfl, -⟩ | ⟨called, -⟩
      · simp [Frame.raised?]
      · exact Frame.raised?_of_call called
    · rcases cause with ⟨rfl, rfl⟩ | ⟨called, -⟩
      · simpa [Taken, Frame.call?] using other
      · rintro (⟨rfl, -⟩ | ⟨again, -⟩)
        · cases called
        · exact other (Option.some.inj (called.symm.trans again))

end Tally

/-- **What a step does to the units of a semaphore.** -/
theorem Effect.tally (effect : Effect inside frame frames before after) (sema : SemaId) :
    Tally sema frame frames before after := by
  cases effect with
  | plain plain acts => exact .of_plain plain (acts.kept.units sema)
  | based priority front _ based =>
      exact .of_plain (by rw [front]; rfl) ((Kept.of_sameShape based.same).units sema)
  | made value called acts => exact .of_created called acts
  | registered tid called _ moved =>
      exact .kept (Frame.raised?_of_call called)
        (not_taken_of_untried (Frame.untried_of_registered called) (Frame.ne_retry_of_call called))
        (moved.shift.units sema)
  | dozed plain _ _ moved => exact .of_plain plain (moved.shift.units sema)
  | woke tid middle plain _ alike woken =>
      refine .of_plain plain (Eq.trans ?_ (alike.units sema))
      rcases woken with roused | unblocked
      · exact roused.kept.units sema
      · exact unblocked.kept.units sema
  | took lock cause took =>
      have same := (Kept.of_took took).units sema
      rcases cause with plain | ⟨rfl, rfl⟩
      · exact .of_plain plain same
      · exact .of_uncalled rfl rfl (by simp) same
  | awaited lock front pushed awaited =>
      subst front
      obtain ⟨-, joined, holder, shift, -, -, -, -, passed⟩ := awaited
      exact .of_uncalled rfl rfl (by simp)
        (((Kept.of_passedOn passed).units sema).trans (shift.units sema))
  | upped raised state front pushed there upped =>
      subst front pushed
      exact .of_upped there upped
  | counted tried state value cause there positive count =>
      exact .of_counted cause there positive count
  | refused label value called pushed failed alike =>
      obtain ⟨tried, called⟩ := Option.isSome_iff_exists.mp called
      exact .kept (Frame.raised?_of_call called) (by simp [Taken, pushed, failed]) (alike.units sema)
  | queued tried state front pushed _ _ queued =>
      subst front
      exact .of_uncalled rfl rfl (by simp [pushed]) (queued.shift.units sema)
  | judged front alike _ =>
      subst front
      exact .of_uncalled rfl rfl (by simp) (alike.units sema)
  | deferred front _ alike =>
      subst front
      exact .of_uncalled rfl rfl (by simp) (alike.units sema)
  | ticked front _ ticked =>
      subst front
      exact .of_uncalled rfl rfl (by simp) (ticked.act.kept.units sema)
  | returned front _ cleared =>
      subst front
      refine .of_uncalled rfl rfl (by simp) ?_
      rcases cleared with ⟨-, alike⟩ | ⟨-, alike⟩
      · exact alike.units sema
      · exact alike.units sema
  | switched cause switched =>
      rcases cause with ⟨rfl, -⟩ | ⟨rfl, -⟩ <;>
        exact .of_uncalled rfl rfl (by simp) (switched.units sema)
  | exited status parting front _ partings switched =>
      subst front
      exact .of_uncalled rfl rfl (by simp) ((switched.units sema).trans (partings.kept.units sema))
  | idled started front _ _ same =>
      subst front same
      exact .of_uncalled rfl rfl (by simp) rfl

/-- A try that is part of waiting is over or put back behind a frame that blocks. -/
theorem Effect.retried (effect : Effect inside (.retrySema sema) frames before after) :
    frames = [] ∨ frames = [.block, .retrySema sema] := by
  cases effect with
  | counted tried state value cause =>
      rcases cause with ⟨-, rfl⟩ | ⟨called, -⟩
      · exact Or.inl rfl
      · cases called
  | queued tried state front pushed =>
      cases front
      exact Or.inr pushed
  | took lock cause => rcases cause with plain | ⟨front, -⟩ <;> contradiction
  | switched cause => rcases cause with ⟨front, -⟩ | ⟨front, -⟩ <;> cases front
  | _ => contradiction

/-- A try without waiting reports its result at once. -/
theorem Effect.reported (effect : Effect inside frame frames before after)
    (called : frame.call?.bind Call.tried? = some sema) :
    ∃ label value, frames = [.done label value] := by
  have tries : frame.call?.bind Call.tried? ≠ none := by simp [called]
  cases effect with
  | counted tried state value cause =>
      rcases cause with ⟨rfl, -⟩ | ⟨-, label, pushed⟩
      · cases called
      · exact ⟨label, _, pushed⟩
  | refused label value _ pushed => exact ⟨label, value, pushed⟩
  | plain plain => exact absurd (Frame.untried_of_plain plain) tries
  | based priority front => exact absurd (Frame.untried_of_plain (by rw [front]; rfl)) tries
  | dozed plain => exact absurd (Frame.untried_of_plain plain) tries
  | woke tid middle plain => exact absurd (Frame.untried_of_plain plain) tries
  | took lock cause =>
      rcases cause with plain | ⟨rfl, -⟩
      · exact absurd (Frame.untried_of_plain plain) tries
      · cases called
  | made value creates => exact absurd (Frame.untried_of_created creates) tries
  | registered tid registers => exact absurd (Frame.untried_of_registered registers) tries
  | switched cause => rcases cause with ⟨rfl, -⟩ | ⟨rfl, -⟩ <;> cases called
  | _ => simp_all [Frame.call?]

end Effects

/-! ## Units balance -/

/-- The units with which a semaphore was created. -/
def initialUnits (sema : SemaId) : List Machine → Nat
  | [] => 0
  | before :: past =>
    match before.call?.bind Call.created? with
    | some value => if before.kernel.nextSema = sema.val then value else initialUnits sema past
    | none => initialUnits sema past

/-- How often a unit was given back. -/
def ups (sema : SemaId) (past : List Machine) : Nat :=
  past.countP fun before => before.frame?.bind Frame.raised? = some sema

/-- A unit is taken between two machines: a thread that waits does not have to try again, or a call
that does not wait succeeds. -/
def Machine.takes (sema : SemaId) (before after : Machine) : Bool :=
  match before.frame? with
  | some (.retrySema tried) =>
    tried = sema && (after.workOf before.current).length < (before.workOf before.current).length
  | some (.op (.call c)) => c.tried? = some sema && after.frame?.any Frame.isSuccess
  | _ => false

/-- How often a unit was taken. -/
def downs (sema : SemaId) : Machine → List Machine → Nat
  | _, [] => 0
  | after, before :: past => downs sema before past + (before.takes sema after).toNat

section Balance

variable {setup : Setup} {past : List Machine} {machine before after : Machine} {frame : Frame}
  {rest frames : List Frame} {sema : SemaId}

theorem Stepped.takes_iff (stepped : Stepped before after frame rest frames) :
    before.takes sema after = true ↔ Taken sema frame frames := by
  obtain ⟨next, effect, -⟩ := stepped.effect
  rw [Machine.takes, Machine.frame?_of_front stepped.front, stepped.own, stepped.front]
  split
  · rename_i tried front
    cases front
    rcases effect.retried with rfl | rfl <;> simp [Taken, Frame.call?]
  · rename_i c front
    cases front
    by_cases tries : c.tried? = some sema
    · obtain ⟨label, value, rfl⟩ := effect.reported tries
      have called : (Frame.op (.call c)).call?.bind Call.tried? = some sema := tries
      have current : after.current = before.current :=
        stepped.contained.current (Frame.stays_of_call called)
      rw [Machine.frame?, current, stepped.own]
      simp [Taken, tries, Frame.call?, Frame.isSuccess_done]
    · simp [Taken, tries, Frame.call?]
  · rename_i waits calls
    refine iff_of_false Bool.false_ne_true ?_
    rintro (⟨rfl, -⟩ | ⟨called, -⟩)
    · exact absurd rfl (waits sema)
    · obtain ⟨c, begins, -⟩ := Option.bind_eq_some_iff.mp called
      exact (calls c (congrArg some (Frame.eq_of_call begins))).elim

theorem Stepped.tally (stepped : Stepped before after frame rest frames) (sema : SemaId) :
    Tally sema frame frames before.kernel after.kernel := by
  obtain ⟨next, effect, alike⟩ := stepped.effect
  have same : after.kernel.units sema = next.units sema := alike.units sema
  cases effect.tally sema with
  | kept unraised untaken kept => exact .kept unraised untaken (same.trans kept)
  | created value unraised untaken called new now =>
      exact .created value unraised untaken called new (same.trans now)
  | raised value raises was now => exact .raised value raises was (same.trans now)
  | taken value taken was now => exact .taken value taken was (same.trans now)

/-- The units left are those there were at first and those given back, less those taken. -/
structure Balanced (sema : SemaId) (past : List Machine) (machine : Machine) : Prop where
  known : ∀ value, machine.kernel.units sema = some value →
    value + downs sema machine past = initialUnits sema past + ups sema past
  unknown : machine.kernel.units sema = none → downs sema machine past = 0 ∧ ups sema past = 0

/-- A semaphore is not created again. -/
theorem initialUnits_cons_of_known (linked : Linked before.kernel)
    (known : before.kernel.units sema ≠ none) :
    initialUnits sema (before :: past) = initialUnits sema past := by
  have older : before.kernel.nextSema ≠ sema.val := by
    intro new
    refine known ?_
    rw [Kernel.units, linked.semas_below sema (Nat.le_of_eq new), Option.map_none]
  rw [initialUnits]
  split
  · rw [if_neg older]
  · rfl

theorem downs_cons_of_untaken (stepped : Stepped before after frame rest frames)
    (untaken : ¬ Taken sema frame frames) :
    downs sema after (before :: past) = downs sema before past := by
  rw [downs, (Bool.not_eq_true _).mp (mt stepped.takes_iff.mp untaken), Bool.toNat_false, Nat.add_zero]

theorem downs_cons_of_taken (stepped : Stepped before after frame rest frames)
    (taken : Taken sema frame frames) :
    downs sema after (before :: past) = downs sema before past + 1 := by
  rw [downs, stepped.takes_iff.mpr taken, Bool.toNat_true]

theorem ups_cons (stepped : Stepped before after frame rest frames) :
    ups sema (before :: past) = ups sema past + if frame.raised? = some sema then 1 else 0 := by
  rw [ups, List.countP_cons, Machine.frame?_of_front stepped.front, Option.bind_some, ups]
  simp

/-- **Every step keeps units and the history in balance.** -/
theorem Balanced.step (balanced : Balanced sema past before) (linked : Linked before.kernel)
    (stepped : Stepped before after frame rest frames) : Balanced sema (before :: past) after := by
  have ups_eq : ups sema (before :: past) = _ := ups_cons stepped
  cases stepped.tally sema with
  | kept unraised untaken same =>
      rw [if_neg unraised, Nat.add_zero] at ups_eq
      refine ⟨fun value now => ?_, fun now => ?_⟩
      · rw [same] at now
        rw [downs_cons_of_untaken stepped untaken, ups_eq,
          initialUnits_cons_of_known linked (by simp [now])]
        exact balanced.known value now
      · rw [downs_cons_of_untaken stepped untaken, ups_eq]
        exact balanced.unknown (same.symm.trans now)
  | created value unraised untaken called new now =>
      have absent : before.kernel.units sema = none := by
        rw [Kernel.units, linked.semas_below sema (Nat.le_of_eq new), Option.map_none]
      obtain ⟨no_downs, no_ups⟩ := balanced.unknown absent
      have created : before.call?.bind Call.created? = some value := by
        rw [Machine.call?, Machine.frame?_of_front stepped.front, Option.bind_some, called]
      rw [if_neg unraised, Nat.add_zero] at ups_eq
      refine ⟨fun units there => ?_, fun gone => by cases now.symm.trans gone⟩
      rw [downs_cons_of_untaken stepped untaken, ups_eq, no_downs, no_ups, initialUnits, created]
      simp only [new, if_true]
      exact Option.some.inj (there.symm.trans now)
  | raised value raises was now =>
      subst raises
      have untaken : ¬ Taken sema (.upSema sema) frames := by simp [Taken, Frame.call?]
      rw [if_pos (by rfl)] at ups_eq
      refine ⟨fun units there => ?_, fun gone => by cases now.symm.trans gone⟩
      have balance := balanced.known value was
      obtain rfl := Option.some.inj (now.symm.trans there)
      rw [downs_cons_of_untaken stepped untaken, ups_eq,
        initialUnits_cons_of_known linked (by simp [was])]
      omega
  | taken value taken was now =>
      have unraised : frame.raised? ≠ some sema := by
        rcases taken with ⟨rfl, -⟩ | ⟨called, -⟩
        · simp [Frame.raised?]
        · exact Frame.raised?_of_call called
      rw [if_neg unraised, Nat.add_zero] at ups_eq
      refine ⟨fun units there => ?_, fun gone => by cases now.symm.trans gone⟩
      have balance := balanced.known (value + 1) was
      obtain rfl := Option.some.inj (now.symm.trans there)
      rw [downs_cons_of_taken stepped taken, ups_eq,
        initialUnits_cons_of_known linked (by simp [was])]
      omega

/-- The units of every semaphore balance throughout a documented run. -/
theorem Run.balanced (run : Run setup past machine) (documented : Documented past)
    (sema : SemaId) : Balanced sema past machine := by
  refine run.invariant (motive := Balanced sema) documented ?_ ?_
  · intro machine boots
    have units : machine.kernel.units sema = none := by
      rw [Kernel.units, (Machine.boot_eq boots).1.alike.semas]
      rfl
    exact ⟨fun value there => by (cases units.symm.trans there), fun _ => ⟨rfl, rfl⟩⟩
  · intro past before after frame rest frames _ _ sound stepped balanced
    exact balanced.step sound.settled.coherent.linked stepped

end Balance

end Preempt
