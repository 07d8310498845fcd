import Preempt.Proofs.Accounting
import Preempt.Proofs.Failures

/-!
# Reporting the statistics of the feedback policy

Callers are told one hundred times the load average, or the processor use of the
running thread, rounded toward zero. This number always fits the range. It is taken
from a product that still carries the fractional bits, though, and that product fits
only for statistics within about 1310 of zero (`Feedback.Reportable`). Accounting
alone keeps them within a hundred times as much.

So a query reports exactly what it should if the statistic is reportable, and stops
the system otherwise; it never reports anything else. With few enough workers and a
slow enough timer all statistics are reportable (`Run.statistics_reported`).
-/

set_option autoImplicit false

namespace Preempt

open Kernel

namespace Feedback

variable {value : Fixed}

/-- One hundred times a statistic, rounded toward zero. -/
def report (value : Fixed) : Int :=
  (value.raw * 100).tdiv Fixed.scale

/-- One hundred times the statistic fits the range with its fractional bits. -/
def Reportable (value : Fixed) : Prop :=
  InRange (value.raw * 100)

instance : DecidablePred Reportable := fun value =>
  inferInstanceAs (Decidable (InRange (value.raw * 100)))

theorem times100_of_reportable (reportable : Reportable value) :
    times100 value = .ok (report value) := by
  have yields : Yields (value.mulInt 100) (value.raw * 100) := .mulInt reportable
  obtain ⟨scaled, success, raw⟩ := yields
  rw [times100, success]
  show Except.ok (scaled.raw.tdiv Fixed.scale) = _
  rw [raw, report]

theorem times100_of_not_reportable (large : ¬ Reportable value) :
    times100 value = .error .mulOverflow := by
  have fails : value.mulInt 100 = .error .mulOverflow := dif_neg large
  rw [times100, fails]
  rfl

/-- A statistic that is no larger than `bound` is reportable if one hundred times `bound` fits. -/
theorem reportable_of_le {bound : Int} (fits : 100 * bound ≤ 131071)
    (low : -bound * Fixed.scale ≤ value.raw) (high : value.raw ≤ bound * Fixed.scale) :
    Reportable value := by
  rw [Fixed.scale] at low high
  constructor <;> omega

end Feedback

/-- The query that a frame begins. -/
def Frame.query? : Frame → Option Query
  | .op (.query query) => some query
  | _ => none

namespace Machine

variable {machine after : Machine} {query : Query} {value : Fixed}

/-- The statistic of the feedback policy that a query is about. -/
def statistic? (machine : Machine) : Query → Option Fixed
  | .recentCpu => machine.kernel.threads[machine.current]?.map Thread.recentCpu
  | .loadAvg => some machine.kernel.feedback.loadAvg
  | _ => none

/-- The next frame begins a query about a statistic, whose value this is. -/
def Asks (machine : Machine) (query : Query) (value : Fixed) : Prop :=
  machine.frame?.bind Frame.query? = some query ∧ machine.statistic? query = some value

/-- The next step answers the query with a number and leaves the scheduler as it is. -/
def Reports (machine : Machine) (query : Query) (number : Int) : Prop :=
  ∃ after rest, machine.Steps after ∧ machine.workOf machine.current = .op (.query query) :: rest ∧
    after.workOf machine.current = .done (.query query) (.number number) :: rest ∧
    Silent machine.kernel after.kernel

theorem Asks.front (asks : machine.Asks query value) :
    ∃ rest, machine.workOf machine.current = .op (.query query) :: rest := by
  obtain ⟨frame, next, begins⟩ := Option.bind_eq_some_iff.mp asks.1
  obtain ⟨rest, front⟩ := List.head?_eq_some_iff.mp next
  refine ⟨rest, ?_⟩
  rw [front]
  cases frame with
  | op op =>
      cases op with
      | query other => rw [Option.some.inj begins]
      | _ => cases begins
  | _ => cases begins

/-- The answer to a query about a statistic is one hundred times the statistic, or there is none. -/
theorem answer_of_statistic (holds : machine.statistic? query = some value) :
    FailsOnly (fun stop => stop = .fault (.arith .mulOverflow) ∧ ¬ Feedback.Reportable value)
        (MachineM.answer query) machine ∧
      After (MachineM.answer query) (fun answer _ =>
        Feedback.Reportable value ∧ answer = .number (Feedback.report value)) machine := by
  have scaled : ∀ number, Feedback.times100 value = .ok number →
      Feedback.Reportable value ∧ Value.number number = .number (Feedback.report value) := by
    intro number success
    by_cases reportable : Feedback.Reportable value
    · rw [Feedback.times100_of_reportable reportable] at success
      cases success
      exact ⟨reportable, rfl⟩
    · rw [Feedback.times100_of_not_reportable reportable] at success
      cases success
  have overflows : ∀ fault, Feedback.times100 value = .error fault →
      Stop.fault (.arith fault) = .fault (.arith .mulOverflow) ∧ ¬ Feedback.Reportable value := by
    intro fault fails
    by_cases reportable : Feedback.Reportable value
    · rw [Feedback.times100_of_reportable reportable] at fails
      cases fails
    · rw [Feedback.times100_of_not_reportable reportable] at fails
      cases fails
      exact ⟨rfl, reportable⟩
  cases query with
  | recentCpu =>
      obtain ⟨self, found, rfl⟩ := Option.map_eq_some_iff.mp holds
      have found : machine.kernel.threads[machine.kernel.current]? = some self := found
      simp only [MachineM.answer, MachineM.running, failsOnly_bind, failsOnly_map, after_bind,
        after_map, MachineM.failsOnly_kernel, MachineM.after_kernel, KernelM.failsOnly_running,
        KernelM.after_running, KernelM.failsOnly_ofArith, KernelM.after_ofArith, found,
        Option.some.injEq, reduceCtorEq, false_implies, true_and]
      exact ⟨fun _ same => same ▸ overflows, fun _ same => same ▸ scaled⟩
  | loadAvg =>
      cases holds
      simp only [MachineM.answer, failsOnly_bind, failsOnly_get, failsOnly_map, after_bind,
        after_get, after_map, MachineM.failsOnly_kernel, MachineM.after_kernel,
        KernelM.failsOnly_ofArith, KernelM.after_ofArith, true_and]
      exact ⟨overflows, scaled⟩
  | _ => cases holds

/-- A step that asks for a statistic reports it if it is reportable, and otherwise stops. -/
theorem Asks.response (asks : machine.Asks query value) :
    FailsOnly (fun stop => stop = .fault (.arith .mulOverflow) ∧ ¬ Feedback.Reportable value)
        step machine ∧
      After step (fun _ after => Feedback.Reportable value ∧ ∀ rest,
        machine.workOf machine.current = .op (.query query) :: rest →
          after.workOf machine.current =
              .done (.query query) (.number (Feedback.report value)) :: rest ∧
            Silent machine.kernel after.kernel) machine := by
  obtain ⟨rest, front⟩ := asks.front
  simp only [step, failsOnly_bind, failsOnly_get, after_bind, after_get, front, failsOnly_set,
    after_set, true_and, MachineM.execute, MachineM.perform, MachineM.failsOnly_push,
    MachineM.after_push]
  -- Answering looks at everything but the work of the running thread.
  generalize shape : ({ machine with
    work := machine.work.insert machine.current rest } : Machine) = popped
  have kernel : popped.kernel = machine.kernel := by rw [← shape]
  have current : popped.current = machine.current := by rw [Machine.current, kernel]; rfl
  have work : popped.workOf machine.current = rest := by
    rw [← shape, workOf_insert rfl, Function.update_self]
  have statistic : popped.statistic? query = machine.statistic? query := by
    cases query <;> simp only [statistic?, kernel, current]
  have answers := answer_of_statistic (statistic.trans asks.2)
  refine ⟨⟨answers.1, fun _ _ _ => trivial⟩, ?_⟩
  intro answer next success
  obtain ⟨reportable, rfl⟩ := answers.2 answer next success
  have untouched := MachineM.untouched_answer query _ next success
  obtain ⟨running, same⟩ := untouched.same
  refine ⟨reportable, ?_⟩
  rintro _ ⟨⟩
  refine ⟨?_, kernel ▸ untouched.1⟩
  rw [workOf_insert rfl, running, same, current, Function.update_self, work]
  rfl

/-- **A statistic is reported exactly if it is reportable; otherwise the system stops.** -/
theorem Asks.outcome (asks : machine.Asks query value) :
    (Feedback.Reportable value → machine.Reports query (Feedback.report value)) ∧
      (¬ Feedback.Reportable value →
        ∃ last, step machine = .error (.fault (.arith .mulOverflow)) last) := by
  obtain ⟨fails, reports⟩ := asks.response
  obtain ⟨rest, front⟩ := asks.front
  constructor
  · intro reportable
    have never : FailsOnly (fun _ => False) step machine :=
      fails.mono fun _ failed => failed.2 reportable
    obtain ⟨_, after, steps⟩ := never.succeeds
    obtain ⟨-, reports⟩ := reports _ after steps
    exact ⟨after, rest, steps, front, reports rest front⟩
  · intro large
    cases result : step machine with
    | ok _ after => exact absurd (reports _ after result).1 large
    | error stop last => exact ⟨last, by rw [(fails stop last result).1]⟩

end Machine

variable {workers freq : Nat} {setup : Setup} {past : List Machine} {machine : Machine}
  {query : Query} {value : Fixed}

/-- A load average of at most 1310 workers is reportable. -/
theorem Kernel.WithinLoad.reportable_load (within : machine.kernel.WithinLoad workers freq)
    (few : workers ≤ 1310) : Feedback.Reportable machine.kernel.feedback.loadAvg := by
  obtain ⟨low, high⟩ := within.load
  rw [Fixed.scale] at high
  constructor <;> omega

/-- Under light enough load every statistic is reportable. -/
theorem Kernel.WithinLoad.reportable (within : machine.kernel.WithinLoad workers freq)
    (light : 100 * (2 * workers * freq + 20 * (2 * workers + 1) + freq) ≤ 131071)
    (asks : machine.Asks query value) : Feedback.Reportable value := by
  obtain ⟨-, holds⟩ := asks
  cases query with
  | recentCpu =>
      obtain ⟨self, found, rfl⟩ := Option.map_eq_some_iff.mp holds
      obtain ⟨low, high⟩ := within.use _ _ found
      have light : (100 : Int) * (2 * workers * freq + 20 * (2 * workers + 1) + freq) ≤ 131071 := by
        exact_mod_cast light
      refine Feedback.reportable_of_le light ?_ high
      rw [Fixed.scale] at low ⊢
      have room : (0 : Int) ≤ 2 * workers * freq := by positivity
      omega
  | loadAvg =>
      cases holds
      exact within.reportable_load (by omega)
  | _ => cases holds

/-- **A statistic is reported exactly, or the system stops.** Whoever asks for the load average or
for its processor use is told one hundred times that, rounded toward zero, if it is reportable, and
otherwise the system stops for an overflow. A load average is reportable while no more than 1310
threads besides the idle one are alive, and every statistic is while one hundred times the largest
processor use that accounting allows for so many threads fits. -/
theorem Run.statistics_reported (run : Run setup past machine) (workers : Nat)
    (asks : machine.Asks query value) :
    (Feedback.Reportable value → machine.Reports query (Feedback.report value)) ∧
      (¬ Feedback.Reportable value →
        ∃ last, Machine.step machine = .error (.fault (.arith .mulOverflow)) last) ∧
      (setup.config.policy = .mlfqs →
        (∀ reached ∈ past, reached.kernel.workers.length ≤ workers) →
        2 * workers * setup.config.timerFreq + 20 * (2 * workers + 1) + setup.config.timerFreq ≤
          131071 →
        (query = .loadAvg → workers ≤ 1310 → Feedback.Reportable value) ∧
          (100 * (2 * workers * setup.config.timerFreq + 20 * (2 * workers + 1) +
            setup.config.timerFreq) ≤ 131071 → Feedback.Reportable value)) := by
  obtain ⟨reports, overflows⟩ := asks.outcome
  refine ⟨reports, overflows, fun feedback few fits => ?_⟩
  have fits : Fits workers setup.config.timerFreq := by
    refine ⟨run.timed, ?_⟩
    rw [Feedback.rest_add_terms]
    exact_mod_cast fits
  have within := (run.accounted feedback fits few).timely.withinLoad
  constructor
  · rintro rfl few
    cases asks.2
    exact within.reportable_load few
  · exact fun light => within.reportable light asks

/-- A thread asks for its processor use after five ticks, two of them a second. -/
def curious : Setup where
  config := { policy := .mlfqs, timerFreq := 2 }
  main := [.call (.timer 5), .query .recentCpu]

theorem curious_reported : ∃ past machine, Run curious past machine ∧
    (∃ value, machine.Asks .recentCpu value ∧ machine.Reports .recentCpu (Feedback.report value) ∧
      Feedback.report value = 112) ∧
    curious.config.policy = .mlfqs ∧ ∀ reached ∈ past, reached.kernel.workers.length ≤ 2 := by
  have reached : ∃ reached ∈ Machine.history curious 61, ∃ value ∈ reached.2.statistic? .recentCpu,
      reached.2.frame?.bind Frame.query? = some .recentCpu ∧ Feedback.report value = 112 ∧
        ∀ machine ∈ reached.1, machine.kernel.workers.length ≤ 2 := by
    decide +kernel
  obtain ⟨⟨past, machine⟩, follows, value, holds, begins, number, few⟩ := reached
  have run := Run.history follows
  have asks : machine.Asks .recentCpu value := ⟨begins, holds⟩
  obtain ⟨reports, -, reportable⟩ := run.statistics_reported 2 asks
  obtain ⟨-, light⟩ := reportable rfl few (by decide)
  exact ⟨past, machine, run, ⟨value, asks, reports (light (by decide)), number⟩, rfl, few⟩

end Preempt
