import Xpedite.Framework.Disconnect
import Xpedite.Framework.EventSelect
import Xpedite.Framework.PmcBound

/-!
The recorder against the counters.  `PmuCtl` keeps a count, a set of fixed counters and the
state of the perf events apart from each other, and chooses the recorder by their sum.
-/

namespace Xpedite.Framework

open Lib

inductive CounterCall where
  | enableGenericPmc (genericPmcCount : UInt8)
  | enableFixedPmc (index : UInt8)
  | enablePerfEvents (request : PMUCtlRequest) (builds : Bool)
  | disablePMU

def CounterCall.take (control : Control) : CounterCall → Option Control
  | .enableGenericPmc genericPmcCount => some (control.enableGenericPmc genericPmcCount)
  | .enableFixedPmc index => control.enableFixedPmc index
  | .enablePerfEvents request builds =>
      (control.enablePerfEvents request builds).map Prod.fst
  | .disablePMU => some control.disablePMU

structure Consistent (control : Control) : Prop where
  counting : control.recorder.activeRecorderType = .pmc ∨
    control.recorder.activeRecorderType = .perfEvents ↔ 0 < control.pmu.pmcCount
  perfEvents : control.recorder.activeRecorderType = .perfEvents ↔
    control.pmu.perfEventsEnabled = true
  counted : control.pmu.perfEventsEnabled = true →
    control.pmu.pmcCount.toNat = control.pmu.activeEventAttrs.length

def initialControl : Control := ⟨PmuCtl.new, activateRecorder .expandable⟩

def requestedIndices (request : PMUCtlRequest) : List UInt8 :=
  (firstOf request.fixedEvents request.fixedEvtCount).map PMUFixedEvent.ctrIndex

/--
A counter is enabled so that the count does not wrap to zero, nor differ from that of the
perf events while they are enabled; perf events are enabled when no fixed counter is on
that the request does not list.
-/
def KeepsConsistent (control : Control) : CounterCall → Prop
  | .enableGenericPmc genericPmcCount => genericPmcCount ≠ 0 →
      genericPmcCount.toNat + control.pmu.fixedPmcSet.size ≠ 256 ∧
        (control.pmu.perfEventsEnabled = true →
          (genericPmcCount.toNat + control.pmu.fixedPmcSet.size) % 256 =
            control.pmu.activeEventAttrs.length)
  | .enableFixedPmc index =>
      control.pmu.genericPmcCount.toNat + (control.pmu.fixedPmcSet.withIndices [index]).size ≠ 256 ∧
        (control.pmu.perfEventsEnabled = true →
          (control.pmu.genericPmcCount.toNat +
              (control.pmu.fixedPmcSet.withIndices [index]).size) % 256 =
            control.pmu.activeEventAttrs.length)
  | .enablePerfEvents request builds =>
      Control.PerfEventsGranted control.pmu request builds →
        control.pmu.fixedPmcSet.withIndices (requestedIndices request) =
          FixedPmcSet.new.withIndices (requestedIndices request)
  | .disablePMU => True

theorem consistent_initial : Consistent initialControl := by
  refine ⟨?_, ?_, ?_⟩
  · decide
  · decide
  · intro enabled
    cases enabled

theorem pmcCount_pos_iff (pmu : PmuCtl) : 0 < pmu.pmcCount ↔ pmu.readCount % 256 ≠ 0 := by
  rw [UInt8.lt_iff_toNat_lt, toNat_pmcCount]
  exact Nat.pos_iff_ne_zero

/-- Both ways to enable counters choose the recorder by the count they find. -/
theorem consistent_enabled_iff {control next : Control} (consistent : Consistent control)
    (recorder : next.recorder =
      if control.pmu.pmcCount = 0 then activateRecorder .pmc else control.recorder)
    (attrs : next.pmu.activeEventAttrs = control.pmu.activeEventAttrs)
    (enabled : next.pmu.perfEventsEnabled = control.pmu.perfEventsEnabled) :
    Consistent next ↔ next.pmu.readCount % 256 ≠ 0 ∧
      (control.pmu.perfEventsEnabled = true →
        next.pmu.readCount % 256 = control.pmu.activeEventAttrs.length) := by
  rw [← pmcCount_pos_iff, ← toNat_pmcCount, ← attrs]
  have counts : next.recorder.activeRecorderType = .pmc ∨
      next.recorder.activeRecorderType = .perfEvents := by
    rw [recorder]
    split
    · exact .inl rfl
    · rename_i counting
      exact consistent.counting.mpr (UInt8.pos_iff_ne_zero.mpr counting)
  have perfEvents : next.recorder.activeRecorderType = .perfEvents ↔
      next.pmu.perfEventsEnabled = true := by
    rw [recorder, enabled, ← consistent.perfEvents]
    split
    · rename_i idle
      refine iff_of_false (by decide) ?_
      intro active
      have positive := consistent.counting.mp (.inr active)
      rw [idle] at positive
      exact absurd positive (by decide)
    · exact Iff.rfl
  constructor
  · intro holds
    exact ⟨holds.counting.mp counts, fun on => holds.counted (enabled.trans on)⟩
  · rintro ⟨positive, counted⟩
    exact ⟨iff_of_true counts positive, perfEvents, fun on => counted (enabled.symm.trans on)⟩

theorem enableGenericPmc_consistent_iff {control : Control} (consistent : Consistent control)
    (count : UInt8) :
    Consistent (control.enableGenericPmc count) ↔
      KeepsConsistent control (.enableGenericPmc count) := by
  rw [KeepsConsistent]
  by_cases zero : count = 0
  · rw [Control.enableGenericPmc, if_pos zero]
    exact iff_of_true consistent (fun nonzero => absurd zero nonzero)
  · have pmu := control.enableGenericPmc_pmu count
    rw [Control.genericAfter, if_neg zero] at pmu
    have recorder : (control.enableGenericPmc count).recorder =
        if control.pmu.pmcCount = 0 then activateRecorder .pmc else control.recorder := by
      rw [Control.enableGenericPmc, if_neg zero]
      exact recorder_activate_if control .pmc _
    rw [consistent_enabled_iff consistent recorder (by rw [pmu]) (by rw [pmu]), pmu,
      PmuCtl.readCount]
    have positive : count.toNat ≠ 0 := fun none_ => zero (UInt8.toNat_inj.mp none_)
    have bound := count.toNat_lt
    have few := control.pmu.fixedPmcSet.size_le
    have wraps : (count.toNat + control.pmu.fixedPmcSet.size) % 256 ≠ 0 ↔
        count.toNat + control.pmu.fixedPmcSet.size ≠ 256 := by omega
    rw [wraps]
    exact ⟨fun both _ => both, fun both => both zero⟩

theorem enableFixedPmc_cases {control next : Control} {index : UInt8}
    (enabled : control.enableFixedPmc index = some next) :
    next.recorder =
        (if control.pmu.pmcCount = 0 then activateRecorder .pmc else control.recorder) ∧
      next.pmu.genericPmcCount = control.pmu.genericPmcCount ∧
      next.pmu.fixedPmcSet = control.pmu.fixedPmcSet.withIndices [index] ∧
      0 < next.pmu.fixedPmcSet.size := by
  have pmu := Control.enableFixedPmc_pmu enabled
  rw [Control.enableFixedPmc] at enabled
  obtain ⟨fixedPmcSet, accepted, rfl⟩ := Option.map_eq_some_iff.mp enabled
  simp only [Control.pmu_activate_if] at accepted
  have all : control.pmu.fixedPmcSet.enableAll [index] = some fixedPmcSet := by
    rw [FixedPmcSet.enableAll, List.foldlM_cons, accepted]
    rfl
  refine ⟨recorder_activate_if control .pmc _, ?_, ?_, FixedPmcSet.size_pos_of_enableAll all⟩
  · rw [pmu]
  · rw [pmu]

theorem enableFixedPmc_consistent_iff {control next : Control} (consistent : Consistent control)
    {index : UInt8} (enabled : control.enableFixedPmc index = some next) :
    Consistent next ↔ KeepsConsistent control (.enableFixedPmc index) := by
  obtain ⟨recorder, generic, fixed, positive⟩ := enableFixedPmc_cases enabled
  have pmu := Control.enableFixedPmc_pmu enabled
  have few := next.pmu.fixedPmcSet.size_le
  have bound := control.pmu.genericPmcCount.toNat_lt
  rw [consistent_enabled_iff consistent recorder (by rw [pmu]) (by rw [pmu]), PmuCtl.readCount,
    generic, KeepsConsistent, ← fixed]
  refine and_congr ?_ Iff.rfl
  omega

theorem enablePerfEvents_granted {control next : Control} {request : PMUCtlRequest} {builds : Bool}
    (enabled : control.enablePerfEvents request builds = some (next, true)) :
    ∃ eventSet, buildEventSet request = some eventSet ∧
      next.recorder = activateRecorder .perfEvents ∧
      next.pmu =
        { genericPmcCount := request.gpEvtCount
          fixedPmcSet := control.pmu.fixedPmcSet.withIndices (requestedIndices request)
          activeEventAttrs := buildPerfEventAttrs eventSet
          generation := control.pmu.generation + 1
          perfEventsEnabled := true } := by
  rw [Control.enablePerfEvents] at enabled
  cases built : buildEventSet request with
  | none =>
      rw [built] at enabled
      cases enabled
  | some eventSet =>
      refine ⟨eventSet, rfl, ?_⟩
      simp only [built, Control.enableEvents] at enabled
      by_cases already : control.pmu.perfEventsEnabled = true
      · simp [already] at enabled
      · by_cases empty : (buildPerfEventAttrs eventSet).isEmpty = true
        · simp [already, empty] at enabled
        · cases builds with
          | false => simp [already, empty] at enabled
          | true =>
              simp only [already, Bool.false_eq_true, if_false, empty, if_true] at enabled
              obtain ⟨fixedPmcSet, all, same⟩ := Option.map_eq_some_iff.mp enabled
              cases same
              rw [FixedPmcSet.enableAll_eq_some all]
              exact ⟨rfl, rfl⟩

theorem size_withIndices_eq_iff (set : FixedPmcSet) (indices : List UInt8) :
    (set.withIndices indices).size = (FixedPmcSet.new.withIndices indices).size ↔
      set.withIndices indices = FixedPmcSet.new.withIndices indices := by
  constructor
  · intro same
    have grows : ∀ first second : Bool, second.toNat ≤ (first || second).toNat := by decide
    have equal : ∀ first second : Bool, (first || second).toNat = second.toNat →
        (first || second) = second := by decide
    have first := grows set.instRetiredAny (indices.contains 0)
    have second := grows set.cpuClkUnhaltedCore (indices.contains 1)
    have third := grows set.cpuClkUnhaltedRef (indices.contains 2)
    simp only [FixedPmcSet.size, FixedPmcSet.withIndices, FixedPmcSet.new, Bool.false_or] at same
    simp only [FixedPmcSet.withIndices, FixedPmcSet.new, Bool.false_or, FixedPmcSet.mk.injEq]
    exact ⟨equal _ _ (by omega), equal _ _ (by omega), equal _ _ (by omega)⟩
  · intro same
    rw [same]

theorem length_buildPerfEventAttrs {request : PMUCtlRequest} {eventSet : EventSet}
    (built : buildEventSet request = some eventSet) :
    (buildPerfEventAttrs eventSet).length =
      request.gpEvtCount.toNat + (FixedPmcSet.new.withIndices (requestedIndices request)).size := by
  have accepted := Control.accepted_of_buildEventSet built
  have fixed : eventSet.fixedEvtGlobalCtl = FixedPmcSet.new.withIndices (requestedIndices request) :=
    FixedPmcSet.enableAll_eq_some accepted.fixed
  simp only [buildPerfEventAttrs, List.length_append, List.length_map,
    Control.length_fixedEventAttr, accepted.gp,
    Control.length_firstOf request.gpEvents accepted.gpFew, ← fixed, FixedPmcSet.size]
  omega

theorem enablePerfEvents_refused {control next : Control} {request : PMUCtlRequest} {builds : Bool}
    (refused : control.enablePerfEvents request builds = some (next, false)) :
    next = control ∨
      control.pmu.perfEventsEnabled = false ∧ builds = false ∧
        ∃ eventSet, buildEventSet request = some eventSet ∧ buildPerfEventAttrs eventSet ≠ [] ∧
          next.recorder = control.recorder ∧
          next.pmu = { control.pmu with
            activeEventAttrs := buildPerfEventAttrs eventSet
            generation := control.pmu.generation + 1 } := by
  rw [Control.enablePerfEvents] at refused
  cases built : buildEventSet request with
  | none =>
      rw [built] at refused
      cases refused
      exact .inl rfl
  | some eventSet =>
      simp only [built, Control.enableEvents] at refused
      cases already : control.pmu.perfEventsEnabled with
      | true =>
          simp only [already, if_true, Option.some.injEq, Prod.mk.injEq, and_true] at refused
          exact .inl refused.symm
      | false =>
          by_cases empty : (buildPerfEventAttrs eventSet).isEmpty = true
          · simp only [already, Bool.false_eq_true, if_false, empty, if_true, Option.some.injEq,
              Prod.mk.injEq, and_true] at refused
            exact .inl refused.symm
          · cases builds with
            | false =>
                simp only [already, Bool.false_eq_true, if_false, empty, Option.some.injEq,
                  Prod.mk.injEq, and_true] at refused
                refine .inr ⟨rfl, rfl, eventSet, rfl, by simpa using empty, ?_⟩
                rw [← refused]
                exact ⟨rfl, by rw [← already]⟩
            | true =>
                simp only [already, Bool.false_eq_true, if_false, empty, if_true] at refused
                obtain ⟨fixedPmcSet, -, same⟩ := Option.map_eq_some_iff.mp refused
                cases same

theorem enablePerfEvents_consistent_iff {control next : Control} (consistent : Consistent control)
    {request : PMUCtlRequest} {builds enables : Bool}
    (taken : control.enablePerfEvents request builds = some (next, enables)) :
    Consistent next ↔ KeepsConsistent control (.enablePerfEvents request builds) := by
  rw [KeepsConsistent]
  rcases control.enablePerfEvents_cases request builds with
    ⟨granted, given, result, -, -, -, positive⟩ | ⟨refused, pmu, result, -⟩
  · cases result.symm.trans taken
    have few := Control.enablePerfEvents_readCount result
    obtain ⟨eventSet, built, recorder, pmu⟩ := enablePerfEvents_granted result
    have small : next.pmu.readCount % 256 = next.pmu.readCount := Nat.mod_eq_of_lt (by omega)
    have count : next.pmu.readCount = request.gpEvtCount.toNat +
        (control.pmu.fixedPmcSet.withIndices (requestedIndices request)).size := by
      rw [pmu, PmuCtl.readCount]
    have attrs : next.pmu.activeEventAttrs = buildPerfEventAttrs eventSet := by rw [pmu]
    have active : next.pmu.perfEventsEnabled = true := by rw [pmu]
    rw [← size_withIndices_eq_iff]
    constructor
    · intro holds _
      have counted := holds.counted active
      rw [toNat_pmcCount, small, count, attrs, length_buildPerfEventAttrs built] at counted
      omega
    · intro same
      refine ⟨?_, ?_, ?_⟩
      · refine iff_of_true (.inr (by rw [recorder]; rfl)) ?_
        rw [pmcCount_pos_iff, small]
        omega
      · exact iff_of_true (by rw [recorder]; rfl) active
      · intro _
        rw [toNat_pmcCount, small, count, attrs, length_buildPerfEventAttrs built, same granted]
  · cases result.symm.trans taken
    refine iff_of_true ?_ (fun granted => absurd granted refused)
    rcases enablePerfEvents_refused result with same | ⟨off, -, eventSet, -, -, -, left⟩
    · rw [same]
      exact consistent
    · -- nothing of it shows while the perf events are not enabled
      dsimp only at left
      have counting := consistent.counting
      have perfEvents := consistent.perfEvents
      rw [left]
      exact ⟨counting, perfEvents, fun on => absurd (off.symm.trans on) (by decide)⟩

theorem disablePMU_consistent {control : Control} (consistent : Consistent control) :
    Consistent control.disablePMU := by
  have pmu := control.disablePMU_pmu
  have off : control.disablePMU.pmu.perfEventsEnabled = false := by rw [pmu]
  have idle : control.disablePMU.recorder.activeRecorderType ≠ .pmc ∧
      control.disablePMU.recorder.activeRecorderType ≠ .perfEvents := by
    rw [disablePMU_recorder]
    by_cases counted : control.pmu.readCount = 0
    · have zero : ¬0 < control.pmu.pmcCount := by
        rw [pmcCount_pos_iff, counted]
        decide
      have unset := mt consistent.counting.mp zero
      rw [if_neg (not_not.mpr counted)]
      exact not_or.mp unset
    · rw [if_pos counted]
      exact ⟨by decide, by decide⟩
  refine ⟨?_, ?_, ?_⟩
  · refine iff_of_false (not_or.mpr idle) ?_
    rw [pmcCount_pos_iff, control.disablePMU_readCount]
    decide
  · refine iff_of_false idle.2 ?_
    rw [off]
    decide
  · intro on
    exact absurd (off.symm.trans on) (by decide)

theorem take_consistent_iff {control next : Control} {call : CounterCall}
    (consistent : Consistent control) (taken : call.take control = some next) :
    Consistent next ↔ KeepsConsistent control call := by
  cases call with
  | enableGenericPmc count =>
      cases taken
      exact enableGenericPmc_consistent_iff consistent count
  | enableFixedPmc index => exact enableFixedPmc_consistent_iff consistent taken
  | enablePerfEvents request builds =>
      obtain ⟨⟨control, enables⟩, result, rfl⟩ := Option.map_eq_some_iff.mp taken
      exact enablePerfEvents_consistent_iff consistent result
  | disablePMU =>
      cases taken
      exact iff_of_true (disablePMU_consistent consistent) trivial

/--
Recorder and counters agree in every state of a run exactly when every call of the run
keeps the count from wrapping, and from differing from that of the perf events.
-/
theorem consistent_throughout_iff {calls : List CounterCall} {final : Control}
    (called : run CounterCall.take initialControl calls = some final) :
    (∀ earlier later control, calls = earlier ++ later →
        run CounterCall.take initialControl earlier = some control → Consistent control) ↔
      Along CounterCall.take KeepsConsistent initialControl calls :=
  throughout_iff_along (fun _ _ _ consistent taken => take_consistent_iff consistent taken)
    consistent_initial called

def threeCounters : List CounterCall :=
  [.enableGenericPmc 2, .enableFixedPmc 1, .disablePMU]

theorem consistent_throughout_threeCounters :
    (∃ final, run CounterCall.take initialControl threeCounters = some final) ∧
      ∀ earlier later control, threeCounters = earlier ++ later →
        run CounterCall.take initialControl earlier = some control → Consistent control := by
  have keeps : Along CounterCall.take KeepsConsistent initialControl threeCounters := by
    refine ⟨fun _ => ⟨by decide, fun on => by cases on⟩, ?_⟩
    intro generic taken
    cases taken
    exact ⟨⟨by decide, fun on => by cases on⟩, fun _ _ => ⟨trivial, fun _ _ => trivial⟩⟩
  exact ⟨⟨_, rfl⟩, (@consistent_throughout_iff threeCounters _ rfl).mpr keeps⟩

def fixedLeftOn : List CounterCall :=
  [.enableFixedPmc 2, .enablePerfEvents (requestOfOne uopsIssued) true]

/-- The count is that of two counters, and the perf events are one. -/
theorem consistent_fails_at_fixedLeftOn :
    ∃ control, run CounterCall.take initialControl fixedLeftOn = some control ∧
      control.pmu.pmcCount = 2 ∧ control.pmu.activeEventAttrs.length = 1 ∧
      ¬Consistent control := by
  refine ⟨_, rfl, rfl, rfl, ?_⟩
  intro consistent
  have counted := consistent.counted rfl
  exact absurd counted (by decide)

end Xpedite.Framework
