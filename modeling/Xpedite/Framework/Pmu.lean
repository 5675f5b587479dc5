import Xpedite.Framework.HandlerCore
import Xpedite.Lib.Runs

/-!
What the operations on the counters leave: one equation for each of them, which says
nothing about the recorder.
-/

namespace Xpedite.Framework

namespace FixedPmcSet

theorem size_le (set : FixedPmcSet) : set.size ≤ 3 := by
  have first := set.instRetiredAny.toNat_le
  have second := set.cpuClkUnhaltedCore.toNat_le
  have third := set.cpuClkUnhaltedRef.toNat_le
  rw [size]
  omega

def withIndices (set : FixedPmcSet) (indices : List UInt8) : FixedPmcSet where
  instRetiredAny := set.instRetiredAny || indices.contains 0
  cpuClkUnhaltedCore := set.cpuClkUnhaltedCore || indices.contains 1
  cpuClkUnhaltedRef := set.cpuClkUnhaltedRef || indices.contains 2

theorem enable_eq_some {set next : FixedPmcSet} {index : UInt8}
    (enabled : set.enable index = some next) : next = set.withIndices [index] := by
  rw [enable] at enabled
  split at enabled
  · subst index
    cases enabled
    simp [withIndices]
  · split at enabled
    · subst index
      cases enabled
      simp [withIndices]
    · split at enabled
      · subst index
        cases enabled
        simp [withIndices]
      · cases enabled

theorem withIndices_cons (set : FixedPmcSet) (index : UInt8) (indices : List UInt8) :
    (set.withIndices [index]).withIndices indices = set.withIndices (index :: indices) := by
  simp [withIndices, Bool.or_assoc]

theorem enableAll_eq_some {set next : FixedPmcSet} {indices : List UInt8}
    (enabled : set.enableAll indices = some next) : next = set.withIndices indices := by
  induction indices generalizing set with
  | nil =>
      cases enabled
      simp [withIndices]
  | cons index indices ih =>
      rw [enableAll, List.foldlM_cons] at enabled
      obtain ⟨middle, first, rest⟩ := Option.bind_eq_some_iff.mp enabled
      rw [ih rest, enable_eq_some first, withIndices_cons]

theorem index_of_enable {set next : FixedPmcSet} {index : UInt8}
    (enabled : set.enable index = some next) : index = 0 ∨ index = 1 ∨ index = 2 := by
  rw [enable] at enabled
  split at enabled
  · rename_i zero
    exact .inl zero
  · split at enabled
    · rename_i one
      exact .inr (.inl one)
    · split at enabled
      · rename_i two
        exact .inr (.inr two)
      · cases enabled

theorem isSome_enable (set : FixedPmcSet) (index : UInt8) :
    (set.enable index).isSome = true ↔ index < 3 := by
  have small : index < 3 ↔ index = 0 ∨ index = 1 ∨ index = 2 := by
    simp only [UInt8.lt_iff_toNat_lt, ← UInt8.toNat_inj]
    change index.toNat < 3 ↔ index.toNat = 0 ∨ index.toNat = 1 ∨ index.toNat = 2
    omega
  constructor
  · intro enabled
    obtain ⟨next, accepted⟩ := Option.isSome_iff_exists.mp enabled
    exact small.mpr (index_of_enable accepted)
  · intro below
    rcases small.mp below with rfl | rfl | rfl
    · rfl
    · rfl
    · rfl

theorem isSome_enableAll (set : FixedPmcSet) (indices : List UInt8) :
    (set.enableAll indices).isSome = true ↔ ∀ index ∈ indices, index < 3 :=
  Lib.isSome_foldlM_iff isSome_enable indices set

theorem size_pos_of_enableAll {set next : FixedPmcSet} {index : UInt8} {indices : List UInt8}
    (enabled : set.enableAll (index :: indices) = some next) : 0 < next.size := by
  have all := enableAll_eq_some enabled
  rw [enableAll, List.foldlM_cons] at enabled
  obtain ⟨middle, first, -⟩ := Option.bind_eq_some_iff.mp enabled
  rw [all, size]
  rcases index_of_enable first with rfl | rfl | rfl
  · simp only [withIndices, List.contains_cons, beq_self_eq_true, Bool.true_or, Bool.or_true,
      Bool.toNat_true]
    omega
  · simp only [withIndices, List.contains_cons, beq_self_eq_true, Bool.true_or, Bool.or_true,
      Bool.toNat_true]
    omega
  · simp only [withIndices, List.contains_cons, beq_self_eq_true, Bool.true_or, Bool.or_true,
      Bool.toNat_true]
    omega

end FixedPmcSet

namespace Control

def genericAfter (pmu : PmuCtl) (count : UInt8) : UInt8 :=
  if count = 0 then pmu.genericPmcCount else count

theorem pmu_activate_if (control : Control) (type : RecorderType) (condition : Prop)
    [Decidable condition] :
    (if condition then control.activate type else control).pmu = control.pmu := by
  split
  · rfl
  · rfl

theorem enableGenericPmc_pmu (control : Control) (count : UInt8) :
    (control.enableGenericPmc count).pmu =
      { control.pmu with genericPmcCount := genericAfter control.pmu count } := by
  rw [enableGenericPmc, genericAfter]
  split
  · rfl
  · simp only [pmu_activate_if]

theorem enableFixedPmc_pmu {control next : Control} {index : UInt8}
    (enabled : control.enableFixedPmc index = some next) :
    next.pmu =
      { control.pmu with fixedPmcSet := control.pmu.fixedPmcSet.withIndices [index] } := by
  rw [enableFixedPmc] at enabled
  obtain ⟨fixedPmcSet, accepted, rfl⟩ := Option.map_eq_some_iff.mp enabled
  simp only [pmu_activate_if] at accepted ⊢
  rw [FixedPmcSet.enable_eq_some accepted]

theorem disableGenericPmc_pmu (control : Control) :
    control.disableGenericPmc.pmu = { control.pmu with genericPmcCount := 0 } := by
  rw [disableGenericPmc]
  split
  · simp only [pmu_activate_if]
  · rename_i zero
    rw [← not_not.mp zero]

theorem FixedPmcSet.eq_new_of_size {set : FixedPmcSet} (empty : set.size = 0) :
    set = FixedPmcSet.new := by
  obtain ⟨first, second, third⟩ := set
  cases first <;> cases second <;> cases third <;> first | rfl | cases empty

theorem disableFixedPmc_pmu (control : Control) :
    control.disableFixedPmc.pmu = { control.pmu with fixedPmcSet := FixedPmcSet.new } := by
  rw [disableFixedPmc]
  split
  · simp only [pmu_activate_if]
  · rename_i zero
    rw [← FixedPmcSet.eq_new_of_size (not_not.mp zero)]

theorem disablePMU_pmu (control : Control) :
    control.disablePMU.pmu =
      { control.pmu with
        genericPmcCount := 0
        fixedPmcSet := FixedPmcSet.new
        activeEventAttrs := if control.pmu.perfEventsEnabled then [] else
          control.pmu.activeEventAttrs
        perfEventsEnabled := false } := by
  have counters : control.disableGenericPmc.disableFixedPmc.pmu =
      { control.pmu with genericPmcCount := 0, fixedPmcSet := FixedPmcSet.new } := by
    rw [disableFixedPmc_pmu, disableGenericPmc_pmu]
  rw [disablePMU]
  cases enabled : control.pmu.perfEventsEnabled with
  | false =>
      rw [if_neg Bool.false_ne_true, counters]
      simp [enabled]
  | true =>
      rw [if_pos rfl, disablePerfEvents]
      simp only [counters, enabled, if_true]

theorem disablePMU_readCount (control : Control) : control.disablePMU.pmu.readCount = 0 := by
  rw [disablePMU_pmu]
  rfl

theorem length_fixedEventAttr (enabled : Bool) (mask : Nat) (type : PerfType) (config : Nat) :
    (fixedEventAttr enabled mask type config).length = enabled.toNat := by
  cases enabled with
  | false => rfl
  | true => rfl

theorem length_firstOf {α : Type} {capacity : Nat} (events : Fin capacity → α) {count : UInt8}
    (fits : count.toNat ≤ capacity) : (firstOf events count).length = count.toNat := by
  rw [firstOf, List.length_take, List.length_ofFn, Nat.min_eq_left fits]

structure Accepted (request : PMUCtlRequest) (eventSet : EventSet) : Prop where
  fixedFew : request.fixedEvtCount.toNat ≤ 3
  gpFew : request.gpEvtCount.toNat ≤ 8
  fixed : FixedPmcSet.new.enableAll ((firstOf request.fixedEvents request.fixedEvtCount).map
    PMUFixedEvent.ctrIndex) = some eventSet.fixedEvtGlobalCtl
  gp : eventSet.gpEvtSel = (firstOf request.gpEvents request.gpEvtCount).map buildPerfEvtSelBitmask

theorem accepted_of_buildEventSet {request : PMUCtlRequest} {eventSet : EventSet}
    (built : buildEventSet request = some eventSet) : Accepted request eventSet := by
  rw [buildEventSet] at built
  split at built
  · cases built
  · rename_i fixedFew
    split at built
    · cases built
    · rename_i gpFew
      split at built
      · cases built
      · obtain ⟨fixed, enabled, rfl⟩ := Option.map_eq_some_iff.mp built
        exact ⟨UInt8.le_iff_toNat_le.mp (UInt8.not_lt.mp fixedFew),
          UInt8.le_iff_toNat_le.mp (UInt8.not_lt.mp gpFew), enabled, rfl⟩

theorem counters_pos {request : PMUCtlRequest} {eventSet : EventSet}
    (accepted : Accepted request eventSet) (events : eventCount request ≠ 0)
    {set next : FixedPmcSet}
    (enabled : set.enableAll ((firstOf request.fixedEvents request.fixedEvtCount).map
      PMUFixedEvent.ctrIndex) = some next) :
    0 < request.gpEvtCount.toNat + next.size := by
  have count := length_firstOf request.fixedEvents accepted.fixedFew
  cases listed : firstOf request.fixedEvents request.fixedEvtCount with
  | nil =>
      rw [listed, List.length_nil] at count
      rw [eventCount] at events
      omega
  | cons event rest =>
      rw [listed, List.map_cons] at enabled
      have positive := FixedPmcSet.size_pos_of_enableAll enabled
      omega

theorem buildPerfEventAttrs_ne_nil {request : PMUCtlRequest} {eventSet : EventSet}
    (accepted : Accepted request eventSet) (events : eventCount request ≠ 0) :
    buildPerfEventAttrs eventSet ≠ [] := by
  intro empty
  have length := congrArg List.length empty
  simp only [buildPerfEventAttrs, List.length_append, List.length_map, length_fixedEventAttr,
    List.length_nil, accepted.gp, length_firstOf request.gpEvents accepted.gpFew] at length
  have positive := counters_pos accepted events accepted.fixed
  rw [FixedPmcSet.size] at positive
  omega

theorem buildPerfEventAttrs_eq_nil {request : PMUCtlRequest} {eventSet : EventSet}
    (accepted : Accepted request eventSet) (events : eventCount request = 0) :
    buildPerfEventAttrs eventSet = [] := by
  rw [eventCount] at events
  have gpCount := length_firstOf request.gpEvents accepted.gpFew
  have fixedCount := length_firstOf request.fixedEvents accepted.fixedFew
  have noGp : firstOf request.gpEvents request.gpEvtCount = [] :=
    List.eq_nil_of_length_eq_zero (by omega)
  have noFixed : firstOf request.fixedEvents request.fixedEvtCount = [] :=
    List.eq_nil_of_length_eq_zero (by omega)
  have gp := accepted.gp
  have fixed := accepted.fixed
  rw [noGp, List.map_nil] at gp
  rw [noFixed, List.map_nil] at fixed
  have unset : FixedPmcSet.new = eventSet.fixedEvtGlobalCtl := Option.some_inj.mp fixed
  rw [buildPerfEventAttrs, gp, ← unset]
  rfl

def PerfEventsGranted (pmu : PmuCtl) (request : PMUCtlRequest) (builds : Bool) : Prop :=
  (buildEventSet request).isSome = true ∧ eventCount request ≠ 0 ∧
    pmu.perfEventsEnabled = false ∧ builds = true

theorem enablePerfEvents_cases (control : Control) (request : PMUCtlRequest) (builds : Bool) :
    (PerfEventsGranted control.pmu request builds ∧ ∃ next,
      control.enablePerfEvents request builds = some (next, true) ∧
        next.recorder = activateRecorder .perfEvents ∧ next.pmu.perfEventsEnabled = true ∧
        next.pmu.genericPmcCount = request.gpEvtCount ∧ 0 < next.pmu.readCount) ∨
      (¬PerfEventsGranted control.pmu request builds ∧ ∃ pmu,
        control.enablePerfEvents request builds = some ({ control with pmu := pmu }, false) ∧
          pmu.genericPmcCount = control.pmu.genericPmcCount ∧
          pmu.fixedPmcSet = control.pmu.fixedPmcSet ∧
          pmu.perfEventsEnabled = control.pmu.perfEventsEnabled) := by
  rw [enablePerfEvents]
  cases built : buildEventSet request with
  | none =>
      refine .inr ⟨?_, control.pmu, rfl, rfl, rfl, rfl⟩
      rintro ⟨some_, -⟩
      rw [built] at some_
      cases some_
  | some eventSet =>
      have accepted := accepted_of_buildEventSet built
      simp only [enableEvents]
      cases enabled : control.pmu.perfEventsEnabled with
      | true =>
          refine .inr ⟨?_, control.pmu, rfl, rfl, rfl, enabled⟩
          rintro ⟨-, -, off, -⟩
          rw [enabled] at off
          cases off
      | false =>
          by_cases events : eventCount request = 0
          · refine .inr ⟨fun granted => granted.2.1 events, control.pmu, ?_, rfl, rfl, enabled⟩
            rw [buildPerfEventAttrs_eq_nil accepted events]
            rfl
          · have attrs : (buildPerfEventAttrs eventSet).isEmpty = false := by
              simpa using buildPerfEventAttrs_ne_nil accepted events
            simp only [Bool.false_eq_true, if_false, attrs]
            cases builds with
            | false =>
                exact .inr ⟨fun granted => Bool.false_ne_true granted.2.2.2, _, rfl, rfl, rfl, rfl⟩
            | true =>
                have indices := (FixedPmcSet.isSome_enableAll _ _).mp
                  (Option.isSome_of_eq_some accepted.fixed)
                obtain ⟨fixedPmcSet, fixed⟩ := Option.isSome_iff_exists.mp
                  ((control.pmu.fixedPmcSet.isSome_enableAll _).mpr indices)
                refine .inl ⟨⟨by rw [built]; rfl, events, enabled, rfl⟩, ?_⟩
                simp only [if_true, fixed, Option.map_some]
                exact ⟨_, rfl, rfl, rfl, rfl, counters_pos accepted events fixed⟩

theorem enablePerfEvents_readCount {control next : Control} {request : PMUCtlRequest}
    {builds : Bool} (enabled : control.enablePerfEvents request builds = some (next, true)) :
    next.pmu.readCount ≤ 11 := by
  rw [enablePerfEvents] at enabled
  split at enabled
  · cases enabled
  · rename_i eventSet built
    split at enabled
    · cases enabled
    · obtain ⟨fixedPmcSet, -, same⟩ := Option.map_eq_some_iff.mp enabled
      cases same
      have generic := (accepted_of_buildEventSet built).gpFew
      have fixed := fixedPmcSet.size_le
      have sum : request.gpEvtCount.toNat + fixedPmcSet.size ≤ 11 := by omega
      exact sum

end Control

end Xpedite.Framework
