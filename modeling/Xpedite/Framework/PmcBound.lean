import Xpedite.Framework.Handler
import Xpedite.Framework.Probes
import Xpedite.Lib.Runs
import Xpedite.Samples.CollectorCore
import Xpedite.Samples.SampleStream

/-!
How large the samples with counters get.  A count of general purpose counters that comes
with `ActivatePerfEvents` is checked by `buildEventSet`; one that comes with `ActivatePmu`
is taken as it is.
-/

namespace Xpedite.Framework

open Lib Samples

section Recorders

variable (pmu : PmuCtl) (rdpmc : Nat → UInt64) (memory : Memory) (this : Nat)
variable (returnSite tsc : UInt64)

def xpediteRecordPmc : Memory :=
  readPmc
    ((construct memory this returnSite (tsc ||| flagPmc)).store64 (this + 16)
      pmu.pmcCount.toUInt64)
    (this + 24) (pmu.pmcValues rdpmc)

def xpediteRecordPmcWithData (data : BitVec 128) : Memory :=
  readPmc
    ((constructWithData memory this returnSite (tsc ||| flagPmc) data).store64 (this + 32)
      pmu.pmcCount.toUInt64)
    (this + 40) (pmu.pmcValues rdpmc)

def recordPmc : Option (BitVec 128) → Memory
  | none => xpediteRecordPmc pmu rdpmc memory this returnSite tsc
  | some data => xpediteRecordPmcWithData pmu rdpmc memory this returnSite tsc data

end Recorders

def maxSize : Nat := 16 + 8 * 14

def occupied (pmu : PmuCtl) (rdpmc : Nat → UInt64) (data : Option (BitVec 128)) : Nat :=
  16 + 16 * data.isSome.toNat + 8 + 8 * (pmu.pmcValues rdpmc).length

/-- What the samples buffers take for granted of the samples with counters. -/
structure SamplesFit (pmu : PmuCtl) : Prop where
  pmcCount : pmu.pmcCount.toNat ≤ 11
  stored : ∀ rdpmc memory this returnSite (tsc : Tsc) data,
    Samples.pmcCount (recordPmc pmu rdpmc memory this returnSite tsc.val data) this =
      (pmu.pmcValues rdpmc).length
  size : ∀ rdpmc memory this returnSite (tsc : Tsc) data,
    Samples.size (recordPmc pmu rdpmc memory this returnSite tsc.val data) this =
      occupied pmu rdpmc data
  bounded : ∀ rdpmc data, occupied pmu rdpmc data ≤ maxSize
  -- a sample that starts before the guard area ends in the buffer of `bufferSize` samples
  guarded : ∀ rdpmc data first this, this < Collector.guardedEnd first →
    this + occupied pmu rdpmc data ≤ first + 4 * 1024 * 16

theorem length_pmcValues (pmu : PmuCtl) (rdpmc : Nat → UInt64) :
    (pmu.pmcValues rdpmc).length = pmu.readCount := by
  have single : ∀ (enabled : Bool) (value : UInt64),
      (if enabled then [value] else []).length = enabled.toNat := by
    intro enabled value
    cases enabled with
    | false => rfl
    | true => rfl
  simp only [PmuCtl.pmcValues, List.length_append, List.length_map, List.length_range, single,
    PmuCtl.readCount, FixedPmcSet.size]
  omega

theorem toNat_pmcCount (pmu : PmuCtl) : pmu.pmcCount.toNat = pmu.readCount % 256 := by
  rw [PmuCtl.pmcCount, PmuCtl.readCount, UInt8.toNat_add, UInt8.toNat_ofNat']
  omega

section Fitting

variable {pmu : PmuCtl} (few : pmu.readCount ≤ 11) (rdpmc : Nat → UInt64)

include few

theorem toUInt64_pmcCount :
    pmu.pmcCount.toUInt64 = UInt64.ofNat (pmu.pmcValues rdpmc).length := by
  apply UInt64.toNat_inj.mp
  rw [UInt8.toNat_toUInt64, toNat_pmcCount, UInt64.toNat_ofNat', length_pmcValues]
  omega

theorem recordPmc_eq_place (memory : Memory) (this : Nat) (returnSite : UInt64) (tsc : Tsc)
    (data : Option (BitVec 128)) :
    ∃ sample : Sample, sample.data = data ∧ (∃ values : Counters, sample.pmc = some values ∧
      values.val = pmu.pmcValues rdpmc) ∧
      recordPmc pmu rdpmc memory this returnSite tsc.val data = sample.place memory this := by
  have short : (pmu.pmcValues rdpmc).length ≤ 11 := by
    rw [length_pmcValues]
    exact few
  refine ⟨⟨returnSite, tsc, data, some ⟨pmu.pmcValues rdpmc, short⟩⟩, rfl, ⟨_, rfl, rfl⟩, ?_⟩
  have count := toUInt64_pmcCount few rdpmc
  cases data with
  | none => rw [recordPmc, xpediteRecordPmc, count]; rfl
  | some data => rw [recordPmc, xpediteRecordPmcWithData, count]; rfl

theorem occupied_le (data : Option (BitVec 128)) : occupied pmu rdpmc data ≤ maxSize := by
  have flag := data.isSome.toNat_le
  rw [occupied, maxSize, length_pmcValues]
  omega

theorem samplesFit_of_few : SamplesFit pmu where
  pmcCount := by
    rw [toNat_pmcCount]
    omega
  stored := by
    intro rdpmc memory this returnSite tsc data
    obtain ⟨sample, -, ⟨values, stored, same⟩, placed⟩ :=
      recordPmc_eq_place few rdpmc memory this returnSite tsc data
    rw [placed, sample.place_eq_write]
    have stands := stands_of_holds (memory.holds_write this sample.bytes)
    rw [stands.pmcCount_eq stored, same]
  size := by
    intro rdpmc memory this returnSite tsc data
    obtain ⟨sample, rfl, ⟨values, stored, same⟩, placed⟩ :=
      recordPmc_eq_place few rdpmc memory this returnSite tsc data
    rw [placed, sample.place_eq_write]
    have stands := stands_of_holds (memory.holds_write this sample.bytes)
    rw [Samples.size, stands.pmcCount_eq stored, stands.hasData_eq, stands.hasPmc_eq, stored, same,
      occupied, Option.isSome_some, Bool.toNat_true]
    omega
  bounded := fun rdpmc data => occupied_le few rdpmc data
  guarded := by
    intro rdpmc data first this before
    have bound := occupied_le few rdpmc data
    rw [Collector.guardedEnd] at before
    rw [maxSize] at bound
    omega

end Fitting

theorem samplesFit_iff (pmu : PmuCtl) : SamplesFit pmu ↔ pmu.readCount ≤ 11 := by
  constructor
  · intro fit
    have bound := fit.bounded (fun _ => 0) (some 0)
    rw [occupied, maxSize, length_pmcValues, Option.isSome_some, Bool.toNat_true] at bound
    omega
  · exact samplesFit_of_few

/-- Only requests that the target answers with success are followed. -/
def answer (state : State) (step : Environment × Request) : Option State :=
  match execute step.1 state step.2 with
  | .returns next response => if response.success then some next else none
  | .throws _ => none
  | .terminates => none

theorem answer_eq_some {state next : State} {step : Environment × Request}
    (answered : answer state step = some next) :
    ∃ response, execute step.1 state step.2 = .returns next response ∧ response.success := by
  rw [answer] at answered
  split at answered
  · rename_i reached response result
    split at answered
    · rename_i success
      cases answered
      exact ⟨response, result, success⟩
    · cases answered
  · cases answered
  · cases answered

/--
The count of general purpose counters of an `ActivatePmu` request, as the byte it is stored
in, and the fixed counters it lists leave room for each other.
-/
def Admissible (state : State) (step : Environment × Request) : Prop :=
  match step.2 with
  | .pmuActivation gpEventsCount fixedEventIndices =>
      (Control.genericAfter state.control.pmu (UInt8.ofInt gpEventsCount)).toNat +
        (state.control.pmu.fixedPmcSet.withIndices (fixedEventIndices.map UInt8.ofInt)).size ≤ 11
  | _ => True

theorem enableFixedPMU_pmu {indices : List Int} {state next : State}
    (enabled : indices.foldlM Handler.enableFixedPMU state = some next) :
    next.control.pmu = { state.control.pmu with
      fixedPmcSet := state.control.pmu.fixedPmcSet.withIndices (indices.map UInt8.ofInt) } := by
  induction indices generalizing state with
  | nil =>
      cases enabled
      simp [FixedPmcSet.withIndices]
  | cons index indices ih =>
      rw [List.foldlM_cons] at enabled
      obtain ⟨middle, first, rest⟩ := Option.bind_eq_some_iff.mp enabled
      obtain ⟨control, accepted, rfl⟩ := Option.map_eq_some_iff.mp first
      have pmu := Control.enableFixedPmc_pmu accepted
      rw [ih rest, List.map_cons]
      simp only [pmu, FixedPmcSet.withIndices_cons]

theorem pmuActivation_readCount {environment : Environment} {state next : State} {response : Response}
    {gpEventsCount : Int} {fixedEventIndices : List Int}
    (executed : execute environment state (.pmuActivation gpEventsCount fixedEventIndices) =
      .returns next response) :
    next.control.pmu.readCount =
      (Control.genericAfter state.control.pmu (UInt8.ofInt gpEventsCount)).toNat +
        (state.control.pmu.fixedPmcSet.withIndices (fixedEventIndices.map UInt8.ofInt)).size := by
  rw [execute] at executed
  split at executed
  · cases executed
  · rename_i reached enabled
    cases executed
    rw [enableFixedPMU_pmu enabled, Handler.enableGpPMU, PmuCtl.readCount]
    simp only [Control.enableGenericPmc_pmu]

theorem readCount_answer {state next : State} {step : Environment × Request}
    (few : state.control.pmu.readCount ≤ 11) (answered : answer state step = some next) :
    next.control.pmu.readCount ≤ 11 ↔ Admissible state step := by
  obtain ⟨environment, request⟩ := step
  obtain ⟨response, executed, success⟩ := answer_eq_some answered
  cases request with
  | ping =>
      cases executed
      exact iff_of_true few trivial
  | tsc =>
      cases executed
      exact iff_of_true few trivial
  | probeList =>
      cases executed
      exact iff_of_true few trivial
  | probeActivation keys =>
      cases executed
      rw [activateProbes_control]
      exact iff_of_true few trivial
  | probeDeactivation keys =>
      cases executed
      rw [deactivateProbes_control]
      exact iff_of_true few trivial
  | pmuActivation gpEventsCount fixedEventIndices =>
      rw [pmuActivation_readCount executed]
      exact Iff.rfl
  | perfEventsActivation request =>
      simp only [execute] at executed
      split at executed
      · cases executed
      · rename_i control enabled
        cases executed
        exact iff_of_true (Control.enablePerfEvents_readCount enabled) trivial
      · cases executed
        cases success
  | pmuDeactivation =>
      cases executed
      exact iff_of_true (Nat.le_trans (Nat.le_of_eq (Control.disablePMU_readCount _))
        (Nat.zero_le 11)) trivial
  | profileActivation samplesFilePattern pollInterval samplesDataCapacity recorder
      dataProbeRecorder =>
      have state_ := congrArg Outcome.state executed
      rw [(profileActivation_state state_).2.2.1]
      exact iff_of_true few trivial
  | profileDeactivation =>
      have state_ := (respond_state _).symm.trans (congrArg Outcome.state executed)
      rw [(endProfile_state state_).2.2, stop_pmu, Control.disablePMU_readCount]
      exact iff_of_true (Nat.zero_le 11) trivial
  | invalid errors =>
      cases executed
      cases success

/--
The samples with counters fit in every state of a run of answered requests exactly when no
`ActivatePmu` request of it asks for more counters than there is room for.
-/
theorem samplesFit_throughout_iff {probes : List Probe} {steps : List (Environment × Request)}
    {final : State} (answered : run answer (State.new probes) steps = some final) :
    (∀ earlier later state, steps = earlier ++ later →
        run answer (State.new probes) earlier = some state → SamplesFit state.control.pmu) ↔
      Along answer Admissible (State.new probes) steps := by
  refine throughout_iff_along ?_ (samplesFit_of_few (Nat.zero_le 11)) answered
  intro state step next fit taken
  rw [samplesFit_iff]
  exact readCount_answer ((samplesFit_iff _).mp fit) taken

def allCounters : List (Environment × Request) := [(willing, .pmuActivation 8 [0, 1, 2])]

theorem samplesFit_throughout_allCounters :
    (∃ final, run answer (State.new []) allCounters = some final) ∧
      ∀ earlier later state, allCounters = earlier ++ later →
        run answer (State.new []) earlier = some state → SamplesFit state.control.pmu := by
  have admissible : Admissible (State.new []) (willing, .pmuActivation 8 [0, 1, 2]) := by
    rw [Admissible]
    decide
  refine ⟨⟨_, rfl⟩, ?_⟩
  exact (@samplesFit_throughout_iff [] allCounters _ rfl).mpr ⟨admissible, fun _ _ => trivial⟩

/-- `ActivatePmu --gpCtrCount 12` is answered with success. -/
theorem samplesFit_fails_at_twelve_counters :
    ∃ final, run answer (State.new []) [(willing, .pmuActivation 12 [])] = some final ∧
      final.control.pmu.pmcCount = 12 ∧ ¬SamplesFit final.control.pmu := by
  refine ⟨_, rfl, rfl, ?_⟩
  intro fit
  have bound := fit.pmcCount
  exact absurd bound (by decide)

end Xpedite.Framework
