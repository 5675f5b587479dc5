import Xpedite.Framework.Handler
import Xpedite.Framework.Probes
import Xpedite.Framework.SessionCore
import Xpedite.Lib.Runs

/-!
What a client leaves behind.  Stopping a profile switches off all that was switched on,
but a client that disconnects has its profile stopped only if it had begun one.
-/

namespace Xpedite.Framework

open Lib

/-- A target as it is before the first session. -/
structure AtRest (state : State) : Prop where
  probes : ∀ probe ∈ state.probes, probe.active = false
  pmcCount : state.control.pmu.pmcCount = 0
  perfEvents : state.control.pmu.perfEventsEnabled = false
  recorder : state.control.recorder.activeRecorderType = .expandable

def Released (control : Control) : Prop :=
  0 < control.pmu.readCount ∨ control.recorder.activeRecorderType = .expandable ∨
    control.recorder.activeRecorderType = .custom

def Patchable (state : State) : Prop := ∀ probe ∈ state.probes, probe.patchable = true

/-- Every probe that is on is matched by a key that the profile knows. -/
def Covered (state : State) : Prop :=
  ∀ probe ∈ state.probes, probe.active = true →
    ∃ key ∈ state.activeProbes, probe.match key = true

instance Covered.decidable (state : State) : Decidable (Covered state) :=
  inferInstanceAs (Decidable (∀ probe ∈ state.probes, probe.active = true →
    ∃ key ∈ state.activeProbes, probe.match key = true))

/-- The recorder follows the counters, a recorder of the client's own apart. -/
def Ruled (control : Control) : Prop :=
  control.pmu.readCount = 0 ∧ control.pmu.perfEventsEnabled = false ∧
      control.recorder.activeRecorderType = .expandable ∨
    0 < control.pmu.readCount ∧ control.recorder.activeRecorderType ≠ .expandable

theorem Ruled.released {control : Control} (ruled : Ruled control) : Released control := by
  rcases ruled with ⟨-, -, expandable⟩ | ⟨counted, -⟩
  · exact .inr (.inl expandable)
  · exact .inl counted

section Recorder

variable (control : Control)

theorem pmcCount_of_generic_zero (pmu : PmuCtl) (zero : pmu.genericPmcCount = 0) :
    pmu.pmcCount = 0 ↔ pmu.fixedPmcSet.size = 0 := by
  have few := pmu.fixedPmcSet.size_le
  rw [PmuCtl.pmcCount, zero, UInt8.zero_add, ← UInt8.toNat_inj, UInt8.toNat_ofNat']
  have small : pmu.fixedPmcSet.size % 2 ^ 8 = pmu.fixedPmcSet.size := Nat.mod_eq_of_lt (by omega)
  rw [small]
  rfl

theorem recorder_activate_if (type : RecorderType) (condition : Prop) [Decidable condition] :
    (if condition then control.activate type else control).recorder =
      if condition then activateRecorder type else control.recorder := by
  split
  · rfl
  · rfl

theorem disableGenericPmc_recorder :
    control.disableGenericPmc.recorder =
      if control.pmu.genericPmcCount ≠ 0 ∧ control.pmu.fixedPmcSet.size = 0
      then activateRecorder .expandable else control.recorder := by
  have zero := pmcCount_of_generic_zero { control.pmu with genericPmcCount := 0 } rfl
  rw [Control.disableGenericPmc]
  by_cases counted : control.pmu.genericPmcCount = 0
  · simp [counted]
  · simp only [ne_eq, counted, not_false_eq_true, if_true, true_and, recorder_activate_if]
    exact if_congr zero rfl rfl

theorem disableFixedPmc_recorder :
    control.disableFixedPmc.recorder =
      if control.pmu.fixedPmcSet.size ≠ 0 ∧ control.pmu.genericPmcCount = 0
      then activateRecorder .expandable else control.recorder := by
  have count : PmuCtl.pmcCount { control.pmu with fixedPmcSet := FixedPmcSet.new } =
      control.pmu.genericPmcCount := UInt8.add_zero _
  rw [Control.disableFixedPmc]
  by_cases counted : control.pmu.fixedPmcSet.size = 0
  · simp [counted]
  · simp only [ne_eq, counted, not_false_eq_true, if_true, true_and, recorder_activate_if]
    rw [count]

theorem disablePMU_recorder :
    control.disablePMU.recorder =
      if control.pmu.readCount ≠ 0 then activateRecorder .expandable else control.recorder := by
  have both : control.disableGenericPmc.disableFixedPmc.recorder =
      if control.pmu.readCount ≠ 0 then activateRecorder .expandable else control.recorder := by
    rw [disableFixedPmc_recorder, Control.disableGenericPmc_pmu, disableGenericPmc_recorder]
    by_cases fixed : control.pmu.fixedPmcSet.size = 0
    · by_cases generic : control.pmu.genericPmcCount = 0
      · have none_ : control.pmu.readCount = 0 := by
          rw [PmuCtl.readCount, generic, fixed]
          rfl
        simp [fixed, generic, none_]
      · have some_ : control.pmu.readCount ≠ 0 := by
          have positive : control.pmu.genericPmcCount.toNat ≠ 0 :=
            fun zero => generic (UInt8.toNat_inj.mp zero)
          rw [PmuCtl.readCount]
          omega
        simp [fixed, generic, some_]
    · have some_ : control.pmu.readCount ≠ 0 := by
        rw [PmuCtl.readCount]
        omega
      simp [fixed, some_]
  rw [← both, Control.disablePMU]
  split
  · rw [Control.disablePerfEvents]
    dsimp only
    split
    · rfl
    · rfl
  · rfl

theorem disablePMU_released (released : Released control) :
    control.disablePMU.recorder.activeRecorderType = .expandable ∨
      control.disablePMU.recorder.activeRecorderType = .custom := by
  rw [disablePMU_recorder]
  by_cases counted : control.pmu.readCount = 0
  · rw [if_neg (not_not.mpr counted)]
    rcases released with positive | idle
    · omega
    · exact idle
  · rw [if_pos counted]
    exact .inl rfl

theorem enableGenericPmc_released (count : UInt8) (released : Released control) :
    Released (control.enableGenericPmc count) := by
  by_cases zero : count = 0
  · rw [Control.enableGenericPmc, if_pos zero]
    exact released
  · have positive : count.toNat ≠ 0 := fun none_ => zero (UInt8.toNat_inj.mp none_)
    left
    rw [Control.enableGenericPmc_pmu, Control.genericAfter, if_neg zero]
    simp only [PmuCtl.readCount]
    omega

end Recorder

theorem enableFixedPmc_released {control next : Control} {index : UInt8}
    (enabled : control.enableFixedPmc index = some next) : Released next := by
  left
  rw [Control.enableFixedPmc] at enabled
  obtain ⟨fixedPmcSet, accepted, rfl⟩ := Option.map_eq_some_iff.mp enabled
  simp only [Control.pmu_activate_if] at accepted ⊢
  have all : control.pmu.fixedPmcSet.enableAll [index] = some fixedPmcSet := by
    rw [FixedPmcSet.enableAll, List.foldlM_cons, accepted]
    rfl
  have positive := FixedPmcSet.size_pos_of_enableAll all
  simp only [PmuCtl.readCount]
  omega

theorem enablePerfEvents_released {control next : Control} {request : PMUCtlRequest}
    {builds enables : Bool} (released : Released control)
    (enabled : control.enablePerfEvents request builds = some (next, enables)) :
    Released next := by
  rcases control.enablePerfEvents_cases request builds with
    ⟨-, granted, result, -, -, -, positive⟩ | ⟨-, pmu, result, generic, fixed, -⟩
  · cases result.symm.trans enabled
    exact .inl positive
  · cases result.symm.trans enabled
    have count : pmu.readCount = control.pmu.readCount := by
      rw [PmuCtl.readCount, PmuCtl.readCount, generic, fixed]
    rw [Released, count]
    exact released

def Probe.site (probe : Probe) : Probe := { probe with active := false }

theorem Command.site_apply (command : Command) (probe : Probe) :
    (command.apply probe).site = probe.site := by
  cases command with
  | enable =>
      rw [Command.apply, Probe.activate]
      split
      · rfl
      · rfl
  | disable =>
      rw [Command.apply, Probe.deactivate]
      split
      · rfl
      · rfl

theorem Patchable.of_sites {state next : State} (patchable : Patchable state)
    (sites : next.probes.map Probe.site = state.probes.map Probe.site) : Patchable next := by
  intro probe listed
  have site : probe.site ∈ state.probes.map Probe.site := by
    rw [← sites]
    exact List.mem_map_of_mem listed
  obtain ⟨first, known, same⟩ := List.mem_map.mp site
  exact (congrArg Probe.patchable same).symm.trans (patchable first known)

section Stop

variable {state : State} (patchable : Patchable state)

theorem deactivate_active {probe : Probe} (patchable : probe.patchable = true) :
    probe.deactivate.active = false := by
  rw [Probe.deactivate, if_pos patchable]

theorem activate_active {probe : Probe} (patchable : probe.patchable = true) :
    probe.activate.active = true := by
  rw [Probe.activate, if_pos patchable]

theorem stop_probes (state : State) :
    (Profile.stop state).probes = state.probes.map fun probe =>
      if state.activeProbes.any probe.match then probe.deactivate else probe :=
  foldl_probeCtl .disable state.activeProbes state.probes

include patchable in
/-- Stopping a profile finds the probes that are covered, and no others. -/
theorem stop_inactive_iff :
    (∀ probe ∈ (Profile.stop state).probes, probe.active = false) ↔ Covered state := by
  rw [stop_probes, List.forall_mem_map]
  refine forall₂_congr fun probe listed => ?_
  rw [← List.any_eq_true]
  by_cases known : state.activeProbes.any probe.match = true
  · rw [if_pos known]
    exact iff_of_true (deactivate_active (patchable probe listed)) (fun _ => known)
  · rw [if_neg known, ← Bool.not_eq_true]
    exact ⟨fun off on => absurd on off, fun covered on => known (covered on)⟩

theorem stop_expandable (released : Released state.control) :
    (Profile.stop state).control.recorder.activeRecorderType = .expandable := by
  rw [Profile.stop]
  rcases disablePMU_released state.control released with expandable | custom
  · simp [expandable]
  · simp only [custom, if_true]
    rfl

include patchable in
theorem stop_atRest_iff (released : Released state.control) :
    AtRest (Profile.stop state) ↔ Covered state := by
  rw [← stop_inactive_iff patchable]
  constructor
  · exact AtRest.probes
  · intro inactive
    refine ⟨inactive, ?_, ?_, stop_expandable released⟩
    · rw [stop_pmu, Control.disablePMU_pmu]
      rfl
    · rw [stop_pmu, Control.disablePMU_pmu]

end Stop

section Counters

variable {control next : Control}

end Counters

section Requests

/-- What a frame can ask for: a recorder is given by the process itself only. -/
def Request.FromClient : Request → Prop
  | .profileActivation _ _ _ recorder dataProbeRecorder =>
      recorder = none ∧ dataProbeRecorder = none
  | _ => True

def commanded (state : State) (step : Environment × Request) (probe : Probe) : Probe :=
  match step.2 with
  | .probeActivation keys =>
      if (step.1.pointed keys).any fun entry => probe.match entry.2 then probe.activate else probe
  | .probeDeactivation keys =>
      if (step.1.pointed keys).any fun entry => probe.match entry.2 then probe.deactivate else probe
  | .profileDeactivation =>
      if state.activeProbes.any probe.match then probe.deactivate else probe
  | _ => probe

variable {state next : State} {step : Environment × Request}

end Requests

section Disconnect

theorem resetClient_state (environment : Environment) (state : State) :
    (resetClient environment state).state =
      if Handler.isProfileActive state then (Handler.endProfile environment state).state
      else some state := by
  rw [resetClient]
  split
  · split
    · rename_i ended
      rw [ended]
      rfl
    · rename_i thrown
      rw [thrown]
      rfl
    · rename_i terminated
      rw [terminated]
      rfl
  · rfl

variable {probes : List Probe} {steps : List (Environment × Request)} {state : State}

end Disconnect

def orderProbe : Probe := ⟨"Order".toList, "order.cpp".toList, 7, true, false⟩

end Xpedite.Framework
