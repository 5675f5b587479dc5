import Xpedite.Framework.Pmu

/-!
What beginning and ending a profile do to the rest of the target, however they come out.
-/

namespace Xpedite.Framework

def Outcome.state {α : Type} : Outcome α → Option State
  | .returns state _ => some state
  | .throws state => some state
  -- there is no process left
  | .terminates => none

theorem respond_state (outcome : Outcome String) : (respond outcome).state = outcome.state := by
  cases outcome with
  | returns state errors => rfl
  | throws state => rfl
  | terminates => rfl

theorem beginProfile_state {environment : Environment} {state next : State}
    {samplesFilePattern : List Char} {pollInterval : UInt32} {samplesDataCapacity : UInt64}
    (begun : (Handler.beginProfile environment state samplesFilePattern pollInterval
      samplesDataCapacity).state = some next) :
    next.probes = state.probes ∧ next.activeProbes = state.activeProbes ∧
      next.control = state.control := by
  rw [Handler.beginProfile] at begun
  split at begun
  · cases begun; exact ⟨rfl, rfl, rfl⟩
  · split at begun
    · cases begun; exact ⟨rfl, rfl, rfl⟩
    · split at begun
      · cases begun; exact ⟨rfl, rfl, rfl⟩
      · split at begun
        · cases begun; exact ⟨rfl, rfl, rfl⟩
        · split at begun
          · cases begun; exact ⟨rfl, rfl, rfl⟩
          · cases begun; exact ⟨rfl, rfl, rfl⟩

theorem profileActivation_state {environment : Environment} {state next : State}
    {samplesFilePattern : List Char} {pollInterval : UInt32} {samplesDataCapacity : UInt64}
    {recorder dataProbeRecorder : Option Nat}
    (executed : (executeProfileActivation environment state samplesFilePattern pollInterval
      samplesDataCapacity recorder dataProbeRecorder).state = some next) :
    next.probes = state.probes ∧ next.activeProbes = state.activeProbes ∧
      next.control.pmu = state.control.pmu ∧
      (next.control.recorder = state.control.recorder ∨
        next.control.recorder.activeRecorderType = .custom) := by
  rw [executeProfileActivation] at executed
  split at executed
  · split at executed
    · cases executed
      exact ⟨rfl, rfl, rfl, .inl rfl⟩
    · rename_i custom activated
      rw [respond_state] at executed
      obtain ⟨probes, activeProbes, control⟩ := beginProfile_state executed
      refine ⟨probes, activeProbes, by rw [control], .inr ?_⟩
      rw [control]
      unfold activateCustomRecorder at activated
      split at activated
      · cases activated
        rfl
      · cases activated
  · rw [respond_state] at executed
    obtain ⟨probes, activeProbes, control⟩ := beginProfile_state executed
    exact ⟨probes, activeProbes, by rw [control], .inl (by rw [control])⟩

theorem stop_pmu (state : State) :
    (Profile.stop state).control.pmu = state.control.disablePMU.pmu := by
  rw [Profile.stop]
  split
  · rfl
  · rfl

theorem endProfile_state {environment : Environment} {state next : State}
    (ended : (Handler.endProfile environment state).state = some next) :
    next.probes = (Profile.stop state).probes ∧
      next.activeProbes = (Profile.stop state).activeProbes ∧
      next.control = (Profile.stop state).control := by
  rw [Handler.endProfile] at ended
  split at ended
  · cases ended
    exact ⟨rfl, rfl, rfl⟩
  · split at ended
    · cases ended
      exact ⟨rfl, rfl, rfl⟩
    · cases ended
      exact ⟨rfl, rfl, rfl⟩

end Xpedite.Framework
