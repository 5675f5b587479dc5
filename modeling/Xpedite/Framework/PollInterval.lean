import Xpedite.Framework.Disconnect
import Xpedite.Framework.Parser

/-!
The poll interval from one request to the next.  `beginProfile` checks the interval it has
stored before and stores the one it is given, so that an interval of zero is found out when
the next profile begins.
-/

namespace Xpedite.Framework

open Lib

namespace Handler

def pollInterval (state : State) : UInt32 := state.pollInterval

def invalidPollInterval : String :=
  "xpedite failed to begin profile - poll interval must be a valid number of milli seconds"

end Handler

inductive LocalCall where
  | enablePerfEvents
  | activateProbes
  | activateProfile
  | endProfile

def LocalCall.request (process : Process) (info : ProfileInfo) : LocalCall → Request
  | .enablePerfEvents => .perfEventsActivation info.pmuRequest
  | .activateProbes => .probeActivation info.probes
  | .activateProfile =>
      .profileActivation (StorageMgr.buildSamplesFileTemplate process) 1 info.samplesDataCapacity
        info.recorder info.dataProbeRecorder
  | .endProfile => .profileDeactivation

inductive SessionCall where
  | remote (frame : List UInt8)
  | «local» (process : Process) (info : ProfileInfo) (call : LocalCall)
  -- a client goes away
  | reset

/-- An exception leaves the state where it was thrown, and a terminated process has none. -/
def serveCall (state : State) (step : Environment × SessionCall) : Option State :=
  match step.2 with
  | .remote frame => (executeFrame step.1 state frame).state
  | .local process info call =>
      (executeLocal step.1 process state (call.request process info)).state
  | .reset => (resetClient step.1 state).state

structure ValidInterval (state : State) : Prop where
  positive : 0 < Handler.pollInterval state
  accepted : ∀ environment samplesFilePattern pollInterval samplesDataCapacity next,
    Handler.isProfileActive state = false → samplesFilePattern ≠ [] → 0 < pollInterval →
    Handler.beginProfile environment state samplesFilePattern pollInterval samplesDataCapacity ≠
      .returns next Handler.invalidPollInterval

theorem validInterval_iff (state : State) : ValidInterval state ↔ state.pollInterval ≠ 0 := by
  constructor
  · intro valid zero
    have positive := valid.positive
    rw [Handler.pollInterval, zero] at positive
    exact absurd positive (by decide)
  · intro nonzero
    refine ⟨UInt32.pos_iff_ne_zero.mpr nonzero, ?_⟩
    intro environment samplesFilePattern pollInterval samplesDataCapacity next inactive given _ begun
    rw [Handler.beginProfile, inactive, if_neg Bool.false_ne_true,
      if_neg (fun empty => given (List.isEmpty_iff.mp empty)), if_neg nonzero] at begun
    dsimp only at begun
    split at begun
    · cases begun
    · split at begun
      · have other := (Outcome.returns.inj begun).2
        exact absurd other (by decide)
      · have other := (Outcome.returns.inj begun).2
        exact absurd other (by decide)

def StoresInterval (state : State) (samplesFilePattern : List Char) : Prop :=
  Handler.isProfileActive state = false ∧ samplesFilePattern ≠ [] ∧ state.pollInterval ≠ 0

theorem beginProfile_pollInterval {environment : Environment} {state next : State}
    {samplesFilePattern : List Char} {pollInterval : UInt32} {samplesDataCapacity : UInt64}
    (begun : (Handler.beginProfile environment state samplesFilePattern pollInterval
      samplesDataCapacity).state = some next) :
    (StoresInterval state samplesFilePattern → next.pollInterval = pollInterval) ∧
      (¬StoresInterval state samplesFilePattern → next.pollInterval = state.pollInterval) := by
  rw [Handler.beginProfile] at begun
  split at begun
  · rename_i active
    cases begun
    refine ⟨?_, fun _ => rfl⟩
    rintro ⟨inactive, -⟩
    rw [inactive] at active
    cases active
  · split at begun
    · rename_i empty
      cases begun
      exact ⟨fun stores => absurd (List.isEmpty_iff.mp empty) stores.2.1, fun _ => rfl⟩
    · split at begun
      · rename_i zero
        cases begun
        exact ⟨fun stores => absurd zero stores.2.2, fun _ => rfl⟩
      · rename_i inactive given nonzero
        have stores : StoresInterval state samplesFilePattern :=
          ⟨Bool.eq_false_of_not_eq_true inactive, fun empty => given (List.isEmpty_iff.mpr empty),
            nonzero⟩
        refine ⟨fun _ => ?_, fun refused => absurd stores refused⟩
        dsimp only at begun
        split at begun
        · cases begun
          rfl
        · split at begun
          · cases begun
            rfl
          · cases begun
            rfl

theorem endProfile_pollInterval {environment : Environment} {state next : State}
    (ended : (Handler.endProfile environment state).state = some next) :
    next.pollInterval = state.pollInterval := by
  rw [Handler.endProfile] at ended
  split at ended
  · cases ended
    rfl
  · split at ended
    · cases ended
      rfl
    · cases ended
      rfl

theorem enableFixedPMU_pollInterval {indices : List Int} {state next : State}
    (enabled : indices.foldlM Handler.enableFixedPMU state = some next) :
    next.pollInterval = state.pollInterval := by
  induction indices generalizing state with
  | nil =>
      cases enabled
      rfl
  | cons index indices ih =>
      rw [List.foldlM_cons] at enabled
      obtain ⟨middle, first, rest⟩ := Option.bind_eq_some_iff.mp enabled
      obtain ⟨control, -, rfl⟩ := Option.map_eq_some_iff.mp first
      have kept := ih rest
      exact kept

def BringsZero (state : State) : Request → Prop
  | .profileActivation samplesFilePattern pollInterval _ recorder dataProbeRecorder =>
      Handler.isProfileActive state = false ∧ samplesFilePattern ≠ [] ∧
        recorder.isSome = dataProbeRecorder.isSome ∧ pollInterval = 0
  | _ => False

theorem profileActivation_pollInterval {environment : Environment} {state next : State}
    {samplesFilePattern : List Char} {pollInterval : UInt32} {samplesDataCapacity : UInt64}
    {recorder dataProbeRecorder : Option Nat} (nonzero : state.pollInterval ≠ 0)
    (executed : (executeProfileActivation environment state samplesFilePattern pollInterval
      samplesDataCapacity recorder dataProbeRecorder).state = some next) :
    next.pollInterval ≠ 0 ↔ ¬BringsZero state (.profileActivation samplesFilePattern pollInterval
      samplesDataCapacity recorder dataProbeRecorder) := by
  have begun : ∀ {before : State}, Handler.isProfileActive before = Handler.isProfileActive state →
      before.pollInterval = state.pollInterval →
      recorder.isSome = dataProbeRecorder.isSome →
      (Handler.beginProfile environment before samplesFilePattern pollInterval
        samplesDataCapacity).state = some next →
      (next.pollInterval ≠ 0 ↔ ¬BringsZero state (.profileActivation samplesFilePattern pollInterval
        samplesDataCapacity recorder dataProbeRecorder)) := by
    intro before active interval both begun
    obtain ⟨stored, kept⟩ := beginProfile_pollInterval begun
    by_cases stores : StoresInterval before samplesFilePattern
    · have inactive := active.symm.trans stores.1
      rw [stored stores, BringsZero, not_iff_not]
      exact ⟨fun zero => ⟨inactive, stores.2.1, both, zero⟩, fun brings => brings.2.2.2⟩
    · rw [kept stores, interval]
      refine iff_of_true nonzero fun brings => stores ⟨active.trans brings.1, brings.2.1, ?_⟩
      rw [interval]
      exact nonzero
  rw [executeProfileActivation] at executed
  cases recorder with
  | none =>
      cases dataProbeRecorder with
      | none =>
          exact begun rfl rfl rfl ((respond_state _).symm.trans executed)
      | some dataProbeRecorder =>
          cases executed
          exact iff_of_true nonzero fun brings => Bool.false_ne_true brings.2.2.1
  | some recorder =>
      cases dataProbeRecorder with
      | none =>
          cases executed
          exact iff_of_true nonzero fun brings => Bool.false_ne_true brings.2.2.1.symm
      | some dataProbeRecorder =>
          refine begun ?_ ?_ rfl ((respond_state _).symm.trans executed)
          · rfl
          · rfl

theorem execute_pollInterval {environment : Environment} {state next : State} {request : Request}
    (nonzero : state.pollInterval ≠ 0)
    (executed : (execute environment state request).state = some next) :
    next.pollInterval ≠ 0 ↔ ¬BringsZero state request := by
  cases request with
  | ping =>
      cases executed
      exact iff_of_true nonzero not_false
  | tsc =>
      cases executed
      exact iff_of_true nonzero not_false
  | probeList =>
      cases executed
      exact iff_of_true nonzero not_false
  | probeActivation keys =>
      cases executed
      rw [activateProbes_pollInterval]
      exact iff_of_true nonzero not_false
  | probeDeactivation keys =>
      cases executed
      rw [deactivateProbes_pollInterval]
      exact iff_of_true nonzero not_false
  | pmuActivation gpEventsCount fixedEventIndices =>
      simp only [execute] at executed
      split at executed
      · cases executed
      · rename_i reached enabled
        cases executed
        rw [enableFixedPMU_pollInterval enabled]
        exact iff_of_true nonzero not_false
  | perfEventsActivation request =>
      simp only [execute] at executed
      split at executed
      · cases executed
        exact iff_of_true nonzero not_false
      · cases executed
        exact iff_of_true nonzero not_false
      · cases executed
        exact iff_of_true nonzero not_false
  | pmuDeactivation =>
      cases executed
      exact iff_of_true nonzero not_false
  | profileActivation samplesFilePattern pollInterval samplesDataCapacity recorder
      dataProbeRecorder =>
      exact profileActivation_pollInterval nonzero executed
  | profileDeactivation =>
      rw [endProfile_pollInterval ((respond_state _).symm.trans executed)]
      exact iff_of_true nonzero not_false
  | invalid errors =>
      cases executed
      exact iff_of_true nonzero not_false

/--
No client begins a profile with a poll interval of zero, which is also the one of a request
that names none, when there is no profile yet and a samples file pattern is given.
-/
def AsksForInterval (state : State) (step : Environment × SessionCall) : Prop :=
  match step.2 with
  | .remote frame =>
      ∀ request, RequestParser.parse frame = some request → ¬BringsZero state request
  | _ => True

theorem local_brings_no_zero (state : State) (process : Process) (info : ProfileInfo)
    (call : LocalCall) : ¬BringsZero state (call.request process info) := by
  cases call with
  | enablePerfEvents => exact not_false
  | activateProbes => exact not_false
  | activateProfile =>
      rintro ⟨-, -, -, zero⟩
      exact absurd zero (by decide)
  | endProfile => exact not_false

theorem serveCall_pollInterval {state next : State} {step : Environment × SessionCall}
    (nonzero : state.pollInterval ≠ 0) (served : serveCall state step = some next) :
    next.pollInterval ≠ 0 ↔ AsksForInterval state step := by
  obtain ⟨environment, call⟩ := step
  cases call with
  | remote frame =>
      change (executeFrame environment state frame).state = some next at served
      rw [executeFrame] at served
      rw [AsksForInterval]
      cases accepted : parseFrame environment frame with
      | none =>
          rw [accepted] at served
          cases served
      | some request =>
          have parsed := parse_of_parseFrame accepted
          rw [accepted] at served
          rw [execute_pollInterval nonzero served]
          constructor
          · intro brings other same
            cases parsed.symm.trans same
            exact brings
          · intro all
            exact all request parsed
  | «local» process info call =>
      change (executeLocal environment process state (call.request process info)).state =
        some next at served
      rw [executeLocal] at served
      refine iff_of_true ?_ trivial
      split at served
      · exact (execute_pollInterval nonzero served).mpr
          (local_brings_no_zero state process info call)
      · cases served
        exact nonzero
  | reset =>
      change (resetClient environment state).state = some next at served
      rw [resetClient_state] at served
      refine iff_of_true ?_ trivial
      split at served
      · rw [endProfile_pollInterval served]
        exact nonzero
      · cases served
        exact nonzero

/--
The interval is valid in every state of a run exactly when no client brings a zero to a
target that would store it.
-/
theorem validInterval_throughout_iff {probes : List Probe}
    {steps : List (Environment × SessionCall)} {final : State}
    (served : run serveCall (State.new probes) steps = some final) :
    (∀ earlier later state, steps = earlier ++ later →
        run serveCall (State.new probes) earlier = some state → ValidInterval state) ↔
      Along serveCall AsksForInterval (State.new probes) steps := by
  have ten : (State.new probes).pollInterval = 10 := rfl
  have start : ValidInterval (State.new probes) := by
    rw [validInterval_iff, ten]
    decide
  refine throughout_iff_along ?_ start served
  intro state step next valid taken
  rw [validInterval_iff]
  exact serveCall_pollInterval ((validInterval_iff state).mp valid) taken

def beginEveryFive : SessionCall :=
  .remote (frameOf "BeginProfile --samplesFilePattern order --pollInterval 5")

def endRemote : SessionCall := .remote (frameOf "EndProfile")

theorem validInterval_throughout_everyFive :
    (∃ final, run serveCall (State.new []) [(willing, beginEveryFive), (willing, endRemote)] =
        some final) ∧
      ∀ earlier later state, [(willing, beginEveryFive), (willing, endRemote)] = earlier ++ later →
        run serveCall (State.new []) earlier = some state → ValidInterval state := by
  have first : AsksForInterval (State.new []) (willing, beginEveryFive) := by
    intro request parsed
    cases parsed
    rintro ⟨-, -, -, zero⟩
    exact absurd zero (by decide)
  have second : ∀ state, AsksForInterval state (willing, endRemote) := by
    intro state request parsed
    cases parsed
    exact not_false
  refine ⟨⟨_, rfl⟩, ?_⟩
  exact (@validInterval_throughout_iff [] [(willing, beginEveryFive), (willing, endRemote)] _
    rfl).mpr ⟨first, fun state _ => ⟨second state, fun _ _ => trivial⟩⟩

/-- After a profile without `--pollInterval` no other one can be begun. -/
theorem beginProfile_rejected_after_missing_interval :
    ∃ final, run serveCall (State.new [])
        [(willing, .remote (frameOf "BeginProfile --samplesFilePattern order")),
          (willing, endRemote)] = some final ∧
      Handler.pollInterval final = 0 ∧ Handler.isProfileActive final = false ∧
      Handler.beginProfile willing final "order".toList 5 0 =
        .returns final Handler.invalidPollInterval ∧ ¬ValidInterval final := by
  refine ⟨_, rfl, rfl, rfl, rfl, ?_⟩
  intro valid
  exact absurd valid.positive (by decide)

end Xpedite.Framework
