import Xpedite.Framework.Disconnect

/-!
What is left of a `profile()` call that failed.  The three requests it consists of are
executed one after the other; when one of them fails, the guard that the call started with ends
the profile, also one that an earlier call began.
-/

namespace Xpedite.Framework

/-- What a failed call is to leave as it was. -/
structure Unchanged (before after : State) : Prop where
  probes : after.probes = before.probes
  pmcCount : after.control.pmu.pmcCount = before.control.pmu.pmcCount
  perfEventsEnabled :
    after.control.pmu.perfEventsEnabled = before.control.pmu.perfEventsEnabled
  recorder : after.control.recorder = before.control.recorder

def StartRefused (environment : Environment) (state : State) : Prop :=
  state.collector.isSome = true ∨ state.pollInterval = 0 ∨
    environment.collectorBuilds = true ∧ environment.readersAttach = false

/-- The reasons for the last request to fail; one callback alone is no recorder. -/
def ProfileRefused (environment : Environment) (state : State) (info : ProfileInfo) : Prop :=
  info.recorder.isSome ≠ info.dataProbeRecorder.isSome ∨ StartRefused environment state

def EventsRefused (environment : Environment) (state : State) (info : ProfileInfo) : Prop :=
  eventCount info.pmuRequest ≠ 0 ∧
    ¬Control.PerfEventsGranted state.control.pmu info.pmuRequest environment.perfEventsBuild

/--
A profile that is ended after these keys have been activated, and the recorder has been replaced,
leaves nothing changed.
-/
structure Undisturbed (state : State) (entries : List (ProbeKey × ProbeKey)) (replaced : Prop) :
    Prop where
  known : ∀ probe ∈ state.probes, probe.patchable = true →
    ((∃ key ∈ state.activeProbes, probe.match key = true) ∨
      ∃ entry ∈ entries, probe.match entry.1 = true) → probe.active = false
  reached : ∀ probe ∈ state.probes, probe.patchable = true →
    (∀ key ∈ state.activeProbes, probe.match key = false) →
    (∀ entry ∈ entries, probe.match entry.1 = false) →
    (∃ entry ∈ entries, probe.match entry.2 = true) → probe.active = true
  pmcCount : state.control.pmu.pmcCount = 0
  perfEvents : state.control.pmu.perfEventsEnabled = false
  recorder : state.control.recorder = activateRecorder .expandable ∨
    ¬replaced ∧ state.control.pmu.readCount = 0 ∧
      state.control.recorder.activeRecorderType ≠ .custom

/-- The recorder, or the counters it goes with, are those that the call asked for. -/
def Replaces (info : ProfileInfo) : Prop :=
  eventCount info.pmuRequest ≠ 0 ∨ info.recorder.isSome = true ∧ info.dataProbeRecorder.isSome = true

def recorderAfter (ctl : RecorderCtl) (info : ProfileInfo) : RecorderCtl :=
  (activateCustomRecorder ctl info.recorder info.dataProbeRecorder).1

theorem template_nonempty (process : Process) :
    (StorageMgr.buildSamplesFileTemplate process).isEmpty = false := rfl

section LastRequest

variable {environment : Environment} {state : State} (process : Process) (info : ProfileInfo)

def beginLocal (environment : Environment) (process : Process) (info : ProfileInfo)
    (state : State) : Outcome String :=
  Handler.beginProfile environment state (StorageMgr.buildSamplesFileTemplate process) 1
    info.samplesDataCapacity

theorem beginLocal_refused (refused : StartRefused environment state) :
    ∃ next errors, beginLocal environment process info state = .returns next errors ∧
      errors ≠ "" ∧ next.probes = state.probes ∧ next.activeProbes = state.activeProbes ∧
      next.control = state.control ∧ next.collector = state.collector := by
  rw [beginLocal, Handler.beginProfile, Handler.isProfileActive, template_nonempty]
  cases active : state.collector.isSome with
  | true => exact ⟨_, _, rfl, by decide, rfl, rfl, rfl, rfl⟩
  | false =>
      by_cases zero : state.pollInterval = 0
      · simp only [Bool.false_eq_true, if_false, zero, if_true]
        exact ⟨_, _, rfl, by decide, rfl, rfl, rfl, rfl⟩
      · rcases refused with isActive | isZero | ⟨builds, fails⟩
        · rw [active] at isActive
          cases isActive
        · exact absurd isZero zero
        · simp only [Bool.false_eq_true, if_false, zero, builds, fails, Bool.not_true,
            Bool.not_false, if_true]
          exact ⟨_, _, rfl, by decide, rfl, rfl, rfl, rfl⟩

theorem beginLocal_accepted (accepted : ¬StartRefused environment state) {next : State}
    {errors : String} (begun : beginLocal environment process info state = .returns next errors) :
    errors = "" := by
  obtain ⟨inactive, nonzero, attaches⟩ : state.collector.isSome = false ∧
      state.pollInterval ≠ 0 ∧
      ¬(environment.collectorBuilds = true ∧ environment.readersAttach = false) := by
    simpa only [StartRefused, not_or, Bool.not_eq_true] using accepted
  rw [beginLocal, Handler.beginProfile, Handler.isProfileActive, template_nonempty,
    inactive] at begun
  simp only [Bool.false_eq_true, if_false, nonzero] at begun
  cases builds : environment.collectorBuilds with
  | false =>
      rw [builds] at begun
      cases begun
  | true =>
      cases attach : environment.readersAttach with
      | false => exact absurd ⟨builds, attach⟩ attaches
      | true =>
          rw [builds, attach] at begun
          cases begun
          rfl

theorem respond_eq_errors {outcome : Outcome String} {next : State} {errors : String}
    (responded : respond outcome = .returns next (.errors errors)) :
    outcome = .returns next errors ∧ errors ≠ "" := by
  cases outcome with
  | returns reached text =>
      rw [respond] at responded
      split at responded
      · cases responded
      · rename_i failed
        cases responded
        exact ⟨rfl, failed⟩
  | throws reached => cases responded
  | terminates => cases responded

def executeActivation (environment : Environment) (process : Process) (info : ProfileInfo)
    (state : State) : Outcome Response :=
  executeProfileActivation environment state (StorageMgr.buildSamplesFileTemplate process) 1
    info.samplesDataCapacity info.recorder info.dataProbeRecorder

theorem executeActivation_refused (refused : ProfileRefused environment state info) :
    ∃ next errors, executeActivation environment process info state =
        .returns next (.errors errors) ∧
      next.probes = state.probes ∧ next.activeProbes = state.activeProbes ∧
      next.control = ⟨state.control.pmu, recorderAfter state.control.recorder info⟩ ∧
      next.collector = state.collector := by
  rw [executeActivation, executeProfileActivation, recorderAfter]
  cases first : info.recorder with
  | none =>
      cases second : info.dataProbeRecorder with
      | none =>
          rw [ProfileRefused, first, second] at refused
          have later := refused.resolve_left (fun different => different rfl)
          obtain ⟨next, errors, begun, failed, probes, activeProbes, control, collector⟩ :=
            beginLocal_refused process info later
          rw [beginLocal] at begun
          refine ⟨next, errors, ?_, probes, activeProbes, by rw [control]; rfl, collector⟩
          simp only [Option.isSome_none, Bool.or_self, Bool.false_eq_true, if_false, begun,
            respond, failed]
      | some dataProbeRecorder => exact ⟨state, _, rfl, rfl, rfl, rfl, rfl⟩
  | some recorder =>
      cases second : info.dataProbeRecorder with
      | none => exact ⟨state, _, rfl, rfl, rfl, rfl, rfl⟩
      | some dataProbeRecorder =>
          rw [ProfileRefused, first, second] at refused
          have later := refused.resolve_left (fun different => different rfl)
          obtain ⟨next, errors, begun, failed, probes, activeProbes, control, collector⟩ :=
            @beginLocal_refused environment { state with control := { state.control with
              recorder := ⟨.custom, .other recorder, .other dataProbeRecorder⟩ } } process info later
          rw [beginLocal] at begun
          refine ⟨next, errors, ?_, probes, activeProbes, by rw [control]; rfl, collector⟩
          simp only [Option.isSome_some, Bool.or_self, if_true, activateCustomRecorder, begun,
            respond, failed, if_false]

theorem executeActivation_accepted (accepted : ¬ProfileRefused environment state info)
    (next : State) (errors : String) :
    executeActivation environment process info state ≠ .returns next (.errors errors) := by
  have never : ∀ other : State, other.collector = state.collector →
      other.pollInterval = state.pollInterval →
      respond (beginLocal environment process info other) ≠ .returns next (.errors errors) := by
    intro other collector pollInterval responded
    obtain ⟨begun, failed⟩ := respond_eq_errors responded
    refine failed (beginLocal_accepted process info ?_ begun)
    rw [StartRefused, collector, pollInterval]
    exact fun later => accepted (.inr later)
  rw [executeActivation, executeProfileActivation]
  cases first : info.recorder with
  | none =>
      cases second : info.dataProbeRecorder with
      | none => exact never state rfl rfl
      | some dataProbeRecorder => exact absurd (.inl (by simp [first, second])) accepted
  | some recorder =>
      cases second : info.dataProbeRecorder with
      | none => exact absurd (.inl (by simp [first, second])) accepted
      | some dataProbeRecorder => exact never _ rfl rfl

end LastRequest

section Requests

variable {environment : Environment} {process : Process} {state : State} {info : ProfileInfo}

theorem executeLocal_accepted (own : process.sessionType ≠ .remote) (request : Request) :
    executeLocal environment process state request = execute environment state request := by
  have can : process.sessionType = .dormant ∨ process.sessionType = .local := by
    cases type : process.sessionType with
    | dormant => exact .inl rfl
    | remote => exact absurd type own
    | «local» => exact .inr rfl
  rw [executeLocal, if_pos can]

theorem executeLocal_refused (remote : process.sessionType = .remote) (request : Request) :
    ∃ text, executeLocal environment process state request = .returns state (.errors text) := by
  have cannot : ¬(process.sessionType = .dormant ∨ process.sessionType = .local) := by
    rw [remote]
    decide
  exact ⟨_, by rw [executeLocal, if_neg cannot]⟩

/-- The call returns a guard that is not alive only if the profile could be ended, and what it
leaves behind then is what `Profile::stop` makes of the state it has got to. -/
theorem require_refused {context text : String} {reached : State}
    {proceed : State → Outcome SessionGuard} (own : process.sessionType ≠ .remote) :
    (∀ next errors,
        require environment process (.returns reached (.errors text)) context proceed =
          .returns next (.invalid errors) → Unchanged state next) ↔
      reached.collector.isSome = true ∧ environment.samplesOverflow = true ∨
        Unchanged state (Profile.stop reached) := by
  have same : ∀ next : State, next.probes = (Profile.stop reached).probes →
      next.control = (Profile.stop reached).control →
      (Unchanged state next ↔ Unchanged state (Profile.stop reached)) := by
    intro next probes control
    constructor
    · intro unchanged
      exact ⟨probes ▸ unchanged.probes, control ▸ unchanged.pmcCount,
        control ▸ unchanged.perfEventsEnabled, control ▸ unchanged.recorder⟩
    · intro unchanged
      exact ⟨probes ▸ unchanged.probes, control ▸ unchanged.pmcCount,
        control ▸ unchanged.perfEventsEnabled, control ▸ unchanged.recorder⟩
  have stopped : (Profile.stop reached).collector = reached.collector := rfl
  simp only [require, endProfile, executeLocal_accepted own, execute, Handler.endProfile, stopped]
  cases reached.collector with
  | none =>
      simp only [respond, Option.isSome_none, Bool.false_eq_true, false_and, false_or]
      constructor
      · intro unchanged
        exact unchanged _ _ rfl
      · rintro unchanged next errors same_
        cases same_
        exact unchanged
  | some collector =>
      cases overflow : environment.samplesOverflow with
      | true =>
          refine iff_of_true ?_ (.inl ⟨rfl, rfl⟩)
          intro next errors returned
          cases returned
      | false =>
          simp only [respond, Bool.false_eq_true, if_false, and_false, false_or]
          rw [← same { Profile.stop reached with collector := none } rfl rfl]
          constructor
          · intro unchanged
            exact unchanged _ _ rfl
          · rintro unchanged next errors same_
            cases same_
            exact unchanged

theorem stop_recorder (state : State) :
    (Profile.stop state).control.recorder =
      if state.control.pmu.readCount ≠ 0 ∨ state.control.recorder.activeRecorderType = .custom
      then activateRecorder .expandable else state.control.recorder := by
  rw [Profile.stop, recorder_activate_if, disablePMU_recorder]
  by_cases counted : state.control.pmu.readCount ≠ 0
  · rw [if_pos counted, if_pos (.inl counted : _ ∨ _)]
    rfl
  · simp only [counted, if_false, false_or]

/-- One probe of a state in which keys have been activated, and then all keys switched off. -/
theorem deactivated_eq_iff {probe : Probe} (known reached : Prop) [Decidable known]
    [Decidable reached] :
    (if known then (if reached then probe.activate else probe).deactivate
      else if reached then probe.activate else probe) = probe ↔
      (probe.patchable = true → known → probe.active = false) ∧
        (probe.patchable = true → ¬known → reached → probe.active = true) := by
  obtain ⟨name, file, line, patchable, active⟩ := probe
  cases patchable with
  | false => simp [Probe.activate, Probe.deactivate]
  | true =>
      by_cases isKnown : known
      · by_cases isReached : reached
        · simp [Probe.activate, Probe.deactivate, isKnown, isReached, eq_comm]
        · simp [Probe.deactivate, isKnown, isReached, eq_comm]
      · by_cases isReached : reached
        · simp [Probe.activate, isKnown, isReached, eq_comm]
        · simp [isKnown, isReached]

theorem stop_recorder_eq_iff {reached : State} {replaced : Prop}
    (recorder : replaced ∧ (reached.control.pmu.readCount ≠ 0 ∨
        reached.control.recorder.activeRecorderType = .custom) ∨
      ¬replaced ∧ reached.control.pmu.readCount = state.control.pmu.readCount ∧
        reached.control.recorder = state.control.recorder) :
    (Profile.stop reached).control.recorder = state.control.recorder ↔
      state.control.recorder = activateRecorder .expandable ∨
        ¬replaced ∧ state.control.pmu.readCount = 0 ∧
          state.control.recorder.activeRecorderType ≠ .custom := by
  rw [stop_recorder]
  rcases recorder with ⟨is, off⟩ | ⟨isNot, count, same⟩
  · rw [if_pos off]
    simp only [is, not_true_eq_false, false_and, or_false]
    exact eq_comm
  · rw [count, same]
    by_cases off : state.control.pmu.readCount ≠ 0 ∨
        state.control.recorder.activeRecorderType = .custom
    · rw [if_pos off, or_iff_left, eq_comm]
      rintro ⟨-, none_, other⟩
      exact off.elim (fun counted => counted none_) other
    · rw [if_neg off]
      obtain ⟨none_, other⟩ := not_or.mp off
      exact iff_of_true rfl (.inr ⟨isNot, not_not.mp none_, other⟩)

theorem stop_probes_eq_iff {reached : State} {entries : List (ProbeKey × ProbeKey)}
    (probes : reached.probes = state.probes.map fun probe =>
      if entries.any fun entry => probe.match entry.2 then probe.activate else probe)
    (activeProbes : ∀ key, key ∈ reached.activeProbes ↔
      key ∈ state.activeProbes ∨ ∃ entry ∈ entries, entry.1 = key) :
    (Profile.stop reached).probes = state.probes ↔
      ∀ probe ∈ state.probes,
        (probe.patchable = true → ((∃ key ∈ state.activeProbes, probe.match key = true) ∨
            ∃ entry ∈ entries, probe.match entry.1 = true) → probe.active = false) ∧
        (probe.patchable = true → ¬((∃ key ∈ state.activeProbes, probe.match key = true) ∨
            ∃ entry ∈ entries, probe.match entry.1 = true) →
          (∃ entry ∈ entries, probe.match entry.2 = true) → probe.active = true) := by
  have fixed : ∀ change : Probe → Probe, state.probes.map change = state.probes ↔
      ∀ probe ∈ state.probes, change probe = probe := by
    intro change
    simpa using @List.map_inj_left _ _ state.probes change id
  rw [stop_probes, probes, List.map_map, fixed]
  refine forall₂_congr fun probe _ => ?_
  have same : ∀ key, (if entries.any fun entry => probe.match entry.2 then probe.activate
      else probe).match key = probe.match key := by
    intro key
    split
    · exact Command.match_apply .enable probe key
    · rfl
  have known : (reached.activeProbes.any probe.match = true) ↔
      ((∃ key ∈ state.activeProbes, probe.match key = true) ∨
        ∃ entry ∈ entries, probe.match entry.1 = true) := by
    simp only [List.any_eq_true, activeProbes]
    constructor
    · rintro ⟨key, stored | ⟨entry, given, rfl⟩, matched⟩
      · exact .inl ⟨key, stored, matched⟩
      · exact .inr ⟨entry, given, matched⟩
    · rintro (⟨key, stored, matched⟩ | ⟨entry, given, matched⟩)
      · exact ⟨key, .inl stored, matched⟩
      · exact ⟨entry.1, .inr ⟨entry, given, rfl⟩, matched⟩
  rw [← known, ← List.any_eq_true, ← deactivated_eq_iff]
  simp only [Function.comp_apply, funext same]

theorem unchanged_stop_iff {reached : State} {entries : List (ProbeKey × ProbeKey)}
    {replaced : Prop}
    (probes : reached.probes = state.probes.map fun probe =>
      if entries.any fun entry => probe.match entry.2 then probe.activate else probe)
    (activeProbes : ∀ key, key ∈ reached.activeProbes ↔
      key ∈ state.activeProbes ∨ ∃ entry ∈ entries, entry.1 = key)
    (recorder : replaced ∧ (reached.control.pmu.readCount ≠ 0 ∨
        reached.control.recorder.activeRecorderType = .custom) ∨
      ¬replaced ∧ reached.control.pmu.readCount = state.control.pmu.readCount ∧
        reached.control.recorder = state.control.recorder) :
    Unchanged state (Profile.stop reached) ↔ Undisturbed state entries replaced := by
  have pmu : (Profile.stop reached).control.pmu.pmcCount = 0 ∧
      (Profile.stop reached).control.pmu.perfEventsEnabled = false := by
    rw [stop_pmu, Control.disablePMU_pmu]
    exact ⟨rfl, rfl⟩
  have recorders := stop_recorder_eq_iff recorder
  have switched := stop_probes_eq_iff probes activeProbes
  constructor
  · intro unchanged
    have each := switched.mp unchanged.probes
    refine ⟨fun probe listed => (each probe listed).1, ?_, ?_, ?_, ?_⟩
    · intro probe listed patchable others asked
      refine (each probe listed).2 patchable ?_
      rintro (⟨key, stored, matched⟩ | ⟨entry, given, matched⟩)
      · rw [others key stored] at matched
        cases matched
      · rw [asked entry given] at matched
        cases matched
    · exact unchanged.pmcCount.symm.trans pmu.1
    · exact unchanged.perfEventsEnabled.symm.trans pmu.2
    · exact recorders.mp unchanged.recorder
  · intro undisturbed
    refine ⟨switched.mpr fun probe listed => ⟨undisturbed.known probe listed, ?_⟩,
      pmu.1.trans undisturbed.pmcCount.symm, pmu.2.trans undisturbed.perfEvents.symm,
      recorders.mpr undisturbed.recorder⟩
    intro patchable unknown
    refine undisturbed.reached probe listed patchable ?_ ?_
    · intro key stored
      exact Bool.eq_false_of_not_eq_true fun matched => unknown (.inl ⟨key, stored, matched⟩)
    · intro entry given
      exact Bool.eq_false_of_not_eq_true fun matched => unknown (.inr ⟨entry, given, matched⟩)

theorem activateProbes_eq (own : process.sessionType ≠ .remote) :
    activateProbes environment process info state =
      require environment { process with sessionType := .local }
        (executeActivation environment { process with sessionType := .local } info
          (Profile.activateProbes (environment.pointed info.probes) state))
        "xpedite failed to activate profile - " fun state => .returns state .alive := by
  have owned : { process with sessionType := .local }.sessionType ≠ .remote := by simp
  rw [activateProbes, executeLocal_accepted own, execute, require, activateProfile,
    executeLocal_accepted owned, execute, executeActivation]

theorem profileRefused_activateProbes (entries : List (ProbeKey × ProbeKey)) :
    ProfileRefused environment (Profile.activateProbes entries state) info ↔
      ProfileRefused environment state info := by
  rw [ProfileRefused, StartRefused, activateProbes_collector, activateProbes_pollInterval]
  rfl

theorem activateProbes_accepted (own : process.sessionType ≠ .remote)
    (accepted : ¬ProfileRefused environment state info) (next : State) (errors : String) :
    activateProbes environment process info state ≠ .returns next (.invalid errors) := by
  have never := executeActivation_accepted { process with sessionType := .local } info
    (mt (profileRefused_activateProbes (environment.pointed info.probes)).mp accepted)
  rw [activateProbes_eq own]
  intro returned
  cases outcome : executeActivation environment { process with sessionType := .local } info
      (Profile.activateProbes (environment.pointed info.probes) state) with
  | returns reached response =>
      cases response with
      | value text =>
          rw [outcome] at returned
          cases returned
      | errors text => exact never reached text outcome
  | throws reached =>
      rw [outcome] at returned
      cases returned
  | terminates =>
      rw [outcome] at returned
      cases returned

/-- The last request fails after the probes have been activated, and the counters if there are. -/
theorem activateProbes_refused {control : Control} (own : process.sessionType ≠ .remote)
    (refused : ProfileRefused environment state info)
    (counters : eventCount info.pmuRequest ≠ 0 ∧ 0 < control.pmu.readCount ∨
      eventCount info.pmuRequest = 0 ∧ control = state.control) :
    (∀ next errors, activateProbes environment process info { state with control := control } =
        .returns next (.invalid errors) → Unchanged state next) ↔
      state.collector.isSome = true ∧ environment.samplesOverflow = true ∨
        Undisturbed state (environment.pointed info.probes) (Replaces info) := by
  have owned : { process with sessionType := .local }.sessionType ≠ .remote := by simp
  obtain ⟨reached, text, executed, probes, activeProbes, last, collector⟩ :=
    executeActivation_refused { process with sessionType := .local } info
      ((@profileRefused_activateProbes environment { state with control := control } info
        (environment.pointed info.probes)).mpr refused)
  rw [activateProbes_eq own, executed, require_refused owned, collector,
    activateProbes_collector]
  refine or_congr Iff.rfl (unchanged_stop_iff ?_ ?_ ?_)
  · rw [probes, activateProbes_probes]
  · intro key
    rw [activeProbes, mem_activateProbes_activeProbes]
  · rw [last, activateProbes_control]
    by_cases replaces : Replaces info
    · refine .inl ⟨replaces, ?_⟩
      rcases counters with ⟨-, counted⟩ | ⟨none_, -⟩
      · exact .inl (Nat.ne_of_gt counted)
      · obtain ⟨first, second⟩ := replaces.resolve_left (not_not_intro none_)
        obtain ⟨recorder, given⟩ := Option.isSome_iff_exists.mp first
        obtain ⟨dataProbeRecorder, alsoGiven⟩ := Option.isSome_iff_exists.mp second
        rw [recorderAfter, given, alsoGiven]
        exact .inr rfl
    · refine .inr ⟨replaces, ?_⟩
      rcases counters with ⟨some_, -⟩ | ⟨-, rfl⟩
      · exact absurd (.inl some_) replaces
      · refine ⟨rfl, ?_⟩
        rw [recorderAfter]
        cases first : info.recorder with
        | none => rfl
        | some recorder =>
            cases second : info.dataProbeRecorder with
            | none => rfl
            | some dataProbeRecorder =>
                exact absurd (.inr ⟨by rw [first]; rfl, by rw [second]; rfl⟩) replaces

theorem beginProfile_activates (own : process.sessionType ≠ .remote)
    (accepted : ¬EventsRefused environment state info) :
    ∃ owner control, owner.sessionType ≠ .remote ∧
      beginProfile environment process state info =
        activateProbes environment owner info { state with control := control } ∧
      (eventCount info.pmuRequest ≠ 0 ∧ 0 < control.pmu.readCount ∨
        eventCount info.pmuRequest = 0 ∧ control = state.control) := by
  by_cases events : eventCount info.pmuRequest = 0
  · refine ⟨process, state.control, own, ?_, .inr ⟨events, rfl⟩⟩
    rw [beginProfile, if_neg (not_not_intro events)]
  · rcases state.control.enablePerfEvents_cases info.pmuRequest environment.perfEventsBuild with
      ⟨-, control, enabled, -, -, -, counted⟩ | ⟨refused, -⟩
    · refine ⟨{ process with sessionType := .local }, control, by simp, ?_, .inl ⟨events, counted⟩⟩
      rw [beginProfile, if_pos events, executeLocal_accepted own]
      simp only [execute, enabled, require]
    · exact absurd ⟨events, refused⟩ accepted

theorem beginProfile_eventsRefused (own : process.sessionType ≠ .remote)
    (refused : EventsRefused environment state info) :
    (∀ next errors, beginProfile environment process state info =
        .returns next (.invalid errors) → Unchanged state next) ↔
      state.collector.isSome = true ∧ environment.samplesOverflow = true ∨
        Undisturbed state [] False := by
  rcases state.control.enablePerfEvents_cases info.pmuRequest environment.perfEventsBuild with
    ⟨granted, -⟩ | ⟨-, pmu, failed, generic, fixed, -⟩
  · exact absurd granted refused.2
  · have count : pmu.readCount = state.control.pmu.readCount := by
      rw [PmuCtl.readCount, PmuCtl.readCount, generic, fixed]
    rw [beginProfile, if_pos refused.1, executeLocal_accepted own]
    simp only [execute, failed]
    rw [require_refused own]
    refine or_congr Iff.rfl (unchanged_stop_iff ?_ ?_ ?_)
    · simp
    · simp
    · exact .inr ⟨not_false, count, rfl⟩

theorem beginProfile_remote (remote : process.sessionType = .remote) :
    ∃ errors, beginProfile environment process state info = .returns state (.invalid errors) := by
  have given : ∀ request context proceed, ∃ errors,
      require environment process (executeLocal environment process state request) context
        proceed = .returns state (.invalid errors) := by
    intro request context proceed
    obtain ⟨text, refused⟩ := @executeLocal_refused environment process state remote request
    obtain ⟨other, ended⟩ := @executeLocal_refused environment process state remote
      .profileDeactivation
    rw [refused, require, endProfile, ended]
    exact ⟨_, rfl⟩
  rw [beginProfile]
  split
  · exact given _ _ _
  · exact given _ _ _

end Requests

/--
A call that fails leaves everything as it was exactly when it does nothing but fail: its session is
not accepted, or ending the profile, as the guard of the failed call does, takes back what the call
has done and nothing else.
-/
theorem failed_beginProfile_unchanged_iff (environment : Environment) (process : Process)
    (state : State) (info : ProfileInfo) :
    (∀ next errors, beginProfile environment process state info =
        .returns next (.invalid errors) → Unchanged state next) ↔
      process.sessionType = .remote ∨
      state.collector.isSome = true ∧ environment.samplesOverflow = true ∨
      EventsRefused environment state info ∧ Undisturbed state [] False ∨
      ¬EventsRefused environment state info ∧ (¬ProfileRefused environment state info ∨
        Undisturbed state (environment.pointed info.probes) (Replaces info)) := by
  by_cases remote : process.sessionType = .remote
  · refine iff_of_true ?_ (.inl remote)
    obtain ⟨text, result⟩ := @beginProfile_remote environment process state info remote
    intro next errors returned
    rw [result] at returned
    cases returned
    exact ⟨rfl, rfl, rfl, rfl⟩
  · rw [or_iff_right remote]
    by_cases events : EventsRefused environment state info
    · rw [beginProfile_eventsRefused remote events]
      simp only [events, true_and, not_true_eq_false, false_and, or_false]
    · simp only [events, false_and, not_false_eq_true, true_and, false_or]
      obtain ⟨owner, control, owned, continued, counters⟩ := beginProfile_activates remote events
      rw [continued]
      by_cases refused : ProfileRefused environment state info
      · rw [activateProbes_refused owned refused counters]
        simp only [refused, not_true_eq_false, false_or]
      · refine iff_of_true ?_ (.inr (.inl refused))
        intro next errors returned
        have never := @activateProbes_accepted environment owner { state with control := control }
          info owned refused next errors
        exact absurd returned never

def profileOf (line : UInt32) : ProfileInfo where
  probes := [⟨[], "order.cpp".toList, line⟩]
  pmuRequest := ⟨0, 0, 0, 0, fun _ => ⟨0, 0, 0⟩, fun _ => ⟨0, 0, 0, 0, 0, 0, 0, 0⟩, fun _ => 0⟩
  samplesDataCapacity := 0
  recorder := none
  dataProbeRecorder := none

/-- A second call during a session is turned down, and ends the profile of the first one. -/
theorem failed_beginProfile_second_call :
    ∃ started, beginProfile willing ⟨.dormant, ['a'], 0⟩
        (State.new [orderProbe, { orderProbe with line := 8 }]) (profileOf 7) =
          .returns started .alive ∧
      started.probes = [{ orderProbe with active := true }, { orderProbe with line := 8 }] ∧
      ∃ next errors, beginProfile willing ⟨.local, ['a'], 1⟩ started (profileOf 8) =
          .returns next (.invalid errors) ∧
        next.probes = [orderProbe, { orderProbe with line := 8 }] ∧ next.collector = none ∧
        ¬Unchanged started next := by
  refine ⟨_, rfl, by decide, _, _, rfl, by decide, rfl, ?_⟩
  intro unchanged
  exact absurd unchanged.probes (by decide)

end Xpedite.Framework
