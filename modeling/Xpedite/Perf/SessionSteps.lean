import Xpedite.Perf.SessionsCore

/-!
What a step asks for and what it leaves, and what attaching a set leaves alone.
-/

namespace Xpedite.PerfSessions

open Framework Lib

section Attaching

structure SameOutside (state next : State) : Prop where
  control : next.control = state.control
  buffers : next.buffers = state.buffers
  tid : next.tid = state.tid
  background : next.background = state.background
  threads : next.threads = state.threads
  returned : next.returned = state.returned

theorem SameOutside.refl (state : State) : SameOutside state state :=
  ⟨rfl, rfl, rfl, rfl, rfl, rfl⟩

theorem SameOutside.trans {first second third : State} (earlier : SameOutside first second)
    (later : SameOutside second third) : SameOutside first third where
  control := later.control.trans earlier.control
  buffers := later.buffers.trans earlier.buffers
  tid := later.tid.trans earlier.tid
  background := later.background.trans earlier.background
  threads := later.threads.trans earlier.threads
  returned := later.returned.trans earlier.returned

theorem attachUnsafe_cases {state : State} {buffer : Nat} {perfEventSet : PerfEventSet}
    {attached : State × Option Nat}
    (taken : attachUnsafe state buffer perfEventSet = some attached) :
    perfEventSet.tid = state.tid buffer ∧
      ((state.control.pmu.activeEventAttrs = [] ∨ supersedes state perfEventSet = false) ∧
          attached = (state, none) ∨
        state.control.pmu.activeEventAttrs ≠ [] ∧ supersedes state perfEventSet = true ∧
          attached = (store state buffer perfEventSet,
            state.activeEvents.lookup perfEventSet.tid)) := by
  rw [attachUnsafe] at taken
  split at taken
  · cases taken
  · rename_i same
    refine ⟨not_not.mp same, ?_⟩
    split at taken
    · rename_i empty
      cases taken
      exact .inl ⟨.inl (List.isEmpty_iff.mp empty), rfl⟩
    · rename_i published
      split at taken
      · rename_i newer
        cases taken
        exact .inr ⟨fun none_ => published (List.isEmpty_iff.mpr none_), newer, rfl⟩
      · rename_i older
        cases taken
        exact .inl ⟨.inr (Bool.eq_false_iff.mpr older), rfl⟩

theorem attachUnsafe_outside {state : State} {buffer : Nat} {perfEventSet : PerfEventSet}
    {attached : State × Option Nat}
    (taken : attachUnsafe state buffer perfEventSet = some attached) :
    SameOutside state attached.1 := by
  rcases (attachUnsafe_cases taken).2 with ⟨-, same⟩ | ⟨-, -, stored⟩
  · rw [same]
    exact SameOutside.refl state
  · rw [stored]
    exact ⟨rfl, rfl, rfl, rfl, rfl, rfl⟩

theorem attachAll_outside {buffers : List Nat} {perfEventSets : List PerfEventSet}
    {state next : State} (taken : attachAll state buffers perfEventSets = some next) :
    SameOutside state next := by
  induction buffers generalizing state perfEventSets with
  | nil =>
      cases taken
      exact SameOutside.refl _
  | cons buffer buffers ih =>
      cases perfEventSets with
      | nil => cases taken
      | cons perfEventSet perfEventSets =>
          rw [attachAll] at taken
          obtain ⟨attached, first, rest⟩ := Option.bind_eq_some_iff.mp taken
          have retired : SameOutside attached.1 (retire attached.1 attached.2) :=
            ⟨rfl, rfl, rfl, rfl, rfl, rfl⟩
          exact ((attachUnsafe_outside first).trans retired).trans (ih rest)

end Attaching

section Steps

variable {state next : State}

theorem threads_stepPush (state : State) (buffer tid : Nat) :
    (stepPush state buffer tid).threads buffer = .pushed := Function.update_self _ _ _

theorem tid_stepPush (state : State) (buffer tid : Nat) :
    (stepPush state buffer tid).tid buffer = tid := Function.update_self _ _ _

theorem threads_stepPush_of_ne (state : State) (tid : Nat) {buffer other : Nat}
    (different : other ≠ buffer) :
    (stepPush state buffer tid).threads other = state.threads other :=
  Function.update_of_ne different _ _

theorem tid_stepPush_of_ne (state : State) (tid : Nat) {buffer other : Nat}
    (different : other ≠ buffer) : (stepPush state buffer tid).tid other = state.tid other :=
  Function.update_of_ne different _ _

theorem size_buildPerfEvents (eventAttrs : List PerfEventAttr) (generation tid : Nat) :
    (buildPerfEvents true eventAttrs generation tid).size = eventAttrs.length := List.length_map _

theorem enableCounters_cases {control enabled : Control} {request : PMUCtlRequest}
    (taken : enableCounters control request = some enabled) :
    enabled.recorder = activateRecorder .perfEvents ∧ enabled.pmu =
      { control.pmu with
        perfEventsEnabled := true
        genericPmcCount := request.gpEvtCount
        fixedPmcSet := control.pmu.fixedPmcSet.withIndices (requestedIndices request) } := by
  obtain ⟨fixedPmcSet, all, rfl⟩ := Option.map_eq_some_iff.mp taken
  rw [← FixedPmcSet.enableAll_eq_some all]
  exact ⟨rfl, rfl⟩

def Effect (state next : State) : Action → Prop
  | .enableGenericPmc genericPmcCount =>
      state.background = .idle ∧
        next = { state with control := state.control.enableGenericPmc genericPmcCount }
  | .enableFixedPmc index =>
      state.background = .idle ∧ ∃ control, state.control.enableFixedPmc index = some control ∧
        next = { state with control := control }
  | .enablePerfEvents request => state.background = .idle ∧ next = stepEnable state request
  | .readHead =>
      ∃ request eventAttrs, state.background = .published request eventAttrs ∧
        next = { state with
          background := .building request eventAttrs state.buffers state.buffers [] }
  | .build opens =>
      ∃ request eventAttrs buffers buffer remaining perfEventSets, state.background =
          .building request eventAttrs buffers (buffer :: remaining) perfEventSets ∧
        next = stepBuild state opens request eventAttrs buffers buffer remaining perfEventSets
  | .attachAll =>
      ∃ request eventAttrs buffers perfEventSets attached,
        state.background = .building request eventAttrs buffers [] perfEventSets ∧
        attachAll state buffers perfEventSets = some attached ∧
        next = { attached with background := .attached request }
  | .enabled =>
      ∃ request control, state.background = .attached request ∧
        enableCounters state.control request = some control ∧
        next = { state with control := control, background := .idle, returned := some true }
  | .disablePMU => state.background = .idle ∧ next = stepDisablePMU state
  | .disableFixedPmc =>
      state.background = .genericDisabled ∧
        next = { state with
          control := state.control.disableFixedPmc
          background := .countersDisabled }
  | .disable => state.background = .countersDisabled ∧ next = stepDisable state
  | .push buffer tid =>
      state.threads buffer = .unregistered ∧ isFree state tid = true ∧
        next = stepPush state buffer tid
  | .snap buffer => state.threads buffer = .pushed ∧ next = stepSnap state buffer
  | .buildOwn buffer opens =>
      ∃ generation eventAttrs, state.threads buffer = .snapped generation eventAttrs ∧
        next = stepBuildOwn state buffer opens generation eventAttrs
  | .attach buffer =>
      ∃ perfEventSet attached, state.threads buffer = .built perfEventSet ∧
        attachUnsafe state buffer perfEventSet = some attached ∧
        next = (deactivateSets attached.1 attached.2.toList).setThread buffer .registered
  | .exit buffer =>
      state.threads buffer = .registered ∧ next = state.setThread buffer .exited

theorem effect_enableGenericPmc {count : UInt8}
    (taken : act state (.enableGenericPmc count) = some next) :
    Effect state next (.enableGenericPmc count) := by
  delta act at taken
  dsimp only at taken
  split at taken
  · rename_i idle
    cases taken
    exact ⟨idle, rfl⟩
  · cases taken

theorem effect_enableFixedPmc {index : UInt8}
    (taken : act state (.enableFixedPmc index) = some next) :
    Effect state next (.enableFixedPmc index) := by
  delta act at taken
  dsimp only at taken
  split at taken
  · rename_i idle
    obtain ⟨control, accepted, rfl⟩ := Option.map_eq_some_iff.mp taken
    exact ⟨idle, control, accepted, rfl⟩
  · cases taken

theorem effect_enablePerfEvents {request : PMUCtlRequest}
    (taken : act state (.enablePerfEvents request) = some next) :
    Effect state next (.enablePerfEvents request) := by
  delta act at taken
  dsimp only at taken
  split at taken
  · rename_i idle
    cases taken
    exact ⟨idle, rfl⟩
  · cases taken

theorem effect_readHead
    (taken : act state .readHead = some next) : Effect state next .readHead := by
  delta act at taken
  dsimp only at taken
  split at taken
  · rename_i request eventAttrs position
    cases taken
    exact ⟨request, eventAttrs, position, rfl⟩
  · cases taken

theorem effect_build {opens : Bool}
    (taken : act state (.build opens) = some next) : Effect state next (.build opens) := by
  delta act at taken
  dsimp only at taken
  split at taken
  · rename_i request eventAttrs buffers buffer remaining perfEventSets position
    cases taken
    exact ⟨request, eventAttrs, buffers, buffer, remaining, perfEventSets, position, rfl⟩
  · cases taken

theorem effect_attachAll
    (taken : act state .attachAll = some next) : Effect state next .attachAll := by
  delta act at taken
  dsimp only at taken
  split at taken
  · rename_i request eventAttrs buffers perfEventSets position
    obtain ⟨attached, done, rfl⟩ := Option.map_eq_some_iff.mp taken
    exact ⟨request, eventAttrs, buffers, perfEventSets, attached, position, done, rfl⟩
  · cases taken

theorem effect_enabled (taken : act state .enabled = some next) : Effect state next .enabled := by
  delta act at taken
  dsimp only at taken
  split at taken
  · rename_i request position
    obtain ⟨control, counted, rfl⟩ := Option.map_eq_some_iff.mp taken
    exact ⟨request, control, position, counted, rfl⟩
  · cases taken

theorem effect_disablePMU
    (taken : act state .disablePMU = some next) : Effect state next .disablePMU := by
  delta act at taken
  dsimp only at taken
  split at taken
  · rename_i idle
    cases taken
    exact ⟨idle, rfl⟩
  · cases taken

theorem effect_disableFixedPmc
    (taken : act state .disableFixedPmc = some next) : Effect state next .disableFixedPmc := by
  delta act at taken
  dsimp only at taken
  split at taken
  · rename_i position
    cases taken
    exact ⟨position, rfl⟩
  · cases taken

theorem effect_disable (taken : act state .disable = some next) : Effect state next .disable := by
  delta act at taken
  dsimp only at taken
  split at taken
  · rename_i position
    cases taken
    exact ⟨position, rfl⟩
  · cases taken

theorem effect_push {buffer tid : Nat}
    (taken : act state (.push buffer tid) = some next) : Effect state next (.push buffer tid) := by
  delta act at taken
  dsimp only at taken
  split at taken
  · rename_i position
    split at taken
    · rename_i free
      cases taken
      exact ⟨position, free, rfl⟩
    · cases taken
  · cases taken

theorem effect_snap {buffer : Nat}
    (taken : act state (.snap buffer) = some next) : Effect state next (.snap buffer) := by
  delta act at taken
  dsimp only at taken
  split at taken
  · rename_i position
    cases taken
    exact ⟨position, rfl⟩
  · cases taken

theorem effect_buildOwn {buffer : Nat} {opens : Bool}
    (taken : act state (.buildOwn buffer opens) = some next) :
    Effect state next (.buildOwn buffer opens) := by
  delta act at taken
  dsimp only at taken
  split at taken
  · rename_i generation eventAttrs position
    cases taken
    exact ⟨generation, eventAttrs, position, rfl⟩
  · cases taken

theorem effect_attach {buffer : Nat}
    (taken : act state (.attach buffer) = some next) : Effect state next (.attach buffer) := by
  delta act at taken
  dsimp only at taken
  split at taken
  · rename_i perfEventSet position
    obtain ⟨attached, done, rfl⟩ := Option.map_eq_some_iff.mp taken
    exact ⟨perfEventSet, attached, position, done, rfl⟩
  · cases taken

theorem effect_exit {buffer : Nat}
    (taken : act state (.exit buffer) = some next) : Effect state next (.exit buffer) := by
  delta act at taken
  dsimp only at taken
  split at taken
  · rename_i position
    cases taken
    exact ⟨position, rfl⟩
  · cases taken

theorem effect_of_act {action : Action} (taken : act state action = some next) :
    Effect state next action := by
  cases action with
  | enableGenericPmc count => exact effect_enableGenericPmc taken
  | enableFixedPmc index => exact effect_enableFixedPmc taken
  | enablePerfEvents request => exact effect_enablePerfEvents taken
  | readHead => exact effect_readHead taken
  | build opens => exact effect_build taken
  | attachAll => exact effect_attachAll taken
  | enabled => exact effect_enabled taken
  | disablePMU => exact effect_disablePMU taken
  | disableFixedPmc => exact effect_disableFixedPmc taken
  | disable => exact effect_disable taken
  | push buffer tid => exact effect_push taken
  | snap buffer => exact effect_snap taken
  | buildOwn buffer opens => exact effect_buildOwn taken
  | attach buffer => exact effect_attach taken
  | exit buffer => exact effect_exit taken

def Action.ofThread : Action → Bool
  | .push _ _ => true
  | .snap _ => true
  | .buildOwn _ _ => true
  | .attach _ => true
  | .exit _ => true
  | _ => false

theorem threads_outside {action : Action} (taken : act state action = some next)
    (own : action.ofThread = true) :
    next.control = state.control ∧ next.background = state.background ∧
      next.returned = state.returned := by
  have effect := effect_of_act taken
  cases action with
  | push buffer tid =>
      obtain ⟨-, -, rfl⟩ := effect
      exact ⟨rfl, rfl, rfl⟩
  | snap buffer =>
      obtain ⟨-, rfl⟩ := effect
      rw [stepSnap]
      split
      · exact ⟨rfl, rfl, rfl⟩
      · exact ⟨rfl, rfl, rfl⟩
  | buildOwn buffer opens =>
      obtain ⟨generation, eventAttrs, -, rfl⟩ := effect
      rw [stepBuildOwn]
      split
      · exact ⟨rfl, rfl, rfl⟩
      · exact ⟨rfl, rfl, rfl⟩
  | attach buffer =>
      obtain ⟨perfEventSet, attached, -, done, rfl⟩ := effect
      have outside := attachUnsafe_outside done
      exact ⟨outside.control, outside.background, outside.returned⟩
  | exit buffer =>
      obtain ⟨-, rfl⟩ := effect
      exact ⟨rfl, rfl, rfl⟩
  | _ => cases own

end Steps

end Xpedite.PerfSessions
