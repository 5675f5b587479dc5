import Xpedite.Framework.RecorderState
import Xpedite.Perf.PerfEvents

/-!
`PmuCtl` with its `PerfEventsCtl` while threads come and go.  The perf events of a thread may
fail to open, a thread may exit once it is registered, and a later one may have its `tid`; the
buffers stay in the list.  A region under the mutex is one step, and so is what only the
background thread reads.
-/

namespace Xpedite.PerfSessions

open Framework Lib

abbrev PerfEventSet : Type := Perf.PerfEventSet PerfEventAttr

/-- The set is empty unless every event can be opened and activated. -/
def buildPerfEvents (opens : Bool) (eventAttrs : List PerfEventAttr) (generation tid : Nat) :
    PerfEventSet :=
  if opens then ⟨eventAttrs.map fun attr => ⟨attr, tid⟩, generation, true⟩
  else Perf.PerfEventSet.new 0

inductive Background where
  | idle
  | published (request : PMUCtlRequest) (eventAttrs : List PerfEventAttr)
  | building (request : PMUCtlRequest) (eventAttrs : List PerfEventAttr)
      (buffers remaining : List Nat) (perfEventSets : List PerfEventSet)
  | attached (request : PMUCtlRequest)
  | genericDisabled
  | countersDisabled

inductive Thread where
  | unregistered
  | pushed
  | snapped (generation : Nat) (eventAttrs : List PerfEventAttr)
  | built (perfEventSet : PerfEventSet)
  | registered
  | exited

def Thread.hasExited : Thread → Bool
  | exited => true
  | _ => false

structure Visible where
  activeEventAttrs : List PerfEventAttr
  activeEvents : AList fun _ : Nat => Nat
  pmcCount : UInt8
  perfEventsEnabled : Bool
  recorder : RecorderCtl

structure State where
  control : Control
  -- the newest first
  buffers : List Nat
  tid : Nat → Nat
  activeEvents : AList fun _ : Nat => Nat
  -- the sets handed to `_inertEventsQueue`
  inertEvents : List Nat
  sets : Arena PerfEventSet
  perfEvents : Nat → Option Nat
  background : Background
  threads : Nat → Thread
  -- what was seen when `enablePerfEvents` was called, and what a call has just returned
  before : Visible
  returned : Option Bool

def State.visible (state : State) : Visible where
  activeEventAttrs := state.control.pmu.activeEventAttrs
  activeEvents := state.activeEvents
  pmcCount := state.control.pmu.pmcCount
  perfEventsEnabled := state.control.pmu.perfEventsEnabled
  recorder := state.control.recorder

def State.initial : State where
  control := initialControl
  buffers := []
  tid := fun _ => 0
  activeEvents := ∅
  inertEvents := []
  sets := Arena.empty (Perf.PerfEventSet.new 0)
  perfEvents := fun _ => none
  background := .idle
  threads := fun _ => .unregistered
  before := ⟨[], ∅, 0, false, activateRecorder .expandable⟩
  returned := none

def publishEventAttrs (control : Control) (eventAttrs : List PerfEventAttr) : Control :=
  { control with pmu := { control.pmu with
    activeEventAttrs := eventAttrs
    generation := control.pmu.generation + 1 } }

/-- The rest of `PmuCtl::enablePerfEvents`, after the events have been enabled. -/
def enableCounters (control : Control) (request : PMUCtlRequest) : Option Control :=
  (control.pmu.fixedPmcSet.enableAll (requestedIndices request)).map fun fixedPmcSet =>
    { pmu := { control.pmu with
        perfEventsEnabled := true
        genericPmcCount := request.gpEvtCount
        fixedPmcSet := fixedPmcSet }
      recorder := activateRecorder .perfEvents }

def supersedes (state : State) (perfEventSet : PerfEventSet) : Bool :=
  match state.activeEvents.lookup perfEventSet.tid with
  | none => true
  | some active =>
      (state.sets.cell active).size = 0 ||
        decide ((state.sets.cell active).generation < perfEventSet.generation)

def store (state : State) (buffer : Nat) (perfEventSet : PerfEventSet) : State :=
  { state with
    sets := state.sets.alloc perfEventSet
    activeEvents := state.activeEvents.insert perfEventSet.tid state.sets.size
    perfEvents := Function.update state.perfEvents buffer (some state.sets.size) }

/-- The second part is the set that has been replaced; there is no result when it throws. -/
def attachUnsafe (state : State) (buffer : Nat) (perfEventSet : PerfEventSet) :
    Option (State × Option Nat) :=
  if perfEventSet.tid ≠ state.tid buffer then none
  else if state.control.pmu.activeEventAttrs.isEmpty then some (state, none)
  else if supersedes state perfEventSet then
    some (store state buffer perfEventSet, state.activeEvents.lookup perfEventSet.tid)
  else some (state, none)

def retire (state : State) (inert : Option Nat) : State :=
  { state with
    inertEvents :=
      state.inertEvents ++ inert.toList.filter fun set => decide (0 < (state.sets.cell set).size) }

def attachAll (state : State) : List Nat → List PerfEventSet → Option State
  | [], _ => some state
  | _ :: _, [] => none
  | buffer :: buffers, perfEventSet :: perfEventSets =>
      (attachUnsafe state buffer perfEventSet).bind fun attached =>
        attachAll (retire attached.1 attached.2) buffers perfEventSets

def deactivateSets (state : State) (inert : List Nat) : State :=
  { state with
    sets := inert.foldl (fun sets set => sets.modify set Perf.PerfEventSet.deactivate) state.sets }

def State.setThread (state : State) (buffer : Nat) (thread : Thread) : State :=
  { state with threads := Function.update state.threads buffer thread }

theorem State.threads_setThread (state : State) (buffer : Nat) (thread : Thread) :
    (state.setThread buffer thread).threads buffer = thread := by
  simp [State.setThread]

theorem State.threads_setThread_of_ne (state : State) {buffer other : Nat} (thread : Thread)
    (different : other ≠ buffer) :
    (state.setThread buffer thread).threads other = state.threads other := by
  simp [State.setThread, different]

/--
The steps of a call of the background thread, those of the constructor of a buffer, and the
exit of a thread.  The events of a thread are built with or without success.
-/
inductive Action where
  | enableGenericPmc (genericPmcCount : UInt8)
  | enableFixedPmc (index : UInt8)
  | enablePerfEvents (request : PMUCtlRequest)
  | readHead
  | build (opens : Bool)
  | attachAll
  | enabled
  | disablePMU
  | disableFixedPmc
  | disable
  | push (buffer tid : Nat)
  | snap (buffer : Nat)
  | buildOwn (buffer : Nat) (opens : Bool)
  | attach (buffer : Nat)
  | exit (buffer : Nat)

def stepEnable (state : State) (request : PMUCtlRequest) : State :=
  let refused := { state with before := state.visible, returned := some false }
  match buildEventSet request with
  | none => refused
  | some eventSet =>
      let eventAttrs := buildPerfEventAttrs eventSet
      if state.control.pmu.perfEventsEnabled || eventAttrs.isEmpty then refused
      else { state with
        before := state.visible
        control := publishEventAttrs state.control eventAttrs
        background := .published request eventAttrs }

/-- The call returns, and leaves the attributes published, when a set is not complete. -/
def stepBuild (state : State) (opens : Bool) (request : PMUCtlRequest)
    (eventAttrs : List PerfEventAttr) (buffers : List Nat) (buffer : Nat) (remaining : List Nat)
    (perfEventSets : List PerfEventSet) : State :=
  let perfEventSet :=
    buildPerfEvents opens eventAttrs state.control.pmu.generation (state.tid buffer)
  if perfEventSet.size ≠ eventAttrs.length then
    { state with background := .idle, returned := some false }
  else { state with
    background := .building request eventAttrs buffers remaining (perfEventSets ++ [perfEventSet]) }

/-- Without perf events the counters are disabled at once. -/
def stepDisablePMU (state : State) : State :=
  if state.control.pmu.perfEventsEnabled then
    { state with control := state.control.disableGenericPmc, background := .genericDisabled }
  else { state with control := state.control.disableGenericPmc.disableFixedPmc }

/-- `PerfEventsCtl::disable`; the sets that were active are deactivated. -/
def stepDisable (state : State) : State :=
  let removed := state.activeEvents.entries.map Sigma.snd
  { deactivateSets state removed with
    control := { state.control with pmu := { state.control.pmu with
      activeEventAttrs := []
      perfEventsEnabled := false } }
    activeEvents := ∅
    inertEvents := state.inertEvents ++ removed
    background := .idle }

def stepSnap (state : State) (buffer : Nat) : State :=
  if state.control.pmu.activeEventAttrs.isEmpty then state.setThread buffer .registered
  else state.setThread buffer
    (.snapped state.control.pmu.generation state.control.pmu.activeEventAttrs)

def stepBuildOwn (state : State) (buffer : Nat) (opens : Bool) (generation : Nat)
    (eventAttrs : List PerfEventAttr) : State :=
  let perfEventSet := buildPerfEvents opens eventAttrs generation (state.tid buffer)
  if perfEventSet.size = eventAttrs.length then state.setThread buffer (.built perfEventSet)
  else state.setThread buffer .registered

/-- The set that is replaced goes out of scope with the call. -/
def stepAttach (state : State) (buffer : Nat) (perfEventSet : PerfEventSet) : Option State :=
  (attachUnsafe state buffer perfEventSet).map fun attached =>
    (deactivateSets attached.1 attached.2.toList).setThread buffer .registered

def isFree (state : State) (tid : Nat) : Bool :=
  state.buffers.all fun buffer => state.tid buffer != tid || (state.threads buffer).hasExited

def stepPush (state : State) (buffer tid : Nat) : State :=
  { state with
    buffers := buffer :: state.buffers
    tid := Function.update state.tid buffer tid }.setThread buffer .pushed

def act (state : State) : Action → Option State
  | .enableGenericPmc genericPmcCount =>
      match state.background with
      | .idle => some { state with control := state.control.enableGenericPmc genericPmcCount }
      | _ => none
  | .enableFixedPmc index =>
      match state.background with
      | .idle => (state.control.enableFixedPmc index).map fun control =>
          { state with control := control }
      | _ => none
  | .enablePerfEvents request =>
      match state.background with
      | .idle => some (stepEnable state request)
      | _ => none
  | .readHead =>
      match state.background with
      | .published request eventAttrs => some { state with
          background := .building request eventAttrs state.buffers state.buffers [] }
      | _ => none
  | .build opens =>
      match state.background with
      | .building request eventAttrs buffers (buffer :: remaining) perfEventSets =>
          some (stepBuild state opens request eventAttrs buffers buffer remaining perfEventSets)
      | _ => none
  | .attachAll =>
      match state.background with
      | .building request _ buffers [] perfEventSets =>
          (attachAll state buffers perfEventSets).map fun attached =>
            { attached with background := .attached request }
      | _ => none
  | .enabled =>
      match state.background with
      | .attached request => (enableCounters state.control request).map fun control =>
          { state with control := control, background := .idle, returned := some true }
      | _ => none
  | .disablePMU =>
      match state.background with
      | .idle => some (stepDisablePMU state)
      | _ => none
  | .disableFixedPmc =>
      match state.background with
      | .genericDisabled => some { state with
          control := state.control.disableFixedPmc
          background := .countersDisabled }
      | _ => none
  | .disable =>
      match state.background with
      | .countersDisabled => some (stepDisable state)
      | _ => none
  | .push buffer tid =>
      match state.threads buffer with
      | .unregistered => if isFree state tid then some (stepPush state buffer tid) else none
      | _ => none
  | .snap buffer =>
      match state.threads buffer with
      | .pushed => some (stepSnap state buffer)
      | _ => none
  | .buildOwn buffer opens =>
      match state.threads buffer with
      | .snapped generation eventAttrs =>
          some (stepBuildOwn state buffer opens generation eventAttrs)
      | _ => none
  | .attach buffer =>
      match state.threads buffer with
      | .built perfEventSet => stepAttach state buffer perfEventSet
      | _ => none
  | .exit buffer =>
      match state.threads buffer with
      | .registered => some (state.setThread buffer .exited)
      | _ => none

def step (state : State) (action : Action) : Option State :=
  act { state with returned := none } action

end Xpedite.PerfSessions
