import Mathlib.Data.List.Infix
import Xpedite.Framework.PmuCore

/-!
Requests and what they do to the target: `Probe::match`, `probeCtl`, `Profile.H`,
`Handler.C`, `ProfileRequest.H`, `ProbeRequest.H` and `Request.H`.  What depends on the
system the target runs on is a parameter, `Environment`.
-/

namespace Xpedite.Framework

structure Environment where
  tscHz : Nat
  -- the text `logProbes` writes
  probeListing : String
  -- the perf events of every thread can be opened and mapped
  perfEventsBuild : Bool
  -- the constructor of `Collector` returns, the samples directory being readable
  collectorBuilds : Bool
  -- a samples file can be opened for every thread
  readersAttach : Bool
  -- the last poll of a session finds a buffer with an overflow
  samplesOverflow : Bool
  -- the bytes of the stack that a thread has left for an array
  stackRoom : Nat
  -- what is read of the name of the n-th key of a request, the copy of it being destroyed
  dangling : Nat → List Char → List Char

def willing : Environment where
  tscHz := 2000000000
  probeListing := ""
  perfEventsBuild := true
  collectorBuilds := true
  readersAttach := true
  samplesOverflow := false
  stackRoom := 8000000
  dangling := fun _ name => name

def cStr (text : List Char) : List Char := text.takeWhile (· ≠ '\x00')

structure ProbeKey where
  name : List Char
  file : List Char
  line : UInt32
  deriving DecidableEq

/-- What `probeCtl` gets of a key: `name()` returns a copy, which is destroyed before the pointer
to its characters is used. -/
def ProbeKey.pointed (key : ProbeKey) (bytes : List Char) : ProbeKey :=
  { key with name := if key.name = [] then [] else bytes ++ ['\x00'] }

def Environment.pointed (environment : Environment) (keys : List ProbeKey) :
    List (ProbeKey × ProbeKey) :=
  keys.zipIdx.map fun entry =>
    (entry.1, entry.1.pointed (environment.dangling entry.2 entry.1.name))

structure Probe where
  name : List Char
  file : List Char
  line : UInt32
  -- the code segment of the call site can be made writable
  patchable : Bool
  active : Bool
  deriving DecidableEq

namespace Probe

/-- An empty name is passed as a null pointer. -/
def matchName (probe : Probe) (name : List Char) : Bool := name ≠ [] ∧ probe.name = cStr name

def matchLocation (probe : Probe) (file : List Char) (line : UInt32) : Bool :=
  cStr file ≠ [] ∧ cStr file <:+: probe.file ∧ (line = 0 ∨ probe.line = line)

def «match» (probe : Probe) (key : ProbeKey) : Bool :=
  probe.matchName key.name || probe.matchLocation key.file key.line

def activate (probe : Probe) : Probe :=
  if probe.patchable then { probe with active := true } else probe

def deactivate (probe : Probe) : Probe :=
  if probe.patchable then { probe with active := false } else probe

end Probe

inductive Command where
  | enable
  | disable

def probeCtl (command : Command) (key : ProbeKey) (probes : List Probe) : List Probe :=
  probes.map fun probe =>
    if probe.match key then
      match command with
      | .enable => probe.activate
      | .disable => probe.deactivate
    else probe

structure Collector where
  fileNamePattern : List Char
  samplesDataCapacity : UInt64

structure State where
  probes : List Probe
  activeProbes : List ProbeKey
  control : Control
  collector : Option Collector
  pollInterval : UInt32

def State.new (probes : List Probe) : State where
  probes := probes
  activeProbes := []
  control := ⟨PmuCtl.new, activateRecorder .expandable⟩
  collector := none
  pollInterval := 10

/-- An exception leaves a state behind; one that leaves a `noexcept` function does not. -/
inductive Outcome (α : Type) where
  | returns (state : State) (value : α)
  | throws (state : State)
  | terminates

namespace Profile

def activateProbe (state : State) (key pointed : ProbeKey) : State :=
  { state with
    probes := probeCtl .enable pointed state.probes
    activeProbes := state.activeProbes.insert key }

def deactivateProbe (state : State) (key pointed : ProbeKey) : State :=
  { state with
    activeProbes := state.activeProbes.erase key
    probes := probeCtl .disable pointed state.probes }

def activateProbes (entries : List (ProbeKey × ProbeKey)) (state : State) : State :=
  entries.foldl (fun state entry => activateProbe state entry.1 entry.2) state

def deactivateProbes (entries : List (ProbeKey × ProbeKey)) (state : State) : State :=
  entries.foldl (fun state entry => deactivateProbe state entry.1 entry.2) state

/-- The keys stay in `_activeProbes`; their names are copied for the time of the call. -/
def stop (state : State) : State :=
  let probes := state.activeProbes.foldl (fun probes key => probeCtl .disable key probes) state.probes
  let control := state.control.disablePMU
  { state with
    probes := probes
    control :=
      if control.recorder.activeRecorderType = .custom then control.activate .expandable
      else control }

end Profile

namespace Handler

def ping : String := "hello"

def isProfileActive (state : State) : Bool := state.collector.isSome

def beginProfile (environment : Environment) (state : State) (samplesFilePattern : List Char)
    (pollInterval : UInt32) (samplesDataCapacity : UInt64) : Outcome String :=
  if isProfileActive state then
    .returns state "xpedite failed to begin profile - session already active"
  else if samplesFilePattern.isEmpty then
    .returns state "xpedite failed to begin profile - samples file pattern not specified"
  else if state.pollInterval = 0 then
    .returns state
      "xpedite failed to begin profile - poll interval must be a valid number of milli seconds"
  else
    let state := { state with pollInterval := pollInterval }
    if !environment.collectorBuilds then .throws state
    else if !environment.readersAttach then
      .returns state
        "xpedite - failed to initialize collector - check application stdout for more details"
    else
      .returns { state with collector := some ⟨samplesFilePattern, samplesDataCapacity⟩ } ""

def endProfile (environment : Environment) (state : State) : Outcome String :=
  let state := Profile.stop state
  match state.collector with
  | none => .returns state "profiling not active - can't end something that's not started"
  | some _ =>
      if environment.samplesOverflow then .throws state
      else .returns { state with collector := none } ""

def enableGpPMU (state : State) (count : Int) : State :=
  { state with control := state.control.enableGenericPmc (UInt8.ofInt count) }

def enableFixedPMU (state : State) (index : Int) : Option State :=
  (state.control.enableFixedPmc (UInt8.ofInt index)).map fun control =>
    { state with control := control }

end Handler

inductive Request where
  | ping
  | tsc
  | probeList
  | probeActivation (keys : List ProbeKey)
  | probeDeactivation (keys : List ProbeKey)
  | pmuActivation (gpEventsCount : Int) (fixedEventIndices : List Int)
  | perfEventsActivation (request : PMUCtlRequest)
  | pmuDeactivation
  | profileActivation (samplesFilePattern : List Char) (pollInterval : UInt32)
      (samplesDataCapacity : UInt64) (recorder dataProbeRecorder : Option Nat)
  | profileDeactivation
  | invalid (errors : String)

inductive Response where
  | value (text : String)
  | errors (text : String)

def Response.success : Response → Bool
  | .value _ => true
  | .errors _ => false

def respond : Outcome String → Outcome Response
  | .returns state errors => .returns state (if errors = "" then .value "" else .errors errors)
  | .throws state => .throws state
  | .terminates => .terminates

def executeProfileActivation (environment : Environment) (state : State)
    (samplesFilePattern : List Char) (pollInterval : UInt32) (samplesDataCapacity : UInt64)
    (recorder dataProbeRecorder : Option Nat) : Outcome Response :=
  if recorder.isSome || dataProbeRecorder.isSome then
    match activateCustomRecorder state.control.recorder recorder dataProbeRecorder with
    | (_, false) => .returns state (.errors "Failed to activate custom recorder")
    | (ctl, true) =>
        respond (Handler.beginProfile environment
          { state with control := { state.control with recorder := ctl } }
          samplesFilePattern pollInterval samplesDataCapacity)
  else
    respond (Handler.beginProfile environment state samplesFilePattern pollInterval
      samplesDataCapacity)

def execute (environment : Environment) (state : State) : Request → Outcome Response
  | .ping => .returns state (.value Handler.ping)
  | .tsc => .returns state (.value (toString environment.tscHz))
  | .probeList => .returns state (.value environment.probeListing)
  | .probeActivation keys =>
      .returns (Profile.activateProbes (environment.pointed keys) state) (.value "")
  | .probeDeactivation keys =>
      .returns (Profile.deactivateProbes (environment.pointed keys) state) (.value "")
  | .pmuActivation gpEventsCount fixedEventIndices =>
      match fixedEventIndices.foldlM Handler.enableFixedPMU
          (Handler.enableGpPMU state gpEventsCount) with
      | none => .terminates
      | some state => .returns state (.value "")
  | .perfEventsActivation request =>
      match state.control.enablePerfEvents request environment.perfEventsBuild with
      | none => .throws state
      | some (control, true) => .returns { state with control := control } (.value "")
      | some (control, false) =>
          .returns { state with control := control }
            (.errors "Failed to enable perf events - check target app stdout for more details.")
  | .pmuDeactivation =>
      .returns { state with control := state.control.disablePMU } (.value "")
  | .profileActivation samplesFilePattern pollInterval samplesDataCapacity recorder
      dataProbeRecorder =>
      executeProfileActivation environment state samplesFilePattern pollInterval
        samplesDataCapacity recorder dataProbeRecorder
  | .profileDeactivation => respond (Handler.endProfile environment state)
  | .invalid errors => .returns state (.errors errors)

end Xpedite.Framework
