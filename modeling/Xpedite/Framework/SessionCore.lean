import Xpedite.Framework.HandlerCore

/-!
The two kinds of session: `Framework::beginProfile` and `endProfile` with `LocalSession.H`, and
`RemoteSession::resetClient`.
-/

namespace Xpedite.Framework

inductive SessionType where
  | dormant
  | remote
  | «local»
  deriving DecidableEq

structure Process where
  sessionType : SessionType
  processName : List Char
  time : Nat

/-- `LocalSession::poll` for a request that has been enqueued. -/
def executeLocal (environment : Environment) (process : Process) (state : State)
    (request : Request) : Outcome Response :=
  if process.sessionType = .dormant ∨ process.sessionType = .local then
    execute environment state request
  else
    .returns state
      (.errors "xpedite dectected active session - multiple sessions not supported")

structure ProfileInfo where
  probes : List ProbeKey
  pmuRequest : PMUCtlRequest
  samplesDataCapacity : UInt64
  recorder : Option Nat
  dataProbeRecorder : Option Nat

inductive SessionGuard where
  | alive
  | invalid (errors : String)

def StorageMgr.buildSamplesFileTemplate (process : Process) : List Char :=
  "/dev/shm/".toList ++ "xpedite-".toList ++ process.processName ++ "-".toList ++
    Nat.toDigits 10 process.time ++ "-*".toList ++ ".data".toList

def endProfile (environment : Environment) (process : Process) (state : State) : Outcome Unit :=
  match executeLocal environment process state .profileDeactivation with
  | .returns state _ => .returns state ()
  | .throws state => .throws state
  | .terminates => .terminates

/-- Go on with a state if the request was answered with success.  Otherwise its errors are given up,
and the guard that `beginProfile` starts with ends the profile as it is destroyed. -/
def require (environment : Environment) (process : Process) (answered : Outcome Response)
    (context : String) (proceed : State → Outcome SessionGuard) : Outcome SessionGuard :=
  match answered with
  | .returns state (.value _) => proceed state
  | .returns state (.errors text) =>
      match endProfile environment process state with
      | .returns state () => .returns state (.invalid (context ++ text))
      | .throws state => .throws state
      | .terminates => .terminates
  | .throws state => .throws state
  | .terminates => .terminates

def activateProfile (environment : Environment) (process : Process) (info : ProfileInfo)
    (state : State) : Outcome SessionGuard :=
  require environment process
    (executeLocal environment process state
      (.profileActivation (StorageMgr.buildSamplesFileTemplate process) 1 info.samplesDataCapacity
        info.recorder info.dataProbeRecorder))
    "xpedite failed to activate profile - " fun state => .returns state .alive

/-- Once a request has been executed the session is a local one. -/
def activateProbes (environment : Environment) (process : Process) (info : ProfileInfo)
    (state : State) : Outcome SessionGuard :=
  require environment process
    (executeLocal environment process state (.probeActivation info.probes))
    "xpedite failed to enable probes - "
    (activateProfile environment { process with sessionType := .local } info)

def beginProfile (environment : Environment) (process : Process) (state : State)
    (info : ProfileInfo) : Outcome SessionGuard :=
  if eventCount info.pmuRequest ≠ 0 then
    require environment process
      (executeLocal environment process state (.perfEventsActivation info.pmuRequest))
      "xpedite failed to enable perf events - "
      (activateProbes environment { process with sessionType := .local } info)
  else activateProbes environment process info state

def resetClient (environment : Environment) (state : State) : Outcome Unit :=
  if Handler.isProfileActive state then
    match Handler.endProfile environment state with
    | .returns state _ => .returns state ()
    | .throws state => .throws state
    | .terminates => .terminates
  else .returns state ()

end Xpedite.Framework
