import Xpedite.Framework.ProbeLocation
import Xpedite.Lib.LooseDict
import Xpedite.Probes.ListingCore
import Xpedite.Session.Admin
import Xpedite.Timelines.TimelineCore

/-!
Probes that a profiler enables by their names: `resolveProbes` and `enableProbes` of
`xpedite/profiler/runtime.py`, with `resolver.py` and `probeAdmin.py`, over calls of `admin`.  The
target answers each call from its state, and what it lists is that state.
-/

namespace Xpedite.Enabling

open Lib
open Framework (Environment State executeFrame)
open Framework.ProbeAdmin (basename)
open Probes (AnchoredProbe logProbes recordsOf)
open Probes.ProbeFactory (buildFromRecords)
open Session (AdminResult adminResult)
open Timelines (Location)

/-- What a probe is listed with, besides what the state of the target has of it. -/
structure Site where
  address : UInt64
  rawCallSite : UInt64
  recorderReturnSite : UInt64
  func : List Char
  attr : UInt32
  id : UInt32

/-- `markActive` and `markInActive` change the attributes of a probe. -/
def Site.listed (site : Site) (probe : Framework.Probe) : Probes.Probe where
  address := site.address
  rawCallSite := site.rawCallSite
  recorderReturnSite := site.recorderReturnSite
  name := probe.name
  file := probe.file
  func := site.func
  line := probe.line
  attr := ⟨if probe.active then site.attr ||| 1 else site.attr &&& ~~~1⟩
  id := site.id

def listing (sites : List Site) (state : State) : List Probes.Probe :=
  (sites.zip state.probes).map fun entry => entry.1.listed entry.2

/-- The exceptions, by what goes into their texts. -/
inductive ProbeFailure where
  | admin (result : AdminResult)
  | noProbes
  | records (failure : Probes.Failure)
  | unlocated (sysName : List Char)
  | anchor (failure : Probes.Failure)
  | failed (errCount : Nat) (errMsg : List Char)

structure Target where
  environment : Environment
  sites : List Site
  workspace : Option (List Char)

/-- The state of the target, and the names that `ProbeResolver` has looked up once. -/
structure Connection where
  state : State
  anchoredProbeMap : Option (OrderedDict (List Char) (List AnchoredProbe))

abbrev Call : Type → Type := ExceptT ProbeFailure (StateM Connection)

/-- `Probe` of `xpedite/types/probe.py`, which must have a name in the source. -/
structure NamedProbe where
  name : List Char
  sysName : List Char
  named : sysName ≠ []

inductive ProfileProbe where
  | probe (probe : NamedProbe)
  | anchored (probe : AnchoredProbe)

def dirname (filePath : List Char) : List Char :=
  let head := filePath.take (filePath.length - (basename filePath).length)
  if head.all (· = '/') then head else (head.reverse.dropWhile (· = '/')).reverse

namespace AnchoredProbe

/-- The lines of all probes are not negative. -/
def location (probe : AnchoredProbe) : Location where
  path := dirname probe.filePath
  fileName := String.ofList (basename probe.filePath)
  lineNo := probe.lineNo.toNat

def getCanonicalName (probe : AnchoredProbe) : List Char :=
  if probe.sysName ≠ [] then probe.sysName
  else basename probe.filePath ++ ':' :: decimal probe.lineNo

def repr (probe : AnchoredProbe) : List Char := "AnchoredProbe@".toList ++ getCanonicalName probe

/-- The constructor, for the line of a probe that was located. -/
def locate (name : List Char) (probe : AnchoredProbe) : Except Probes.Failure AnchoredProbe :=
  if probe.filePath = [] ∨ probe.lineNo = 0 then .error (.invalidAnchor name)
  else .ok (Probes.AnchoredProbe.initAttributes
    { name := name
      sysName := probe.sysName
      filePath := probe.filePath
      lineNo := probe.lineNo
      attributes := probe.attributes
      isAnonymous := false
      isActive := probe.isActive
      canBeginTxn := false
      canSuspendTxn := false
      canResumeTxn := false
      canEndTxn := false
      canStoreData := none })

end AnchoredProbe

namespace ProbeAdmin

variable (target : Target)

/-- A call that is neither cut off nor timed out, with the text that the client reads. -/
def admin (cmd : List Char) : Call (List Char) := fun connection =>
  let environment :=
    { target.environment with
      probeListing := String.ofList (logProbes (listing target.sites connection.state)) }
  match executeFrame environment connection.state (utf8 cmd) with
  | .returns state response =>
      let connection := { connection with state := state }
      match adminResult response with
      | .result text => (.ok text, connection)
      | raised => (.error (.admin raised), connection)
  | _ => (.error (.admin (.unread .closed)), connection)

def getProbes : Call (List AnchoredProbe) := do
  let result ← admin target "ListProbes".toList
  if result = [] then throw .noProbes
  match buildFromRecords target.workspace (recordsOf result) with
  | .ok probes => return probes.map Prod.snd
  | .error failure => throw (.records failure)

def updateProbe (targetState : Bool) (anchoredProbe : AnchoredProbe) : Call Unit := do
  let _ ← admin target
    (Framework.ProbeAdmin.updateProbe anchoredProbe.filePath anchoredProbe.lineNo.toNat targetState)

def targetStateStr (targetState : Bool) : List Char :=
  if targetState then "enable".toList else "disable".toList

/-- The probes are keys by their location, which is all that their `__eq__` looks at. -/
abbrev ProbeMap : Type := List (Location × Bool)

def probeMap (probes : List AnchoredProbe) : ProbeMap :=
  probes.foldl (fun probeMap probe =>
    LooseDict.update Location.eq (AnchoredProbe.location probe) probe.isActive probeMap) []

def problem (targetState : Bool) (probeMap : ProbeMap) (probe : AnchoredProbe) :
    Option (List Char) :=
  match LooseDict.get Location.eq (AnchoredProbe.location probe) probeMap with
  | some isActive =>
      if isActive ≠ targetState then
        some ("failed to ".toList ++ targetStateStr targetState ++ " probe ".toList ++
          AnchoredProbe.repr probe)
      else none
  | none =>
      some ("failed to enable probe ".toList ++ AnchoredProbe.repr probe ++
        ". Please make sure, ".toList ++ AnchoredProbe.repr probe ++ " is a valid probe".toList)

def addError (errors : Nat × List Char) (errMsg : List Char) : Nat × List Char :=
  (errors.1 + 1, errors.2 ++ (if errors.1 > 0 then ['\n'] else []) ++ errMsg)

def check (targetState : Bool) (probes anchoredProbes : List AnchoredProbe) : Nat × List Char :=
  if probes = [] then (0, [])
  else (anchoredProbes.filterMap (problem targetState (probeMap probes))).foldl addError (0, [])

def updateProbes (anchoredProbes : List AnchoredProbe) (targetState : Bool) :
    Call (Nat × List Char) := do
  anchoredProbes.forM (updateProbe target targetState)
  let probes ← getProbes target
  return check targetState probes anchoredProbes

end ProbeAdmin

namespace ProbeResolver

open ProbeAdmin

variable (target : Target)

def addProbe (map : OrderedDict (List Char) (List AnchoredProbe)) (liveProbe : AnchoredProbe) :
    OrderedDict (List Char) (List AnchoredProbe) :=
  if liveProbe.sysName = [] then map
  else
    match map.get liveProbe.sysName with
    | some probes => map.update liveProbe.sysName (probes ++ [liveProbe])
    | none => map.update liveProbe.sysName [liveProbe]

/-- The map is empty while the probes are fetched. -/
def anchoredProbeMap : Call (OrderedDict (List Char) (List AnchoredProbe)) := do
  match (← get).anchoredProbeMap with
  | some map => return map
  | none =>
      modify fun connection => { connection with anchoredProbeMap := some [] }
      let map := (← getProbes target).foldl addProbe []
      modify fun connection => { connection with anchoredProbeMap := some map }
      return map

def resolveAnchoredProbe (sysName : List Char) : Call (Option (List AnchoredProbe)) := do
  return (← anchoredProbeMap target).get sysName

end ProbeResolver

namespace Runtime

variable (target : Target)

def resolveProbe : ProfileProbe → Call (List AnchoredProbe)
  | .anchored probe => return [probe]
  | .probe probe => do
      match ← ProbeResolver.resolveAnchoredProbe target probe.sysName with
      | none => throw (.unlocated probe.sysName)
      | some resolvedProbes =>
          match resolvedProbes.mapM (AnchoredProbe.locate probe.name) with
          | .ok anchoredProbes => return anchoredProbes
          | .error failure => throw (.anchor failure)

def resolveProbes (probes : List ProfileProbe) : Call (List AnchoredProbe) := do
  return (← probes.mapM (resolveProbe target)).flatten

/-- Without events to count; an empty list is left with a warning. -/
def enableProbes (probes : List AnchoredProbe) : Call Unit := do
  if probes ≠ [] then
    let (errCount, errMsg) ← ProbeAdmin.updateProbes target probes true
    if errCount > 0 then throw (.failed errCount errMsg)

def activate (probes : List ProfileProbe) : Call Unit := do
  enableProbes target (← resolveProbes target probes)

end Runtime

end Xpedite.Enabling
