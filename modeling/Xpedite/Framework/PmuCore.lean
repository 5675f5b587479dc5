import Mathlib.Data.Fin.VecNotation
import Xpedite.Samples.SampleCore

/-!
Programming of the counters: `xpedite/pmu/PMUCtl.C`, `FixedPmcSet.H`, `EventSet.c`,
`PerfEventAttrSet.C` and `xpedite/probes/RecorderCtl.C`, as the background thread executes
them.  Log messages and the trampolines, which follow from the type of recorder, are left
out.
-/

namespace Xpedite.Framework

open Lib

inductive RecorderType where
  | trivial
  | expandable
  | pmc
  | perfEvents
  | logging
  | custom
  deriving DecidableEq

inductive Recorder where
  | xpediteRecord
  | xpediteExpandAndRecord
  | xpediteRecordPmc
  | xpediteRecordPerfEvents
  | xpediteRecordAndLog
  | other (address : Nat)
  deriving DecidableEq

structure RecorderCtl where
  activeRecorderType : RecorderType
  activeXpediteRecorder : Recorder
  activeXpediteDataProbeRecorder : Recorder
  deriving DecidableEq

/-- The tables `_recorders` and `_dataRecorders`, whose entries correspond. -/
def recorders : RecorderType → Recorder
  | .trivial => .xpediteRecord
  | .expandable => .xpediteExpandAndRecord
  | .pmc => .xpediteRecordPmc
  | .perfEvents => .xpediteRecordPerfEvents
  | .logging => .xpediteRecordAndLog
  | .custom => .xpediteExpandAndRecord

def activateRecorder (type : RecorderType) : RecorderCtl := ⟨type, recorders type, recorders type⟩

/-- A callback that is not given is a null pointer. -/
def activateCustomRecorder (ctl : RecorderCtl) (recorder dataProbeRecorder : Option Nat) :
    RecorderCtl × Bool :=
  match recorder, dataProbeRecorder with
  | some recorder, some dataProbeRecorder =>
      (⟨.custom, .other recorder, .other dataProbeRecorder⟩, true)
  | _, _ => (ctl, false)

/-- The three bits of `_counterSet` that can be set. -/
structure FixedPmcSet where
  instRetiredAny : Bool
  cpuClkUnhaltedCore : Bool
  cpuClkUnhaltedRef : Bool
  deriving DecidableEq

namespace FixedPmcSet

def new : FixedPmcSet := ⟨false, false, false⟩

def size (set : FixedPmcSet) : Nat :=
  set.instRetiredAny.toNat + set.cpuClkUnhaltedCore.toNat + set.cpuClkUnhaltedRef.toNat

/-- There is no result when the index is not one of a fixed counter and an exception is thrown. -/
def enable (set : FixedPmcSet) (index : UInt8) : Option FixedPmcSet :=
  if index = 0 then some { set with instRetiredAny := true }
  else if index = 1 then some { set with cpuClkUnhaltedCore := true }
  else if index = 2 then some { set with cpuClkUnhaltedRef := true }
  else none

def enableAll (set : FixedPmcSet) (indices : List UInt8) : Option FixedPmcSet :=
  indices.foldlM enable set

end FixedPmcSet

structure PMUFixedEvent where
  ctrIndex : UInt8
  user : UInt8
  kernel : UInt8

structure PMUGpEvent where
  eventSelect : UInt8
  unitMask : UInt8
  user : UInt8
  kernel : UInt8
  invertCMask : UInt8
  counterMask : UInt8
  edgeDetect : UInt8
  anyThread : UInt8

structure PMUCtlRequest where
  cpu : UInt8
  fixedEvtCount : UInt8
  gpEvtCount : UInt8
  offcoreEvtCount : UInt8
  fixedEvents : Fin 3 → PMUFixedEvent
  gpEvents : Fin 8 → PMUGpEvent
  offcoreEvents : Fin 2 → UInt64

def eventCount (request : PMUCtlRequest) : Nat :=
  request.fixedEvtCount.toNat + request.gpEvtCount.toNat

structure PerfEvtSelReg where
  eventSelect : UInt8
  unitMask : UInt8
  user : Bool
  kernel : Bool
  edgeDetect : Bool
  pinControl : Bool
  interruptEn : Bool
  anyThread : Bool
  enable : Bool
  invertCMask : Bool
  counterMask : UInt8

def buildPerfEvtSelBitmask (event : PMUGpEvent) : PerfEvtSelReg where
  eventSelect := event.eventSelect
  unitMask := event.unitMask
  user := event.user != 0
  kernel := event.kernel != 0
  edgeDetect := event.edgeDetect != 0
  pinControl := false
  interruptEn := false
  anyThread := event.anyThread != 0
  enable := true
  invertCMask := event.invertCMask != 0
  counterMask := event.counterMask

def firstOf {α : Type} {capacity : Nat} (events : Fin capacity → α) (count : UInt8) : List α :=
  (List.ofFn events).take count.toNat

/-- The bits are kept as the counters they stand for; no bit at all is returned for an error. -/
def buildFixedEvtGlobalCtlBitmask (fixedEvents : List PMUFixedEvent) : Option FixedPmcSet :=
  FixedPmcSet.new.enableAll (fixedEvents.map PMUFixedEvent.ctrIndex)

def fixedEventEnablemask (event : PMUFixedEvent) : Nat :=
  if event.user ≠ 0 ∧ event.kernel ≠ 0 then 3 else if event.user ≠ 0 then 2 else 1

/-- `_enable0`, `_enable1` or `_enable2` of the register `buildFixedEvtSelBitmask` builds. -/
def fixedEvtEnable (fixedEvents : List PMUFixedEvent) (ctrIndex : UInt8) : Nat :=
  match fixedEvents.find? fun event => event.ctrIndex == ctrIndex with
  | none => 0
  | some event => fixedEventEnablemask event

structure EventSet where
  fixedEvtGlobalCtl : FixedPmcSet
  gpEvtSel : List PerfEvtSelReg
  offcoreEvtSel : List UInt64
  fixedEvtSel : UInt8 → Nat

/-- There is no result when a number other than 0 is returned. -/
def buildEventSet (request : PMUCtlRequest) : Option EventSet :=
  if 3 < request.fixedEvtCount then none
  else if 8 < request.gpEvtCount then none
  else if 2 < request.offcoreEvtCount then none
  else
    let fixedEvents := firstOf request.fixedEvents request.fixedEvtCount
    (buildFixedEvtGlobalCtlBitmask fixedEvents).map fun fixedEvtGlobalCtl =>
      { fixedEvtGlobalCtl := fixedEvtGlobalCtl
        gpEvtSel := (firstOf request.gpEvents request.gpEvtCount).map buildPerfEvtSelBitmask
        offcoreEvtSel := firstOf request.offcoreEvents request.offcoreEvtCount
        fixedEvtSel := fixedEvtEnable fixedEvents }

inductive PerfType where
  | hardware
  | raw
  deriving DecidableEq

structure PerfEventAttr where
  type : PerfType
  config : Nat
  excludeUser : Bool
  excludeKernel : Bool

def gpEventAttr (reg : PerfEvtSelReg) : PerfEventAttr :=
  ⟨.raw, reg.unitMask.toNat * 2 ^ 8 + reg.eventSelect.toNat, !reg.user, !reg.kernel⟩

def fixedEventAttr (enabled : Bool) (mask : Nat) (type : PerfType) (config : Nat) :
    List PerfEventAttr :=
  if enabled then [⟨type, config, mask &&& 2 = 0, mask &&& 1 = 0⟩] else []

def buildPerfEventAttrs (eventSet : EventSet) : List PerfEventAttr :=
  eventSet.gpEvtSel.map gpEventAttr ++
    fixedEventAttr eventSet.fixedEvtGlobalCtl.instRetiredAny (eventSet.fixedEvtSel 0) .hardware 1 ++
    fixedEventAttr eventSet.fixedEvtGlobalCtl.cpuClkUnhaltedCore (eventSet.fixedEvtSel 1)
      .hardware 0 ++
    fixedEventAttr eventSet.fixedEvtGlobalCtl.cpuClkUnhaltedRef (eventSet.fixedEvtSel 2) .raw 0x13c

structure PmuCtl where
  genericPmcCount : UInt8
  fixedPmcSet : FixedPmcSet
  activeEventAttrs : List PerfEventAttr
  generation : Nat
  perfEventsEnabled : Bool

namespace PmuCtl

def new : PmuCtl := ⟨0, FixedPmcSet.new, [], 0, false⟩

/-- The sum is that of two `uint8_t`, returned as one. -/
def pmcCount (pmu : PmuCtl) : UInt8 := pmu.genericPmcCount + UInt8.ofNat pmu.fixedPmcSet.size

def readCount (pmu : PmuCtl) : Nat := pmu.genericPmcCount.toNat + pmu.fixedPmcSet.size

def pmcValues (pmu : PmuCtl) (rdpmc : Nat → UInt64) : List UInt64 :=
  (List.range pmu.genericPmcCount.toNat).map rdpmc ++
    (if pmu.fixedPmcSet.instRetiredAny then [rdpmc 0x40000000] else []) ++
    (if pmu.fixedPmcSet.cpuClkUnhaltedCore then [rdpmc 0x40000001] else []) ++
    (if pmu.fixedPmcSet.cpuClkUnhaltedRef then [rdpmc 0x40000002] else [])

end PmuCtl

structure Control where
  pmu : PmuCtl
  recorder : RecorderCtl

namespace Control

def activate (control : Control) (type : RecorderType) : Control :=
  { control with recorder := activateRecorder type }

def enableGenericPmc (control : Control) (genericPmcCount : UInt8) : Control :=
  if genericPmcCount = 0 then control
  else
    let control := if control.pmu.pmcCount = 0 then control.activate .pmc else control
    { control with pmu := { control.pmu with genericPmcCount := genericPmcCount } }

def disableGenericPmc (control : Control) : Control :=
  if control.pmu.genericPmcCount ≠ 0 then
    let control := { control with pmu := { control.pmu with genericPmcCount := 0 } }
    if control.pmu.pmcCount = 0 then control.activate .expandable else control
  else control

/-- There is no result when the exception of `FixedPmcSet` leaves this `noexcept` function. -/
def enableFixedPmc (control : Control) (index : UInt8) : Option Control :=
  let control := if control.pmu.pmcCount = 0 then control.activate .pmc else control
  (control.pmu.fixedPmcSet.enable index).map fun fixedPmcSet =>
    { control with pmu := { control.pmu with fixedPmcSet := fixedPmcSet } }

def disableFixedPmc (control : Control) : Control :=
  if control.pmu.fixedPmcSet.size ≠ 0 then
    let control := { control with pmu := { control.pmu with fixedPmcSet := FixedPmcSet.new } }
    if control.pmu.pmcCount = 0 then control.activate .expandable else control
  else control

/-- `PerfEventsCtl::enable`; `builds` tells if the events of every thread can be built. -/
def enableEvents (pmu : PmuCtl) (eventAttrs : List PerfEventAttr) (builds : Bool) :
    PmuCtl × Bool :=
  if pmu.perfEventsEnabled then (pmu, false)
  else if eventAttrs.isEmpty then (pmu, false)
  else
    let pmu := { pmu with activeEventAttrs := eventAttrs, generation := pmu.generation + 1 }
    if builds then ({ pmu with perfEventsEnabled := true }, true) else (pmu, false)

/-- There is no result when one of the fixed counters is refused. -/
def enablePerfEvents (control : Control) (request : PMUCtlRequest) (builds : Bool) :
    Option (Control × Bool) :=
  match buildEventSet request with
  | none => some (control, false)
  | some eventSet =>
      match enableEvents control.pmu (buildPerfEventAttrs eventSet) builds with
      | (pmu, false) => some ({ control with pmu := pmu }, false)
      | (pmu, true) =>
          let fixedEvents := firstOf request.fixedEvents request.fixedEvtCount
          (pmu.fixedPmcSet.enableAll (fixedEvents.map PMUFixedEvent.ctrIndex)).map fun fixedPmcSet =>
            ({ pmu := { pmu with
                genericPmcCount := request.gpEvtCount
                fixedPmcSet := fixedPmcSet }
               recorder := activateRecorder .perfEvents }, true)

def disablePerfEvents (control : Control) : Control :=
  let control := control.disableGenericPmc.disableFixedPmc
  if control.pmu.perfEventsEnabled then
    { control with pmu := { control.pmu with activeEventAttrs := [], perfEventsEnabled := false } }
  else control

def disablePMU (control : Control) : Control :=
  if control.pmu.perfEventsEnabled then control.disablePerfEvents
  else control.disableGenericPmc.disableFixedPmc

end Control

end Xpedite.Framework
