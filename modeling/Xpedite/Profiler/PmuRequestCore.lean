import Mathlib.Data.List.Sort
import Xpedite.Lib.Memory

/-!
Requests to program the counters, as the profiler builds them: `request.py`, `event.py`,
`allocator.py` and `pmuctrl.py` in `xpedite/pmu`.  An exception is kept as its cause.
-/

namespace Xpedite.Profiler

open Lib

structure Event where
  name : List Char
  uarchName : List Char
  user : Bool
  kernel : Bool

/-- `validPmc` lists the set in the order in which it is iterated. -/
structure CoreEvent where
  name : List Char
  eventSelect : Nat
  unitMask : Nat
  counterMask : Nat
  invert : Bool
  edgeDetect : Bool
  anyThread : Nat
  msrValue : Nat
  validPmc : List Nat

/-- The event select code of an offcore event is replaced before it is used. -/
inductive UarchEvent where
  | genericCore (event : CoreEvent)
  | fixedCore (name : List Char) (validPmc : Nat)
  | offCore (event : CoreEvent)
  | unCore

abbrev EventsDb : Type := List Char → Option UarchEvent

inductive PmuError where
  | tooManyEvents (requested : Nat)
  | unknownEvent (uarchName : List Char)
  | unsupportedEvent (uarchName : List Char)
  | unnamed
  | neitherUserNorKernel
  | tooManyFixed
  | tooManyGeneric
  | tooManyOffcore
  | tooManyOffcoreEvents
  -- `max` of a set without any index
  | noValidPmc
  | unallocatable
  deriving DecidableEq

structure GenericPmuRequest where
  name : List Char
  uarchName : List Char
  event : CoreEvent
  user : Bool
  kernel : Bool

structure OffcorePmuRequest where
  name : List Char
  uarchName : List Char
  event : CoreEvent

structure FixedPmuRequest where
  name : List Char
  uarchName : List Char
  ctrIndex : Nat
  user : Bool
  kernel : Bool

inductive PmuRequest where
  | generic (request : GenericPmuRequest)
  | offcore (request : OffcorePmuRequest)
  | fixed (request : FixedPmuRequest)

def GenericPmuRequest.new (name : List Char) (event : CoreEvent) (user kernel : Bool) :
    Except PmuError GenericPmuRequest :=
  if name = [] then .error .unnamed
  else if !user && !kernel then .error .neitherUserNorKernel
  else .ok ⟨name, event.name, event, user, kernel⟩

def OffcorePmuRequest.new (name : List Char) (event : CoreEvent) :
    Except PmuError OffcorePmuRequest :=
  if name = [] then .error .unnamed else .ok ⟨name, event.name, event⟩

def FixedPmuRequest.new (name uarchName : List Char) (validPmc : Nat) (user kernel : Bool) :
    Except PmuError FixedPmuRequest :=
  if !user && !kernel then .error .neitherUserNorKernel
  else .ok ⟨name, uarchName, validPmc, user, kernel⟩

section Packing

/-- `struct.pack` with `B`; there is no result for `struct.error`. -/
def packByte (value : Nat) : Option UInt8 :=
  if value < 2 ^ 8 then some (UInt8.ofNat value) else none

def packBytes (values : List Nat) : Option (List UInt8) := values.mapM packByte

def packQuad (value : Nat) : Option (List UInt8) :=
  if value < 2 ^ 64 then some (bytesOf 8 value) else none

def GenericPmuRequest.buildMask (request : GenericPmuRequest) : Option (List UInt8) :=
  packBytes [request.event.eventSelect, request.event.unitMask, request.user.toNat,
    request.kernel.toNat, request.event.invert.toNat, request.event.counterMask,
    request.event.edgeDetect.toNat, request.event.anyThread]

def OffcorePmuRequest.buildMask (request : OffcorePmuRequest) : Option (List UInt8) :=
  packQuad request.event.msrValue

def FixedPmuRequest.buildMask (request : FixedPmuRequest) : Option (List UInt8) :=
  packBytes [request.ctrIndex, request.user.toNat, request.kernel.toNat]

def GenericPmuRequest.defaultMask : List UInt8 := [0, 0, 0, 0, 0, 0, 0, 0]

def OffcorePmuRequest.defaultMask : List UInt8 := bytesOf 8 0

def FixedPmuRequest.defaultMask : List UInt8 := [0, 0, 0]

end Packing

structure EventSet where
  cpuSet : List Nat
  genericRequests : List GenericPmuRequest
  offcoreRequests : List OffcorePmuRequest
  fixedRequests : List FixedPmuRequest

namespace EventSet

def new (cpuSet : List Nat) : EventSet := ⟨cpuSet, [], [], []⟩

def addFixedPmuRequest (eventSet : EventSet) (request : FixedPmuRequest) :
    Except PmuError EventSet :=
  if 3 ≤ eventSet.fixedRequests.length then .error .tooManyFixed
  else .ok { eventSet with
    fixedRequests := (eventSet.fixedRequests ++ [request]).insertionSort
      fun first second => first.ctrIndex ≤ second.ctrIndex }

def addGenericPmuRequest (eventSet : EventSet) (request : GenericPmuRequest) :
    Except PmuError EventSet :=
  if 8 ≤ eventSet.genericRequests.length then .error .tooManyGeneric
  else .ok { eventSet with genericRequests := eventSet.genericRequests ++ [request] }

def addOffcorePmuRequest (eventSet : EventSet) (request : OffcorePmuRequest) :
    Except PmuError EventSet :=
  if 2 ≤ eventSet.offcoreRequests.length then .error .tooManyOffcore
  else .ok { eventSet with offcoreRequests := eventSet.offcoreRequests ++ [request] }

def requests (eventSet : EventSet) : List PmuRequest :=
  eventSet.genericRequests.map .generic ++ eventSet.fixedRequests.map .fixed

def add (eventSet : EventSet) : PmuRequest → Except PmuError EventSet
  | .generic request => eventSet.addGenericPmuRequest request
  | .offcore request => eventSet.addOffcorePmuRequest request
  | .fixed request => eventSet.addFixedPmuRequest request

end EventSet

namespace PmuRequestFactory

def eventSelects : List Nat := [0xB7, 0xBB]

/-- The first part is the number of offcore events the factory has seen. -/
def buildOffCoreRequests (offCoreEventCount : Nat) (name : List Char) (event : CoreEvent)
    (user kernel : Bool) : Except PmuError (Nat × List PmuRequest) :=
  match eventSelects[offCoreEventCount]? with
  | none => .error .tooManyOffcoreEvents
  | some eventSelect => do
      let offcoreEvent := { event with eventSelect := eventSelect }
      let generic ← GenericPmuRequest.new name offcoreEvent user kernel
      let offcore ← OffcorePmuRequest.new name offcoreEvent
      return (offCoreEventCount + 1, [.generic generic, .offcore offcore])

def buildRequests (eventsDb : EventsDb) (offCoreEventCount : Nat) (event : Event) :
    Except PmuError (Nat × List PmuRequest) :=
  match eventsDb event.uarchName with
  | none => .error (.unknownEvent event.uarchName)
  | some (.genericCore uarchEvent) => do
      let request ← GenericPmuRequest.new event.name uarchEvent event.user event.kernel
      return (offCoreEventCount, [.generic request])
  | some (.fixedCore name validPmc) => do
      let request ← FixedPmuRequest.new event.name name validPmc event.user event.kernel
      return (offCoreEventCount, [.fixed request])
  | some (.offCore uarchEvent) =>
      buildOffCoreRequests offCoreEventCount event.name uarchEvent event.user event.kernel
  | some .unCore => .error (.unsupportedEvent event.uarchName)

end PmuRequestFactory

structure Allocatable where
  index : Nat
  «constraint» : List Nat

/-- A slot or an allocation of -1 is `none`. -/
structure Allocator where
  allocatables : List Allocatable
  slots : List (Option Nat)
  allocation : List (Option Nat)

namespace Allocator

/-- There is no result when the greatest index of an empty set is asked for. -/
def new (constraints : List (List Nat)) : Option Allocator :=
  (constraints.mapM List.max?).bind fun greatest =>
    greatest.max?.map fun maxIndex =>
      { allocatables := constraints.zipIdx.map fun (indices, index) => ⟨index, indices⟩
        slots := List.replicate (maxIndex + 1) none
        allocation := List.replicate constraints.length none }

def slotCount (allocator : Allocator) : Nat := allocator.slots.length

/-- The recursion ends with the last allocatable; only the first of the others is narrowed. -/
def allocate : Nat → Allocator → Option (List (Option Nat))
  | 0, _ => none
  | remaining + 1, allocator =>
      let sorted := allocator.allocatables.insertionSort
        fun first second => second.constraint.length ≤ first.constraint.length
      match sorted.getLast? with
      | none => none
      | some allocatable =>
          match allocatable.constraint.find? fun cn => allocator.slots[cn]? == some none with
          | none => none
          | some cn =>
              let slots := allocator.slots.set cn (some allocatable.index)
              let allocation := allocator.allocation.set allocatable.index (some cn)
              match sorted.dropLast with
              | [] => some allocation
              | first :: others =>
                  let narrowed := { first with «constraint» := first.constraint.erase cn }
                  allocate remaining ⟨narrowed :: others, slots, allocation⟩

end Allocator

namespace RequestSorter

def isSorted (requests : List GenericPmuRequest) : Bool :=
  requests.zipIdx.all fun (request, index) => request.event.validPmc.contains index

/-- An index of -1 is that of the last place. -/
def place (requests : List GenericPmuRequest) (allocation : List (Option Nat)) :
    List (Option GenericPmuRequest) :=
  (requests.zip allocation).foldl
    (fun sorted (request, slot) => sorted.set (slot.getD (requests.length - 1)) (some request))
    (List.replicate requests.length none)

/-- The result is empty where `None` is returned. -/
def sort (requests : List GenericPmuRequest) :
    Except PmuError (Option (List (Option GenericPmuRequest))) :=
  if isSorted requests then .ok (some (requests.map some))
  else
    match Allocator.new (requests.map fun request => request.event.validPmc) with
    | none => .error .noValidPmc
    | some allocator =>
        if allocator.slotCount = requests.length then
          .ok ((allocator.allocate requests.length).map (place requests))
        else .ok none

end RequestSorter

namespace PMUCtrl

def resolveEvent (eventsDb : EventsDb) (resolved : Nat × EventSet) (event : Event) :
    Except PmuError (Nat × EventSet) := do
  let (offCoreEventCount, requests) ← PmuRequestFactory.buildRequests eventsDb resolved.1 event
  let eventSet ← requests.foldlM EventSet.add resolved.2
  return (offCoreEventCount, eventSet)

def resolveEvents (eventsDb : EventsDb) (cpuSet : List Nat) (events : List Event) :
    Except PmuError EventSet :=
  if 11 < events.length then .error (.tooManyEvents events.length)
  else (events.foldlM (resolveEvent eventsDb) (0, EventSet.new cpuSet)).map Prod.snd

/-- A place that would be left empty counts as one that cannot be allocated. -/
def allocateEvents (eventSet : EventSet) : Except PmuError EventSet :=
  if eventSet.genericRequests = [] then .ok eventSet
  else do
    match (← RequestSorter.sort eventSet.genericRequests).bind fun sorted => sorted.mapM id with
    | none => .error .unallocatable
    | some sortedRequests =>
        if sortedRequests.length = eventSet.genericRequests.length then
          .ok { eventSet with genericRequests := sortedRequests }
        else .error .unallocatable

def buildEventSet (eventsDb : EventsDb) (cpuSet : List Nat) (events : List Event) :
    Except PmuError EventSet := do
  allocateEvents (← resolveEvents eventsDb cpuSet events)

def padded (masks : List (List UInt8)) (capacity : Nat) (defaultMask : List UInt8) :
    List (List UInt8) :=
  masks ++ List.replicate (capacity - masks.length) defaultMask

def buildRequestGroup (cpu : Nat) (eventSet : EventSet) : Option (List UInt8) := do
  let header ← packBytes [cpu, eventSet.fixedRequests.length, eventSet.genericRequests.length,
    eventSet.offcoreRequests.length]
  let fixed ← eventSet.fixedRequests.mapM FixedPmuRequest.buildMask
  let generic ← eventSet.genericRequests.mapM GenericPmuRequest.buildMask
  let offcore ← eventSet.offcoreRequests.mapM OffcorePmuRequest.buildMask
  return header ++ (padded fixed 3 FixedPmuRequest.defaultMask).flatten ++
    (padded generic 8 GenericPmuRequest.defaultMask).flatten ++
    (padded offcore 2 OffcorePmuRequest.defaultMask).flatten

def hexDigit (value : Nat) : Char := "0123456789abcdef".toList.getD value '0'

def hexByte (byte : UInt8) : List Char :=
  [hexDigit (byte.toNat / 16), hexDigit (byte.toNat % 16)]

def pduOf : List UInt8 → List Char
  | [] => []
  | [byte] => hexByte byte
  | byte :: rest => hexByte byte ++ ':' :: pduOf rest

/-- The result is empty where `(None, None)` is returned. -/
def buildPerfEventsRequest (eventsDb : EventsDb) (events : List Event) :
    Except PmuError (Option (EventSet × Option (List Char))) := do
  let eventSet ← buildEventSet eventsDb [] events
  if eventSet.offcoreRequests.length = 0 then
    return some (eventSet, (buildRequestGroup 0 eventSet).map pduOf)
  else return none

end PMUCtrl

end Xpedite.Profiler
