import Mathlib.Data.Rat.Floor
import Xpedite.Lib.OrderedDict

/-!
Building of timelines and delta series from transactions (`buildTimelineStats` of
`xpedite/analytics/timeline.py`, with `xpedite/types/route.py`, `xpedite/types/probe.py`
and `xpedite/pmu/event.py`).  Cycles are converted to time exactly.  `None` and the empty
list are told apart nowhere, and a counter object is never falsy.
-/

namespace Xpedite.Timelines

open Xpedite.Lib

inductive Failure where
  | probeMismatch
  | missingPmcs
  | missingTsc
  | notAnchored
  | indexError
  | keyError
  | typeError
  | attributeError
  deriving DecidableEq, Repr

def raiseIf (condition : Prop) [Decidable condition] (failure : Failure) : Except Failure Unit :=
  if condition then .error failure else .ok ()

def itemAt {α : Type} (items : List α) (index : Nat) : Except Failure α :=
  match items[index]? with
  | some item => .ok item
  | none => .error .indexError

theorem raiseIf_eq_ok {condition : Prop} [Decidable condition] {failure : Failure}
    (passed : ¬condition) : raiseIf condition failure = .ok () := if_neg passed

theorem of_raiseIf_eq_ok {condition : Prop} [Decidable condition] {failure : Failure} {value : Unit}
    (passed : raiseIf condition failure = .ok value) : ¬condition := by
  intro holds
  rw [raiseIf, if_pos holds] at passed
  cases passed

theorem itemAt_eq_ok {α : Type} {items : List α} {index : Nat} {item : α}
    (present : items[index]? = some item) : itemAt items index = .ok item := by
  rw [itemAt, present]

theorem lt_of_itemAt_eq_ok {α : Type} {items : List α} {index : Nat} {item : α}
    (found : itemAt items index = .ok item) : index < items.length := by
  rw [itemAt] at found
  split at found
  case h_1 _ present => exact (List.getElem?_eq_some_iff.mp present).1
  case h_2 => cases found

theorem exists_itemAt {α : Type} {items : List α} {index : Nat} (bound : index < items.length) :
    ∃ item, itemAt items index = .ok item :=
  ⟨items[index], itemAt_eq_ok (List.getElem?_eq_getElem bound)⟩

/-- A negative index counts from the end. -/
def resolveIndex (length : Nat) (index : Int) : Option Nat :=
  let position := if index < 0 then index + length else index
  if 0 ≤ position ∧ position < length then some position.toNat else none

/-- `path` is the directory of the file and empty for a bare file name. -/
structure Location where
  path : List Char
  fileName : String
  lineNo : Nat
  deriving DecidableEq, Repr

/-- `find` from the difference of the lengths on looks at one place only, the end. -/
def Location.eq (self other : Location) : Bool :=
  if self.lineNo ≠ other.lineNo ∨ self.fileName ≠ other.fileName then false
  else if self.path ≠ [] ∧ other.path ≠ [] then
    if other.path.length ≤ self.path.length then other.path.isSuffixOf self.path
    else self.path.isSuffixOf other.path
  else true

theorem Location.eq_self (location : Location) : location.eq location = true := by
  simp [Location.eq]

def truthy (text : Option String) : Bool := text.any fun text => text ≠ ""

/-- Anchored probes have a location, all others must have a name in the source. -/
structure Probe where
  name : String
  sysName : Option String
  location : Option Location
  named : location = none → truthy sysName
  deriving DecidableEq

namespace Probe

def eq (lhs rhs : Probe) : Except Failure Bool :=
  match lhs.location, rhs.location with
  | none, _ => .ok (lhs.sysName = rhs.sysName)
  | some _, none => .error .notAnchored
  | some left, some right => .ok (left.eq right)

end Probe

def compareProbes (lhs rhs : Probe) : Except Failure Bool :=
  if truthy lhs.sysName ∧ truthy rhs.sysName ∧ lhs.sysName = rhs.sysName then .ok true
  else lhs.eq rhs

structure Route where
  probes : List Probe
  deriving DecidableEq

namespace Route

def points (route : Route) : List (Option String) := route.probes.map Probe.sysName

def length (route : Route) : Nat := route.points.length

end Route

/-- The loop of `conflateRoutes` over the reversed points of the source, with `probeIndex`
one higher than in the source so that it ends at 0. -/
def conflateLoop (srcLength : Nat) (dst : List (Option String)) :
    List (Option String × Nat) → Nat → List Nat → List Nat
  | [], _, indices => indices
  | _ :: _, 0, indices => indices
  | (point, i) :: rest, probeIndex + 1, indices =>
      if dst[probeIndex]? = some point then
        conflateLoop srcLength dst rest probeIndex (indices ++ [srcLength - (i + 1)])
      else conflateLoop srcLength dst rest (probeIndex + 1) indices

def conflateRoutes (srcRoute dstRoute : Route) : Option (List Nat) :=
  let indices := conflateLoop srcRoute.length dstRoute.points srcRoute.points.reverse.zipIdx
    dstRoute.length []
  if dstRoute.length = indices.length then some indices.reverse else none

structure Counter where
  threadId : String
  probe : Probe
  data : String
  tsc : Nat
  pmcs : List Int
  deriving DecidableEq

structure Transaction where
  txnId : Nat
  counters : List Counter
  route : Route
  deriving DecidableEq

/-- The advertised frequency is positive, or there is no cpu info. -/
structure CpuInfo where
  cpuId : String
  frequency : Nat
  positive : 0 < frequency

namespace CpuInfo

def frequencyKhz (cpuInfo : CpuInfo) : ℚ := cpuInfo.frequency / 1000

def cyclesPerUsec (cpuInfo : CpuInfo) : ℚ := cpuInfo.frequencyKhz / 1000

def convertCyclesToTime (cpuInfo : CpuInfo) (cycles : Int) : ℚ := cycles / cpuInfo.cyclesPerUsec

end CpuInfo

/-- What a series holds: an elapsed time, a count, a value of a metric, or NaN. -/
inductive Num where
  | num (value : ℚ)
  | nan
  deriving DecidableEq

namespace Num

def add : Num → Num → Num
  | num left, num right => num (left + right)
  | _, _ => nan

def scale (factor : ℚ) : Num → Num
  | num value => num (value * factor)
  | nan => nan

def isNan : Num → Bool
  | num _ => false
  | nan => true

end Num

structure Event where
  name : String
  uarchName : String
  deriving DecidableEq

structure CounterMap where
  eventsMap : OrderedDict String Nat
  counters : List Num
  deriving DecidableEq

structure TopdownNode where
  name : String
  children : List String
  deriving DecidableEq

/-- The names a node is reported under, those of its children if it has any. -/
def TopdownNode.names (node : TopdownNode) : List String :=
  if node.children = [] then [node.name] else node.children

inductive TopdownKey where
  | node (topdownNode : TopdownNode)
  | metric (name : String)
  deriving DecidableEq

def TopdownKey.visit : TopdownKey → List String
  | .node topdownNode => topdownNode.names
  | .metric name => [name]

structure TopdownValue where
  name : String
  value : Num
  deriving DecidableEq

/-- The formulas of the nodes and metrics come with the events database of the cpu. -/
structure TopdownMetrics where
  nodes : List TopdownNode
  metrics : List String
  nodeVal : String → CounterMap → Except Failure Num
  metricVal : String → CounterMap → Except Failure Num

namespace TopdownMetrics

def topdownKeys (topdownMetrics : TopdownMetrics) : List TopdownKey :=
  topdownMetrics.nodes.map TopdownKey.node ++ topdownMetrics.metrics.map TopdownKey.metric

def computeNode (topdownMetrics : TopdownMetrics) (counterMap : CounterMap) (name : String) :
    Except Failure TopdownValue := do
  let val ← topdownMetrics.nodeVal name counterMap
  return ⟨name, val.scale 100⟩

def computeMetric (topdownMetrics : TopdownMetrics) (counterMap : CounterMap) (name : String) :
    Except Failure TopdownValue := do
  let val ← topdownMetrics.metricVal name counterMap
  return ⟨name, val⟩

def compute (topdownMetrics : TopdownMetrics) (counterMap : CounterMap) :
    Except Failure (List TopdownValue) := do
  let nodeValues ←
    (topdownMetrics.nodes.flatMap TopdownNode.names).mapM (topdownMetrics.computeNode counterMap)
  let metricValues ← topdownMetrics.metrics.mapM (topdownMetrics.computeMetric counterMap)
  return nodeValues ++ metricValues

end TopdownMetrics

structure TxnSubCollection where
  name : String
  cpuInfo : CpuInfo
  transactions : List Transaction
  topdownMetrics : Option TopdownMetrics
  events : List Event

structure DeltaSeries where
  beginProbeName : String
  endProbeName : String
  series : List Num
  deriving DecidableEq

def DeltaSeries.addDelta (deltaSeries : DeltaSeries) (delta : Num) : DeltaSeries :=
  { deltaSeries with series := deltaSeries.series ++ [delta] }

structure DeltaSeriesCollection where
  eventName : String
  deltaSeriesList : List DeltaSeries
  deriving DecidableEq

def DeltaSeriesCollection.addDeltaAt (collection : DeltaSeriesCollection) (position : Nat)
    (delta : Num) : DeltaSeriesCollection :=
  { collection with
    deltaSeriesList :=
      collection.deltaSeriesList.modify position fun deltaSeries => deltaSeries.addDelta delta }

def tscEventName : String := "wall time"

def pmcNames (events : List Event) : List String := events.map Event.name

def eventNames (events : List Event) (topdownKeys : List TopdownKey) : List String :=
  pmcNames events ++ topdownKeys.flatMap TopdownKey.visit

def buildEventsMap (events : List Event) : OrderedDict String Nat :=
  events.zipIdx.foldl (fun eventsMap entry => OrderedDict.update entry.1.uarchName entry.2 eventsMap)
    []

structure DeltaSeriesRepo where
  deltaSeriesCollectionMap : OrderedDict String DeltaSeriesCollection
  events : List Event
  topdownKeys : List TopdownKey
  deriving DecidableEq

namespace DeltaSeriesRepo

/-- One series for each pair of probes and one for the whole transaction. -/
def seriesFor (probes : List Probe) : List DeltaSeries :=
  ((probes.zip probes.tail).map fun pair => ⟨pair.1.name, pair.2.name, []⟩) ++ [⟨"Begin", "End", []⟩]

def emptyCollections (eventNames : List String) : OrderedDict String DeltaSeriesCollection :=
  eventNames.foldl (fun collections eventName =>
    OrderedDict.update eventName ⟨eventName, []⟩ collections) [(tscEventName, ⟨tscEventName, []⟩)]

def new (events : List Event) (topdownKeys : List TopdownKey) (probes : List Probe) :
    DeltaSeriesRepo where
  deltaSeriesCollectionMap := (emptyCollections (eventNames events topdownKeys)).map fun entry =>
    (entry.1, ⟨entry.2.eventName, entry.2.deltaSeriesList ++ seriesFor probes⟩)
  events := events
  topdownKeys := topdownKeys

/-- `deltaSeriesRepo[eventName][index].addDelta(delta)`. -/
def addDelta (repo : DeltaSeriesRepo) (eventName : String) (index : Int) (delta : Num) :
    Except Failure DeltaSeriesRepo :=
  match OrderedDict.get eventName repo.deltaSeriesCollectionMap with
  | none => .error .keyError
  | some collection =>
      match resolveIndex collection.deltaSeriesList.length index with
      | none => .error .indexError
      | some position => .ok { repo with
          deltaSeriesCollectionMap := OrderedDict.update eventName
            (collection.addDeltaAt position delta) repo.deltaSeriesCollectionMap }

def addPmcs (repo : DeltaSeriesRepo) (index : Int) :
    List String → List Num → Except Failure DeltaSeriesRepo
  | [], _ => .ok repo
  | _ :: _, [] => .error .indexError
  | pmcName :: pmcNames, delta :: deltas => do
      let repo ← repo.addDelta pmcName index delta
      addPmcs repo index pmcNames deltas

def addTopdown (repo : DeltaSeriesRepo) (index : Int) :
    List TopdownValue → Except Failure DeltaSeriesRepo
  | [] => .ok repo
  | topdownValue :: topdownValues => do
      let repo ← repo.addDelta topdownValue.name index topdownValue.value
      addTopdown repo index topdownValues

def seriesAt (repo : DeltaSeriesRepo) (eventName : String) (position : Nat) : Option (List Num) := do
  let collection ← OrderedDict.get eventName repo.deltaSeriesCollectionMap
  let deltaSeries ← collection.deltaSeriesList[position]?
  return deltaSeries.series

end DeltaSeriesRepo

structure TimePoint where
  name : String
  point : ℚ
  duration : ℚ
  pmcNames : List String
  deltaPmcs : List Num
  topdownValues : List TopdownValue
  data : Option String
  deriving DecidableEq

structure Timeline where
  txn : Transaction
  tsc : Nat
  txnId : Nat
  points : List TimePoint
  endpoint : TimePoint
  inception : Int
  deriving DecidableEq

structure TimelineStats where
  name : String
  cpuInfo : CpuInfo
  category : String
  route : Route
  reportProbes : List Probe
  timelineCollection : List Timeline
  deltaSeriesRepo : DeltaSeriesRepo

/-- The counts between two samples, which are no counts at all if two threads took them. -/
def deltaPmcs (pmcCount : Nat) (counter prevCounter : Counter) : Except Failure (List Num) :=
  if counter.threadId = prevCounter.threadId then
    (List.range pmcCount).mapM fun k => do
      let pmc ← itemAt counter.pmcs k
      let prevPmc ← itemAt prevCounter.pmcs k
      return .num ((pmc - prevPmc : Int) : ℚ)
  else .ok (List.replicate pmcCount .nan)

def computeTopdown (collection : TxnSubCollection) (deltas : List Num) :
    Except Failure (List TopdownValue) :=
  if collection.events = [] then .ok []
  else
    match collection.topdownMetrics with
    | none => .ok []
    | some topdownMetrics => topdownMetrics.compute ⟨buildEventsMap collection.events, deltas⟩

/-- The loop variables of `buildTimelineStats` for one transaction.  `firstCounter` and
`prevCounter` are set together. -/
structure Walk where
  repo : DeltaSeriesRepo
  points : List TimePoint
  endpointDeltas : List Num
  maxTsc : Nat
  counters : Option (Counter × Counter)

section Build

variable (route : Route) (probes : List Probe) (collection : TxnSubCollection)

/-- The part of the loop body for a counter that follows another. -/
def addInterval (i : Nat) (firstCounter prevCounter counter : Counter) (walk : Walk) :
    Except Failure Walk := do
  let beginProbe ← itemAt probes (i - 1)
  let duration := collection.cpuInfo.convertCyclesToTime (counter.tsc - prevCounter.tsc)
  let point := collection.cpuInfo.convertCyclesToTime (prevCounter.tsc - firstCounter.tsc)
  raiseIf (counter.pmcs.length < collection.events.length) .missingPmcs
  let deltas ← deltaPmcs collection.events.length counter prevCounter
  let endpointDeltas :=
    if counter.threadId = prevCounter.threadId then List.zipWith Num.add walk.endpointDeltas deltas
    else walk.endpointDeltas
  let repo ← walk.repo.addPmcs (i - 1) (pmcNames collection.events) deltas
  let topdownValues ← computeTopdown collection deltas
  let repo ← repo.addTopdown (i - 1) topdownValues
  let repo ← repo.addDelta tscEventName (i - 1) (.num duration)
  let timePoint : TimePoint := ⟨beginProbe.name, point, duration, pmcNames collection.events, deltas,
    topdownValues, some prevCounter.data⟩
  return ⟨repo, walk.points ++ [timePoint], endpointDeltas, walk.maxTsc, some (firstCounter, counter)⟩

/-- The loop body for the `i`-th index `j`. -/
def visitCounter (txn : Transaction) (i j : Nat) (walk : Walk) : Except Failure Walk := do
  let probe ← itemAt probes i
  let counter ← itemAt txn.counters j
  let same ← compareProbes probe counter.probe
  raiseIf (same = false) .probeMismatch
  let walk := { walk with maxTsc := max walk.maxTsc counter.tsc }
  match walk.counters with
  | none => return { walk with counters := some (counter, counter) }
  | some (firstCounter, prevCounter) =>
      raiseIf (counter.tsc = 0) .missingTsc
      addInterval probes collection i firstCounter prevCounter counter walk

def visitCounters (txn : Transaction) : Nat → List Nat → Walk → Except Failure Walk
  | _, [], walk => .ok walk
  | i, j :: indices, walk => do
      let walk ← visitCounter probes collection txn i j walk
      visitCounters txn (i + 1) indices walk

/-- Iterating over `None` is a type error. -/
def indicesFor (txn : Transaction) : Except Failure (List Nat) :=
  if route.length < txn.counters.length then
    match conflateRoutes txn.route route with
    | some indices => .ok indices
    | none => .error .typeError
  else .ok (List.range route.length)

def truncate (value : ℚ) : Int := if value < 0 then -⌊-value⌋ else ⌊value⌋

structure BuildState where
  repo : DeltaSeriesRepo
  timelineCollection : List Timeline
  inceptionTsc : Nat

/-- The body of the loop over the transactions; an `inceptionTsc` of 0 counts as not set. -/
def addTransaction (state : BuildState) (txn : Transaction) : Except Failure BuildState := do
  let begin ← itemAt txn.counters 0
  let indices ← indicesFor route txn
  let walk ← visitCounters probes collection txn 0 indices
    ⟨state.repo, [], List.replicate collection.events.length (.num 0), 0, none⟩
  match walk.counters with
  | none => throw .attributeError
  | some (firstCounter, prevCounter) =>
      let lastProbe ← itemAt probes (probes.length - 1)
      let point := collection.cpuInfo.convertCyclesToTime (prevCounter.tsc - firstCounter.tsc)
      let lastPoint : TimePoint := ⟨lastProbe.name, point, 0, [], [], [], some prevCounter.data⟩
      let duration := collection.cpuInfo.convertCyclesToTime (walk.maxTsc - firstCounter.tsc)
      let repo ← walk.repo.addPmcs (-1) (pmcNames collection.events) walk.endpointDeltas
      let topdownValues ← computeTopdown collection walk.endpointDeltas
      let repo ← repo.addTopdown (-1) topdownValues
      let repo ← repo.addDelta tscEventName (-1) (.num duration)
      let endpoint : TimePoint := ⟨"end", 0, duration, pmcNames collection.events,
        walk.endpointDeltas, topdownValues, none⟩
      let inception :=
        if state.inceptionTsc = 0 then 0
        else truncate (collection.cpuInfo.convertCyclesToTime
          (firstCounter.tsc - state.inceptionTsc) / 1000)
      let inceptionTsc :=
        if state.inceptionTsc = 0 then firstCounter.tsc else state.inceptionTsc
      return ⟨repo, state.timelineCollection ++
        [⟨txn, begin.tsc, txn.txnId, walk.points ++ [lastPoint], endpoint, inception⟩], inceptionTsc⟩

def topdownKeysOf (collection : TxnSubCollection) : List TopdownKey :=
  match collection.topdownMetrics with
  | none => []
  | some topdownMetrics => topdownMetrics.topdownKeys

def buildTimelineStats (category : String) : Except Failure TimelineStats := do
  let repo := DeltaSeriesRepo.new collection.events (topdownKeysOf collection) probes
  let state ← collection.transactions.foldlM (addTransaction route probes collection) ⟨repo, [], 0⟩
  return ⟨collection.name, collection.cpuInfo, category, route, probes, state.timelineCollection,
    state.repo⟩

end Build

end Xpedite.Timelines
