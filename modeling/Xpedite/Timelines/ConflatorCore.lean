import Xpedite.Timelines.TimelineCore

/-!
Conflation of timelines and rebuilding of delta series from stored time points
(`xpedite/analytics/conflator.py` and `xpedite/analytics/timelineFilter.py`).
-/

namespace Xpedite.Timelines

open Xpedite.Lib

/-- `dstTp.deltaPmcs[k] += srcTp.deltaPmcs[k]` for every `k` whose source is not NaN. -/
def mergeDeltas : List Num → List Num → Except Failure (List Num)
  | dst, [] => .ok dst
  | [], delta :: src => if delta.isNan then mergeDeltas [] src else .error .indexError
  | total :: dst, delta :: src => do
      let rest ← mergeDeltas dst src
      return (if delta.isNan then total else total.add delta) :: rest

def mergePoint (srcTimePoints : List TimePoint) (dstTp : TimePoint) (j : Nat) :
    Except Failure TimePoint := do
  let srcTp ← itemAt srcTimePoints j
  -- without deltas of its own the point has `None`, which cannot be indexed
  raiseIf (dstTp.deltaPmcs = [] ∧ srcTp.deltaPmcs.any fun delta => !delta.isNan) .typeError
  let deltas ← mergeDeltas dstTp.deltaPmcs srcTp.deltaPmcs
  return { dstTp with duration := dstTp.duration + srcTp.duration, deltaPmcs := deltas }

section Conflation

variable (eventsMap : OrderedDict String Nat) (topdownMetrics : Option TopdownMetrics)

def topdownOf (deltas : List Num) : Except Failure (List TopdownValue) :=
  match topdownMetrics with
  | none => .ok []
  | some topdownMetrics =>
      if deltas = [] then .ok [] else topdownMetrics.compute ⟨eventsMap, deltas⟩

/-- The point for the indices from `begin` up to `stop`, which is left out. -/
def conflateTimepoint (srcTimePoints : List TimePoint) (begin stop : Nat) :
    Except Failure TimePoint := do
  let srcTp ← itemAt srcTimePoints begin
  let dstTp : TimePoint :=
    ⟨srcTp.name, srcTp.point, srcTp.duration, srcTp.pmcNames, srcTp.deltaPmcs, [], none⟩
  let dstTp ← (List.range' (begin + 1) (stop - (begin + 1))).foldlM (mergePoint srcTimePoints) dstTp
  let topdownValues ← topdownOf eventsMap topdownMetrics dstTp.deltaPmcs
  return { dstTp with topdownValues := topdownValues }

def conflateTimepoints (srcTimePoints : List TimePoint) : List Nat → Except Failure (List TimePoint)
  | [] => .ok []
  | [begin] => do
      let timePoint ← conflateTimepoint eventsMap topdownMetrics srcTimePoints begin (begin + 1)
      return [timePoint]
  | begin :: next :: rest => do
      let timePoint ← conflateTimepoint eventsMap topdownMetrics srcTimePoints begin next
      let timePoints ← conflateTimepoints srcTimePoints (next :: rest)
      return timePoint :: timePoints

def conflateTimeline (srcTl : Timeline) (routeIndices : List Nat) : Except Failure Timeline := do
  let begin ← itemAt srcTl.txn.counters 0
  let points ← conflateTimepoints eventsMap topdownMetrics srcTl.points routeIndices
  let ends ← conflateTimepoints eventsMap topdownMetrics points [0, points.length - 1]
  let endpoint ← itemAt ends 0
  return ⟨srcTl.txn, begin.tsc, srcTl.txn.txnId, points, endpoint, srcTl.inception⟩

end Conflation

def createTimelineStats (src : TimelineStats) (category : String) (route : Route) : TimelineStats where
  name := src.name
  cpuInfo := src.cpuInfo
  category := category
  route := route
  reportProbes := route.probes
  timelineCollection := []
  deltaSeriesRepo :=
    DeltaSeriesRepo.new src.deltaSeriesRepo.events src.deltaSeriesRepo.topdownKeys route.probes

def addTimepoint (index : Int) (timepoint : TimePoint) (repo : DeltaSeriesRepo) :
    Except Failure DeltaSeriesRepo := do
  let repo ← repo.addDelta tscEventName index (.num timepoint.duration)
  let repo ← repo.addPmcs index timepoint.pmcNames timepoint.deltaPmcs
  repo.addTopdown index timepoint.topdownValues

def addTimepoints (repo : DeltaSeriesRepo) : Nat → List TimePoint → Except Failure DeltaSeriesRepo
  | _, [] => .ok repo
  | i, timepoint :: rest => do
      let repo ← addTimepoint i timepoint repo
      addTimepoints repo (i + 1) rest

/-- All points but the last, and the endpoint in its place. -/
def addTimeline (repo : DeltaSeriesRepo) (timeline : Timeline) : Except Failure DeltaSeriesRepo := do
  let repo ← addTimepoints repo 0 timeline.points.dropLast
  addTimepoint (timeline.points.length - 1) timeline.endpoint repo

def buildDeltaSeriesRepo (timelineStats : TimelineStats) : Except Failure TimelineStats := do
  let repo ← timelineStats.timelineCollection.foldlM addTimeline timelineStats.deltaSeriesRepo
  return { timelineStats with deltaSeriesRepo := repo }

def filterTimelineStats (predicate : Timeline → Bool) (tls : TimelineStats) :
    Except Failure TimelineStats :=
  buildDeltaSeriesRepo { createTimelineStats tls tls.category tls.route with
    timelineCollection := tls.timelineCollection.filter predicate }

end Xpedite.Timelines
