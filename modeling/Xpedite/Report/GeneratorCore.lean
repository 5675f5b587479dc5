import Xpedite.Report.HistogramCore
import Xpedite.Timelines.TimelineCore

/-!
Histograms of elapsed times for the current run and its benchmarks: the repository of
transactions (`xpedite/txn/repo.py`, `xpedite/txn/collection.py`), the grouping of elapsed times
(`xpedite/analytics`) and `generateHistograms` (`xpedite/profiler/reportgenerator.py`).
-/

namespace Xpedite.Report

open Xpedite.Lib
open Xpedite.Timelines (CpuInfo Transaction)

/-- `begin` and `end` are the counters with the least and the greatest time stamp. -/
def getElapsedTsc (txn : Transaction) : Int :=
  let tscs := txn.counters.map fun counter => counter.tsc
  (tscs.max?.getD 0 : Int) - (tscs.min?.getD 0 : Int)

/-- `ident` tells objects apart. -/
structure TxnCollection where
  ident : Nat
  name : String
  cpuInfo : CpuInfo
  transactions : List Transaction

/-- Benchmarks are stored under their names, and no two under one name. -/
structure TxnRepo where
  benchmarkCollections : OrderedDict String TxnCollection
  currentCollection : Option TxnCollection
  named : ∀ entry ∈ benchmarkCollections, entry.1 = entry.2.name
  distinct : (OrderedDict.keys benchmarkCollections).Nodup

namespace TxnRepo

def getBenchmarks (repo : TxnRepo) : List TxnCollection := repo.benchmarkCollections.map Prod.snd

/-- Collections in a repository refer back to it. -/
def isCurrent (repo : TxnRepo) (collection : TxnCollection) : Bool :=
  repo.currentCollection.any fun current => current.ident = collection.ident

end TxnRepo

def currentRun : String := "current run"

abbrev Bundles := OrderedDict String (List (List ℚ))

section Bundles

variable (classify : Transaction → String)

def addOrUpdateContainer (container : OrderedDict String (List ℚ)) (key : Transaction) (value : ℚ) :
    OrderedDict String (List ℚ) :=
  match OrderedDict.get (classify key) container with
  | some values => OrderedDict.update (classify key) (values ++ [value]) container
  | none => OrderedDict.update (classify key) [value] container

/-- A transaction without counters is false. -/
def groupElapsedTime (collection : TxnCollection) : OrderedDict String (List ℚ) :=
  collection.transactions.foldl (fun elapsedTscGroup txn =>
    if txn.counters = [] then elapsedTscGroup
    else addOrUpdateContainer classify elapsedTscGroup txn
      (collection.cpuInfo.convertCyclesToTime (getElapsedTsc txn))) []

/-- A category that the current run lacks is only warned about. -/
def addCategory (i : Nat) (bundles : Bundles) (entry : String × List ℚ) : Bundles :=
  match OrderedDict.get entry.1 bundles with
  | some bundle => OrderedDict.update entry.1 (bundle ++ [entry.2]) bundles
  | none => if i = 0 then OrderedDict.update entry.1 [entry.2] bundles else bundles

def addCollection (bundles : Bundles) (entry : TxnCollection × Nat) : Except Failure Bundles :=
  let elapsedTscMap := groupElapsedTime classify entry.1
  if elapsedTscMap ≠ [] then .ok (elapsedTscMap.foldl (addCategory entry.2) bundles)
  else if entry.2 = 0 then .error .countersNotAvailable
  else .ok bundles

def buildElapsedTimeBundles (txnCollections : List TxnCollection) : Except Failure Bundles :=
  txnCollections.zipIdx.foldlM (addCollection classify) []

end Bundles

section Histograms

variable (figures : Figures) (txnCollections : List TxnCollection)

def legendFor (name : String) (minimum maximum : ℚ) (elapsedTimeList : List ℚ) : String :=
  formatLegend figures name minimum maximum (figures.mean elapsedTimeList)
    (figures.median elapsedTimeList) (figures.percentile elapsedTimeList 95)
    (figures.percentile elapsedTimeList 99)

/-- The loop body over a bundle; the `i`-th list of the bundle is named after the `i`-th
collection. -/
def plot (buckets : List ℚ) (entry : List ℚ × Nat) : Except Failure (String × List Nat) := do
  let (elapsedTimeList, i) := entry
  let (bucketValues, _) := buildDistribution buckets elapsedTimeList
  match txnCollections[i]? with
  | none => throw .indexError
  | some txnCollection =>
      match elapsedTimeList.min?, elapsedTimeList.max? with
      | some minimum, some maximum =>
          return (legendFor figures txnCollection.name minimum maximum elapsedTimeList, bucketValues)
      | _, _ => throw .valueError

def addHistogram (runId : Nat) (histograms : OrderedDict String Histogram)
    (entry : String × List (List ℚ)) : Except Failure (OrderedDict String Histogram) :=
  match entry.2 with
  | [] => .error .indexError
  | current :: _ =>
      match buildBuckets current 35 with
      | none | some [] => .ok histograms
      | some buckets => do
          let yaxis ← entry.2.zipIdx.mapM (plot figures txnCollections buckets)
          let (options, data) ← buildHistograms (formatBuckets figures buckets) yaxis false
          let title := entry.1 ++ " - latency distribution benchmark"
          let description :=
            "Latency distribution (current run ID #" ++ toString runId ++ " vs chosen benchmarks)"
          return OrderedDict.update entry.1 ⟨title, description, data, options⟩ histograms

end Histograms

def generateHistograms (figures : Figures) (repo : TxnRepo) (classify : Transaction → String)
    (runId : Nat) : Except Failure (OrderedDict String Histogram) :=
  match repo.currentCollection with
  | none => .error .attributeError
  | some current =>
      if !repo.isCurrent current || current.name ≠ currentRun then .error .invariantViolation
      else do
        let txnCollections := current :: repo.getBenchmarks
        let elapsedTimeBundles ← buildElapsedTimeBundles classify txnCollections
        elapsedTimeBundles.foldlM (addHistogram figures txnCollections runId) []

end Xpedite.Report
