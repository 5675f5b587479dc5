import Xpedite.Analytics.TreeCollectionsCore
import Xpedite.Indexing.ProbeIndexCore
import Xpedite.Lib.Fallible

/-!
Profiles of the current run and its benchmarks (`generateProfiles` and `buildTxnTree` of
`xpedite/analytics/__init__.py`, with `xpedite/analytics/aggregator.py`, the factory of
`xpedite/analytics/treeCollections.py` and `xpedite/profiler/profile.py`).
-/

namespace Xpedite.Profiles

open Xpedite.Lib
open Xpedite.Analytics (CompositeTreeCollection Node TreeCollection TreeFailure)
open Xpedite.Indexing (ProbeMap)
open Xpedite.Indexing.ProbeIndexFactory (sameRoute)
open Xpedite.Timelines (Location Probe Route TimelineStats Transaction TxnSubCollection
  buildTimelineStats conflateRoutes truthy)

inductive Failure where
  | timelines (failure : Timelines.Failure)
  | trees (failure : TreeFailure)
  | noCurrent

def cloneMetaData (txnSubCollection : TxnSubCollection) : TxnSubCollection :=
  { txnSubCollection with transactions := [] }

def append (txnSubCollection : TxnSubCollection) (txn : Transaction) : TxnSubCollection :=
  { txnSubCollection with transactions := txnSubCollection.transactions ++ [txn] }

def txnSubCollectionFactory (txnSubCollection : TxnSubCollection) (txn : Transaction) :
    TxnSubCollection :=
  append (cloneMetaData txnSubCollection) txn

section Aggregate

variable {Key : Type} (same : Key → Key → Bool)

/-- `addTxn` and `_addOrUpdateContainer`. -/
def addTo (container : List (Key × TxnSubCollection)) (txnSubCollection : TxnSubCollection)
    (key : Key) (txn : Transaction) : List (Key × TxnSubCollection) :=
  match LooseDict.get same key container with
  | some subCollection => LooseDict.update same key (append subCollection txn) container
  | none => LooseDict.update same key (txnSubCollectionFactory txnSubCollection txn) container

end Aggregate

variable (hashOf : List (Option String) → Int)

def groupTxns (classify : Transaction → String) (txnSubCollection : TxnSubCollection) :
    List (String × TxnSubCollection) :=
  txnSubCollection.transactions.foldl (fun groupMap txn =>
    addTo (fun stored category => stored = category) groupMap txnSubCollection (classify txn) txn) []

def aggregateTxnsByRoutes (txnSubCollection : TxnSubCollection) : List (Route × TxnSubCollection) :=
  txnSubCollection.transactions.foldl (fun routeMap txn =>
    addTo (sameRoute hashOf) routeMap txnSubCollection txn.route txn) []

/-- An empty list of indices is false, as is `None`. -/
def conflates (txn : Transaction) (dstRoute : Route) : Bool :=
  match conflateRoutes txn.route dstRoute with
  | some (_ :: _) => true
  | _ => false

/-- `RouteConflatingAggregator.aggregateTxnsByRoutes`, given the routes of the source tree. -/
def conflateTxnsByRoutes (routes : List Route) (txnSubCollection : TxnSubCollection) :
    List (Route × TxnSubCollection) :=
  txnSubCollection.transactions.foldl (fun routeMap txn =>
    routes.foldl (fun routeMap dstRoute =>
      if conflates txn dstRoute then
        addTo (sameRoute hashOf) routeMap txnSubCollection dstRoute txn
      else routeMap) routeMap) []

inductive Key where
  | base
  | category (name : String)
  | route (route : Route)

/-- What a dictionary knows a key by.  Any two routes are equal to their `__eq__`. -/
inductive Name where
  | base
  | category (name : String)
  | route (hash : Int)
  deriving DecidableEq

namespace Key

def name : Key → Name
  | .base => .base
  | .category name => .category name
  | .route taken => .route (hashOf taken.points)

def categoryName : Key → String
  | .category name => name
  | _ => ""

def toRoute : Key → Route
  | .route taken => taken
  | _ => ⟨[]⟩

end Key

/-- The collection of a node, with the key that the node is stored under. -/
structure Group where
  key : Key
  collection : TxnSubCollection

/-- A classifier is also given the names on the way to the node. -/
abbrev Classifier : Type := TxnSubCollection → List Name → OrderedDict Name Group

def entryOf (key : Key) (collection : TxnSubCollection) : Name × Group :=
  (key.name hashOf, ⟨key, collection⟩)

def byCategory (classify : Transaction → String) : Classifier := fun txnSubCollection _ =>
  (groupTxns classify txnSubCollection).map fun entry => entryOf hashOf (.category entry.1) entry.2

def byRoute : Classifier := fun txnSubCollection _ =>
  (aggregateTxnsByRoutes hashOf txnSubCollection).map fun entry =>
    entryOf hashOf (.route entry.1) entry.2

def byConflatedRoute (srcTree : TreeCollection Name String Group) : Classifier :=
  fun txnSubCollection ancestry =>
    let routes := match srcTree.getNode ancestry with
      | some node => node.children.map fun child => child.2.collection.key.toRoute
      | none => []
    (conflateTxnsByRoutes hashOf routes txnSubCollection).map fun entry =>
      entryOf hashOf (.route entry.1) entry.2

section Tree

def addChild (children : OrderedDict Name (Node Name Group)) (entry : Name × Group) :
    OrderedDict Name (Node Name Group) :=
  OrderedDict.update entry.1 (.mk entry.2 []) children

/-- The nodes of a level are those that are as far below the root as the level is. -/
def makeChildNodes (classifier : Classifier) : Nat → List Name → Node Name Group → Node Name Group
  | 0, ancestry, .mk group children =>
      .mk group ((classifier group.collection ancestry).foldl addChild children)
  | level + 1, ancestry, .mk group children =>
      .mk group (children.map fun child =>
        (child.1, makeChildNodes classifier level (ancestry ++ [child.1]) child.2))

def makeLevels : List Classifier → Nat → Node Name Group → Node Name Group
  | [], _, root => root
  | classifier :: classifiers, level, root =>
      makeLevels classifiers (level + 1) (makeChildNodes classifier level [] root)

theorem childrenDistinct_iff {children : List (Name × Node Name Group)} :
    Analytics.ChildrenDistinct children ↔ ∀ child ∈ children, child.2.Distinct := by
  induction children with
  | nil => exact iff_of_true trivial (by simp)
  | cons child children ih =>
      rw [Analytics.ChildrenDistinct, List.forall_mem_cons, ih]

theorem distinct_mk_iff {group : Group} {children : List (Name × Node Name Group)} :
    (Node.mk group children).Distinct ↔
      (OrderedDict.keys children).Nodup ∧ ∀ child ∈ children, child.2.Distinct := by
  rw [Node.Distinct, childrenDistinct_iff]

theorem distinct_addChild {children : OrderedDict Name (Node Name Group)}
    (keysDistinct : (OrderedDict.keys children).Nodup)
    (distinct : ∀ child ∈ children, child.2.Distinct) (entry : Name × Group) :
    (OrderedDict.keys (addChild children entry)).Nodup ∧
      ∀ child ∈ addChild children entry, child.2.Distinct := by
  refine ⟨OrderedDict.nodup_keys_update _ _ keysDistinct, ?_⟩
  intro child member
  rcases OrderedDict.mem_update member with rfl | earlier
  · exact distinct_mk_iff.mpr ⟨List.nodup_nil, by simp⟩
  · exact distinct child earlier

theorem distinct_foldl_addChild {children : OrderedDict Name (Node Name Group)}
    (keysDistinct : (OrderedDict.keys children).Nodup)
    (distinct : ∀ child ∈ children, child.2.Distinct) (entries : List (Name × Group)) :
    (OrderedDict.keys (entries.foldl addChild children)).Nodup ∧
      ∀ child ∈ entries.foldl addChild children, child.2.Distinct := by
  induction entries generalizing children with
  | nil => exact ⟨keysDistinct, distinct⟩
  | cons entry entries ih =>
      have added := distinct_addChild keysDistinct distinct entry
      exact ih added.1 added.2

theorem distinct_makeChildNodes (classifier : Classifier) (level : Nat) (ancestry : List Name)
    {node : Node Name Group} (distinct : node.Distinct) :
    (makeChildNodes classifier level ancestry node).Distinct := by
  induction level generalizing ancestry node with
  | zero =>
      obtain ⟨group, children⟩ := node
      rw [distinct_mk_iff] at distinct
      exact distinct_mk_iff.mpr (distinct_foldl_addChild distinct.1 distinct.2 _)
  | succ level ih =>
      obtain ⟨group, children⟩ := node
      rw [distinct_mk_iff] at distinct
      refine distinct_mk_iff.mpr ⟨?_, ?_⟩
      · rw [OrderedDict.keys, List.map_map]
        exact distinct.1
      · intro child member
        obtain ⟨earlier, inside, rfl⟩ := List.mem_map.mp member
        exact ih _ (distinct.2 earlier inside)

theorem distinct_makeLevels (classifiers : List Classifier) (level : Nat)
    {root : Node Name Group} (distinct : root.Distinct) :
    (makeLevels classifiers level root).Distinct := by
  induction classifiers generalizing level root with
  | nil => exact distinct
  | cons classifier classifiers ih =>
      exact ih (level + 1) (distinct_makeChildNodes classifier level [] distinct)

def buildTreeCollection (name : String) (collection : TxnSubCollection)
    (classifiers : List Classifier) : TreeCollection Name String Group where
  name := name
  root := makeLevels classifiers 0 (.mk ⟨.base, collection⟩ [])
  distinct := distinct_makeLevels classifiers 0 (distinct_mk_iff.mpr ⟨List.nodup_nil, by simp⟩)

def buildCompositeTreeCollection (collectionsMap : OrderedDict String TxnSubCollection)
    (treeClassifiers : List Classifier) :
    Except TreeFailure (CompositeTreeCollection Name String Group) :=
  CompositeTreeCollection.addTrees (collectionsMap.map fun entry =>
    buildTreeCollection entry.1 entry.2 treeClassifiers)

end Tree

structure TxnCollection where
  subCollection : TxnSubCollection
  probes : List Probe

/-- Benchmarks are stored under their names, and no two under one name. -/
structure TxnRepo where
  benchmarkCollections : OrderedDict String TxnCollection
  currentCollection : Option TxnCollection
  named : ∀ entry ∈ benchmarkCollections, entry.1 = entry.2.subCollection.name
  distinct : (OrderedDict.keys benchmarkCollections).Nodup

/-- `current` and `benchmarks` of a profile. -/
structure Profile where
  name : String
  current : TimelineStats
  benchmarks : OrderedDict String TimelineStats

section Generate

variable (classify : Transaction → String) (routeConflation : Bool)

def buildTxnTree (current : TxnCollection) (benchmarks : OrderedDict String TxnCollection) :
    Except Failure (TreeCollection Name String Group × CompositeTreeCollection Name String Group) :=
  let txnTree := buildTreeCollection current.subCollection.name current.subCollection
    [byCategory hashOf classify, byRoute hashOf]
  let treeClassifiers :=
    [byCategory hashOf classify,
      if routeConflation then byConflatedRoute hashOf txnTree else byRoute hashOf]
  match buildCompositeTreeCollection
      (benchmarks.map fun entry => (entry.1, entry.2.subCollection)) treeClassifiers with
  | .ok benchmarkCompositeTree => .ok (txnTree, benchmarkCompositeTree)
  | .error failure => .error (.trees failure)

def probeMapOf (probes : List Probe) : ProbeMap Probe :=
  probes.foldl (fun probeMap probe =>
    match probe.location with
    | some location =>
        ⟨LooseDict.update Location.eq location probe probeMap.anchoredProbeMap,
          if truthy probe.sysName then
            OrderedDict.update probe.sysName probe probeMap.namedProbeMap
          else probeMap.namedProbeMap⟩
    | none =>
        { probeMap with
          namedProbeMap := OrderedDict.update probe.sysName probe probeMap.namedProbeMap }) .empty

def mapReportProbes (route : Route) (userProbes : List Probe) : List Probe :=
  route.probes.map fun probe => ((probeMapOf userProbes).get probe).getD probe

def timelinesOf (category : String) (route : Route) (probes : List Probe)
    (txnSubCollection : TxnSubCollection) : Except Failure TimelineStats :=
  match buildTimelineStats route probes txnSubCollection category with
  | .ok timelineStats => .ok timelineStats
  | .error failure => .error (.timelines failure)

/-- `benchmarkTxnsMap` is `None` where no benchmark has such a transaction. -/
def computeStats (category : String) (route : Route) (probes : List Probe)
    (txnSubCollection : TxnSubCollection) (benchmarkTxnsMap : Option (OrderedDict String Group)) :
    Except Failure (TimelineStats × OrderedDict String TimelineStats) := do
  let timelineStats ← timelinesOf category route probes txnSubCollection
  let benchmarkTimelineStats ← (benchmarkTxnsMap.getD []).mapM fun entry => do
    let stats ← timelinesOf category route probes entry.2.collection
    return (entry.2.collection.name, stats)
  return (timelineStats, benchmarkTimelineStats.foldl
    (fun dict entry => OrderedDict.update entry.1 entry.2 dict) [])

def profileNameFor (name category : String) (count i : Nat) : String :=
  name ++ " - " ++ category ++ if 1 < count then " [route - " ++ toString i ++ "]" else ""

/-- The body of the inner loop, for the `i`-th route of a category. -/
def generateProfile (name : String) (probes : List Probe)
    (benchmarkCompositeTree : CompositeTreeCollection Name String Group)
    (categoryEntry : Name × Node Name Group) (entry : (Name × Node Name Group) × Nat) :
    Except Failure Profile := do
  let (routeEntry, i) := entry
  let category := categoryEntry.2.collection.key.categoryName
  let route := routeEntry.2.collection.key.toRoute
  let benchmarkTxnsMap :=
    benchmarkCompositeTree.getCollectionMap [categoryEntry.1, routeEntry.1]
  let (timelineStats, benchmarkTimelineStats) ← computeStats category route
    (mapReportProbes route probes) routeEntry.2.collection.collection benchmarkTxnsMap
  return ⟨profileNameFor name category categoryEntry.2.children.length i, timelineStats,
    benchmarkTimelineStats⟩

def generateProfiles (name : String) (txnRepo : TxnRepo) : Except Failure (List Profile) := do
  match txnRepo.currentCollection with
  | none => throw .noCurrent
  | some current =>
      let (txnTree, benchmarkCompositeTree) ←
        buildTxnTree hashOf classify routeConflation current txnRepo.benchmarkCollections
      let profiles ← txnTree.root.children.mapM fun categoryEntry =>
        (categoryEntry.2.children.zipIdx 1).mapM
          (generateProfile name current.probes benchmarkCompositeTree categoryEntry)
      return profiles.flatten

end Generate

end Xpedite.Profiles
