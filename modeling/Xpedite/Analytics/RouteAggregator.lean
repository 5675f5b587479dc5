import Xpedite.Lib.Grouping

/-!
Aggregation of transactions by route (`xpedite/types/route.py` and
`xpedite/analytics/aggregator.py`).  A dictionary entry matches a key when the
hashes are equal and `__eq__` holds; the hash of a route is any function of its
points.
-/

namespace Xpedite.Analytics

open Xpedite.Lib

structure Route where
  points : List String
  deriving DecidableEq

namespace Route

def hash (hashOf : List String → Int) (route : Route) : Int := hashOf route.points

/-- `__eq__` compares the points of the route with themselves. -/
def eq (route _other : Route) : Bool := route.points == route.points

end Route

structure Txn where
  txnId : Nat
  route : Route
  deriving DecidableEq

structure MetaData where
  name : String
  cpuInfo : String
  probes : List String
  topdownMetrics : List String
  events : List String
  deriving DecidableEq

structure TxnSubCollection where
  metaData : MetaData
  transactions : List Txn
  deriving DecidableEq

namespace TxnSubCollection

def cloneMetaData (collection : TxnSubCollection) : TxnSubCollection :=
  { collection with transactions := [] }

def append (collection : TxnSubCollection) (txn : Txn) : TxnSubCollection :=
  { collection with transactions := collection.transactions ++ [txn] }

end TxnSubCollection

def txnSubCollectionFactory (collection : TxnSubCollection) (txn : Txn) : TxnSubCollection :=
  collection.cloneMetaData.append txn

abbrev RouteMap := List (Route × TxnSubCollection)

def matchesKey (hashOf : List String → Int) (key route : Route) : Bool :=
  key.hash hashOf == route.hash hashOf && key.eq route

def addTxn (hashOf : List String → Int) (collection : TxnSubCollection) (route : Route)
    (txn : Txn) : RouteMap → RouteMap
  | [] => [(route, txnSubCollectionFactory collection txn)]
  | entry :: rest =>
      if matchesKey hashOf entry.1 route then (entry.1, entry.2.append txn) :: rest
      else entry :: addTxn hashOf collection route txn rest

def aggregateTxnsByRoutes (hashOf : List String → Int) (collection : TxnSubCollection) : RouteMap :=
  collection.transactions.foldl (fun routeMap txn => addTxn hashOf collection txn.route txn routeMap)
    []

def transactionsOf (routeMap : RouteMap) : List (Route × List Txn) :=
  routeMap.map fun entry => (entry.1, entry.2.transactions)

/--
The groups partition the transactions by the points of their routes: a group has
the transactions with the points of its key, in their order, no two keys have the
same points, and every transaction has a group.
-/
def PartitionsByPoints (txns : List Txn) (groups : List (Route × List Txn)) : Prop :=
  GroupedBy Route.points Txn.route txns groups

theorem matchesKey_iff (hashOf : List String → Int) (key route : Route) :
    matchesKey hashOf key route = true ↔ hashOf key.points = hashOf route.points := by
  simp [matchesKey, Route.hash, Route.eq]

theorem transactionsOf_addTxn (hashOf : List String → Int) (collection : TxnSubCollection)
    (route : Route) (txn : Txn) (routeMap : RouteMap) :
    transactionsOf (addTxn hashOf collection route txn routeMap) =
      addToGroup (matchesKey hashOf) (transactionsOf routeMap) route txn := by
  induction routeMap with
  | nil => rfl
  | cons entry rest ih =>
      simp only [transactionsOf] at ih
      simp only [addTxn, transactionsOf, List.map_cons, addToGroup]
      split
      · rfl
      · rw [List.map_cons, ih]

theorem transactionsOf_aggregate (hashOf : List String → Int) (collection : TxnSubCollection) :
    transactionsOf (aggregateTxnsByRoutes hashOf collection) =
      collection.transactions.foldl
        (fun groups txn => addToGroup (matchesKey hashOf) groups txn.route txn) [] := by
  rw [aggregateTxnsByRoutes]
  induction collection.transactions using List.reverseRecOn with
  | nil => rfl
  | append_singleton txns txn ih =>
      rw [List.foldl_append, List.foldl_append, ← ih]
      exact transactionsOf_addTxn hashOf collection txn.route txn _

theorem aggregate_groupedBy_hash (hashOf : List String → Int) (collection : TxnSubCollection) :
    GroupedBy (Route.hash hashOf) Txn.route collection.transactions
      (transactionsOf (aggregateTxnsByRoutes hashOf collection)) := by
  rw [transactionsOf_aggregate]
  exact groupedBy_foldl (matchesKey_iff hashOf) Txn.route collection.transactions

theorem points_eq_of_partitions {hashOf : List String → Int} {collection : TxnSubCollection}
    (partitions : PartitionsByPoints collection.transactions
      (transactionsOf (aggregateTxnsByRoutes hashOf collection)))
    {first second : Txn} (isFirst : first ∈ collection.transactions)
    (isSecond : second ∈ collection.transactions)
    (collide : hashOf first.route.points = hashOf second.route.points) :
    first.route.points = second.route.points := by
  have byHash := aggregate_groupedBy_hash hashOf collection
  obtain ⟨group, isGroup, firstHash⟩ := byHash.covered first isFirst
  have inGroup : ∀ txn ∈ collection.transactions,
      hashOf txn.route.points = hashOf first.route.points → txn.route.points = group.1.points := by
    intro txn isTxn same
    have member : txn ∈ group.2 := by
      rw [byHash.members group isGroup, List.mem_filter, decide_eq_true_eq]
      exact ⟨isTxn, same.trans firstHash.symm⟩
    rw [partitions.members group isGroup, List.mem_filter, decide_eq_true_eq] at member
    exact member.2
  rw [inGroup first isFirst rfl, inGroup second isSecond collide.symm]

/-- Aggregation groups by points exactly when the hash tells the points of the list apart. -/
theorem aggregate_partitions_iff (hashOf : List String → Int) (collection : TxnSubCollection) :
    PartitionsByPoints collection.transactions
        (transactionsOf (aggregateTxnsByRoutes hashOf collection)) ↔
      ∀ first ∈ collection.transactions, ∀ second ∈ collection.transactions,
        hashOf first.route.points = hashOf second.route.points →
        first.route.points = second.route.points := by
  constructor
  · intro partitions first isFirst second isSecond collide
    exact points_eq_of_partitions partitions isFirst isSecond collide
  · intro apart
    have byHash := aggregate_groupedBy_hash hashOf collection
    have keyOf : ∀ group ∈ transactionsOf (aggregateTxnsByRoutes hashOf collection),
        ∃ txn ∈ collection.transactions, group.1 = txn.route := by
      intro group isGroup
      rw [transactionsOf_aggregate] at isGroup
      exact key_mem_foldl Txn.route isGroup
    constructor
    · intro group isGroup
      obtain ⟨owner, isOwner, isKey⟩ := keyOf group isGroup
      rw [byHash.members group isGroup]
      apply List.filter_congr
      intro txn isTxn
      rw [decide_eq_decide, isKey]
      exact ⟨apart txn isTxn owner isOwner, fun same => congrArg hashOf same⟩
    · have hashes : (transactionsOf (aggregateTxnsByRoutes hashOf collection)).map
          (fun group => Route.hash hashOf group.1) =
          ((transactionsOf (aggregateTxnsByRoutes hashOf collection)).map
            fun group => group.1.points).map hashOf := by
        rw [List.map_map]
        rfl
      have distinct := byHash.distinct
      rw [hashes] at distinct
      exact distinct.of_map
    · intro txn isTxn
      obtain ⟨group, isGroup, sameHash⟩ := byHash.covered txn isTxn
      obtain ⟨owner, isOwner, isKey⟩ := keyOf group isGroup
      rw [isKey] at sameHash
      exact ⟨group, isGroup, by rw [isKey]; exact apart owner isOwner txn isTxn sameHash⟩

def collidingTxns : TxnSubCollection :=
  ⟨⟨"profile", "cpu", [], [], []⟩, [⟨1, ⟨["a"]⟩⟩, ⟨2, ⟨["b"]⟩⟩]⟩

theorem not_partitions_colliding :
    ¬∀ (hashOf : List String → Int) (collection : TxnSubCollection),
      PartitionsByPoints collection.transactions
        (transactionsOf (aggregateTxnsByRoutes hashOf collection)) := by
  intro always
  have same := points_eq_of_partitions (always (fun _ => 0) collidingTxns)
    (List.mem_cons_self) (List.mem_cons_of_mem _ List.mem_cons_self) rfl
  exact absurd same (by decide)

end Xpedite.Analytics
