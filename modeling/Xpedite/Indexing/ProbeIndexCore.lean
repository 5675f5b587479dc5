import Mathlib.Data.List.MinMax
import Xpedite.Lib.Arena
import Xpedite.Lib.LooseDict
import Xpedite.Timelines.TimelineCore

/-!
The probe index of a transaction and the cache that transactions share it by
(`ProbeMap` of `xpedite/types/containers.py`, `ProbeIndexFactory` of
`xpedite/util/probeFactory.py` and `Transaction` of `xpedite/txn/__init__.py`).  The lists of
indices live in an arena: a list that is stored for a location and for a name is one object.
-/

namespace Xpedite.Indexing

open Xpedite.Lib
open Xpedite.Timelines (Counter Failure Location Probe Route itemAt resolveIndex truthy)

/-- Anchored probes are keys by their location, which is all that their `__eq__` looks at. -/
structure ProbeMap (Value : Type) where
  anchoredProbeMap : List (Location × Value)
  namedProbeMap : OrderedDict (Option String) Value

namespace ProbeMap

variable {Value : Type}

def empty : ProbeMap Value := ⟨[], []⟩

/-- `probe in probeMap` and `probeMap[probe]` take the same branches. -/
def get (probe : Probe) (probeMap : ProbeMap Value) : Option Value :=
  if truthy probe.sysName then OrderedDict.get probe.sysName probeMap.namedProbeMap
  else
    match probe.location with
    | some location => LooseDict.get Location.eq location probeMap.anchoredProbeMap
    | none => none

def update (probe : Probe) (value : Value) (probeMap : ProbeMap Value) : ProbeMap Value :=
  match probe.location with
  | some location =>
      ⟨LooseDict.update Location.eq location value probeMap.anchoredProbeMap,
        OrderedDict.update probe.sysName value probeMap.namedProbeMap⟩
  | none =>
      { probeMap with
        namedProbeMap := OrderedDict.update probe.sysName value probeMap.namedProbeMap }

end ProbeMap

structure IndexMap where
  probeMap : ProbeMap Nat
  lists : Arena (List Nat)

namespace IndexMap

def empty : IndexMap := ⟨.empty, .empty []⟩

def get (probe : Probe) (map : IndexMap) : Option (List Nat) :=
  (map.probeMap.get probe).map map.lists.cell

def addCounter (map : IndexMap) (counter : Counter) (index : Nat) : IndexMap :=
  match map.probeMap.get counter.probe with
  | some list => { map with lists := map.lists.modify list fun indices => indices ++ [index] }
  | none =>
      { probeMap := map.probeMap.update counter.probe map.lists.size
        lists := map.lists.alloc [index] }

def addCounters : IndexMap → Nat → List Counter → IndexMap
  | map, _, [] => map
  | map, i, counter :: counters => addCounters (map.addCounter counter i) (i + 1) counters

end IndexMap

structure Index where
  route : Route
  probeMap : IndexMap

namespace ProbeIndexFactory

/-- `__eq__` of a route compares the points of the left one with themselves. -/
def routeEq (self _other : Route) : Bool := self.points = self.points

section Caching

variable (hashOf : List (Option String) → Int)

/-- The cache is a dictionary: keys are the same if their hashes and they themselves are equal. -/
def sameRoute (stored route : Route) : Bool :=
  hashOf stored.points = hashOf route.points ∧ routeEq stored route

def buildIndex (counters : List Counter) (cache : List (Route × Index)) :
    Index × List (Route × Index) :=
  let route : Route := ⟨counters.map Counter.probe⟩
  match LooseDict.get (sameRoute hashOf) route cache with
  | some index => (index, cache)
  | none =>
      let index : Index := ⟨route, IndexMap.empty.addCounters 0 counters⟩
      (index, LooseDict.update (sameRoute hashOf) route index cache)

end Caching

end ProbeIndexFactory

/-- A transaction is built with a counter.  The last four are set by `finalize`. -/
structure Transaction where
  txnId : Nat
  counters : List Counter
  started : counters ≠ []
  probeMap : Option IndexMap
  route : Option Route
  begin : Option Counter
  ending : Option Counter

namespace Transaction

def hitCount (probe : Probe) (txn : Transaction) : Except Failure Nat :=
  match txn.probeMap with
  | none => .error .attributeError
  | some probeMap => .ok ((probeMap.get probe).getD []).length

def getCounterForProbe (probe : Probe) (index : Int) (txn : Transaction) :
    Except Failure (Option Counter) :=
  match txn.probeMap with
  | none => .error .attributeError
  | some probeMap =>
      match probeMap.get probe with
      | none => .ok none
      | some indices =>
          match (resolveIndex indices.length index).bind fun position => indices[position]? with
          | none => .error .indexError
          | some found => do
              let counter ← itemAt txn.counters found
              return some counter

/-- `min` and `max` take the first of several. -/
def finalize (hashOf : List (Option String) → Int) (txn : Transaction)
    (cache : List (Route × Index)) : Transaction × List (Route × Index) :=
  let built := ProbeIndexFactory.buildIndex hashOf txn.counters cache
  ({ txn with
      begin := txn.counters.argmin Counter.tsc
      ending := txn.counters.argmax Counter.tsc
      route := some built.1.route
      probeMap := some built.1.probeMap }, built.2)

end Transaction

def finalizeAll (hashOf : List (Option String) → Int) :
    List Transaction → List (Route × Index) → List Transaction × List (Route × Index)
  | [], cache => ([], cache)
  | txn :: txns, cache =>
      let done := txn.finalize hashOf cache
      let rest := finalizeAll hashOf txns done.2
      (done.1 :: rest.1, rest.2)

end Xpedite.Indexing
