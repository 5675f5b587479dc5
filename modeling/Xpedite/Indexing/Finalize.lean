import Xpedite.Indexing.ProbeIndex
import Xpedite.Timelines.Series

/-!
Finalizing transactions one after the other.  All transactions whose routes have the same
hash get the index of the first one.
-/

namespace Xpedite.Indexing

open Xpedite.Lib ProbeIndexFactory
open Xpedite.Timelines (Counter Failure Location Probe Route itemAt itemAt_eq_ok resolveIndex
  resolveIndex_nat truthy)

namespace Transaction

def ownRoute (txn : Transaction) : Route := ⟨txn.counters.map Counter.probe⟩

def ownIndex (txn : Transaction) : Index :=
  ⟨txn.ownRoute, IndexMap.empty.addCounters 0 txn.counters⟩

def sharing (probe : Probe) (txn : Transaction) : List Counter :=
  txn.counters.filter fun counter => keyOf counter.probe = keyOf probe

end Transaction

structure Transparent (txn : Transaction) : Prop where
  route : ∃ route, txn.route = some route ∧ route.probes = txn.counters.map Counter.probe
  indexed : ∀ i counter, txn.counters[i]? = some counter → ∃ probeMap indices,
    txn.probeMap = some probeMap ∧ probeMap.get counter.probe = some indices ∧ i ∈ indices
  hits : ∀ counter ∈ txn.counters,
    txn.hitCount counter.probe = .ok (txn.sharing counter.probe).length
  found : ∀ counter ∈ txn.counters, ∀ (k : Nat) hit, (txn.sharing counter.probe)[k]? = some hit →
    txn.getCounterForProbe counter.probe k = .ok (some hit)

section Lookup

variable {txn : Transaction} {map : IndexMap} {probe : Probe} {indices : List Nat}

theorem hitCount_eq (built : txn.probeMap = some map) (present : map.get probe = some indices) :
    txn.hitCount probe = .ok indices.length := by
  rw [Transaction.hitCount, built]
  dsimp only
  rw [present, Option.getD_some]

theorem getCounterForProbe_eq (built : txn.probeMap = some map)
    (present : map.get probe = some indices) {k : Nat} {j : Nat} (kth : indices[k]? = some j) :
    txn.getCounterForProbe probe k = itemAt txn.counters j >>= fun counter => pure (some counter) := by
  have bound : k < indices.length := (List.getElem?_eq_some_iff.mp kth).1
  rw [Transaction.getCounterForProbe, built]
  dsimp only
  rw [present]
  dsimp only
  rw [resolveIndex_nat bound, Option.bind_some, kth]

theorem positions_sharing (txn : Transaction) (probe : Probe) :
    (positions (keyOf probe) (txn.counters.map Counter.probe)).map (fun j => txn.counters[j]?) =
      (txn.sharing probe).map some := by
  rw [positions, List.findIdxs_map]
  exact map_findIdxs fun _ _ present => present

theorem transparent_of_exact {route : Route} (routed : txn.route = some route)
    (own : route.probes = txn.counters.map Counter.probe) (built : txn.probeMap = some map)
    (exact' : ∀ probe ∈ txn.counters.map Counter.probe,
      map.get probe = some (positions (keyOf probe) (txn.counters.map Counter.probe))) :
    Transparent txn := by
  have each : ∀ counter ∈ txn.counters, map.get counter.probe =
      some (positions (keyOf counter.probe) (txn.counters.map Counter.probe)) :=
    fun counter listed => exact' _ (List.mem_map_of_mem listed)
  refine ⟨⟨route, routed, own⟩, ?_, ?_, ?_⟩
  · intro i counter present
    refine ⟨map, _, built, each counter (List.mem_of_getElem? present), ?_⟩
    refine mem_positions.mpr ⟨counter.probe, ?_, rfl⟩
    rw [List.getElem?_map, present, Option.map_some]
  · intro counter listed
    have long := congrArg List.length (positions_sharing txn counter.probe)
    rw [List.length_map, List.length_map] at long
    rw [hitCount_eq built (each counter listed), long]
  · intro counter listed k hit present
    have kth := congrArg (fun entries => entries[k]?) (positions_sharing txn counter.probe)
    simp only [List.getElem?_map, present, Option.map_some] at kth
    obtain ⟨j, index, there⟩ := Option.map_eq_some_iff.mp kth
    rw [getCounterForProbe_eq built (each counter listed) index, itemAt_eq_ok there]
    rfl

theorem Transparent.key_eq (transparent : Transparent txn) (built : txn.probeMap = some map)
    (listed : probe ∈ txn.counters.map Counter.probe) (present : map.get probe = some indices)
    {j : Nat} (within : j ∈ indices) {other : Probe}
    (there : (txn.counters.map Counter.probe)[j]? = some other) : keyOf other = keyOf probe := by
  obtain ⟨counter, own, rfl⟩ := List.mem_map.mp listed
  obtain ⟨k, kth⟩ := List.getElem?_of_mem within
  have long := transparent.hits counter own
  rw [hitCount_eq built present, Except.ok.injEq] at long
  have bound : k < (txn.sharing counter.probe).length :=
    long ▸ (List.getElem?_eq_some_iff.mp kth).1
  have hit := transparent.found counter own k _ (List.getElem?_eq_getElem bound)
  rw [List.getElem?_map] at there
  obtain ⟨counter', at', rfl⟩ := Option.map_eq_some_iff.mp there
  rw [getCounterForProbe_eq built present kth, itemAt_eq_ok at'] at hit
  have same : counter' = (txn.sharing counter.probe)[k] := Option.some.inj (Except.ok.inj hit)
  have shared : counter' ∈ txn.sharing counter.probe := same ▸ List.getElem_mem bound
  exact of_decide_eq_true (List.mem_filter.mp shared).2

end Lookup

section Caching

variable {hashOf : List (Option String) → Int} {cache : List (Route × Index)}

theorem sameRoute_eq (stored route : Route) :
    sameRoute hashOf stored route = decide (hashOf stored.points = hashOf route.points) := by
  simp [sameRoute, routeEq]

theorem get_of_hash {route other : Route} (together : hashOf route.points = hashOf other.points) :
    LooseDict.get (sameRoute hashOf) route cache = LooseDict.get (sameRoute hashOf) other cache := by
  apply LooseDict.get_congr
  rw [LooseDict.place, LooseDict.place]
  simp only [sameRoute_eq, together]

variable (hashOf) in
def Cached (txns : List Transaction) (cache : List (Route × Index)) : Prop :=
  ∀ route index, LooseDict.get (sameRoute hashOf) route cache = some index →
    ∃ txn ∈ txns, hashOf txn.ownRoute.points = hashOf route.points ∧ index = txn.ownIndex

variable (hashOf) in
def Served (cache : List (Route × Index)) (txn done : Transaction) : Prop :=
  ∃ index, LooseDict.get (sameRoute hashOf) txn.ownRoute cache = some index ∧
    done.counters = txn.counters ∧ done.route = some index.route ∧
    done.probeMap = some index.probeMap

theorem buildIndex_of_present {txn : Transaction} {cache : List (Route × Index)} {index : Index}
    (present : LooseDict.get (sameRoute hashOf) txn.ownRoute cache = some index) :
    buildIndex hashOf txn.counters cache = (index, cache) := by
  rw [Transaction.ownRoute] at present
  simp only [buildIndex, present]

theorem buildIndex_of_missed {txn : Transaction} {cache : List (Route × Index)}
    (missed : LooseDict.get (sameRoute hashOf) txn.ownRoute cache = none) :
    buildIndex hashOf txn.counters cache =
      (txn.ownIndex, cache ++ [(txn.ownRoute, txn.ownIndex)]) := by
  rw [← LooseDict.update_of_missed txn.ownIndex missed]
  rw [Transaction.ownRoute] at missed
  simp only [buildIndex, missed, Transaction.ownIndex, Transaction.ownRoute]

/-- What is in the cache stays, and an index for a new hash comes after it. -/
theorem get_finalize (txn : Transaction) (cache : List (Route × Index)) (route : Route) :
    LooseDict.get (sameRoute hashOf) route (txn.finalize hashOf cache).2 =
      (LooseDict.get (sameRoute hashOf) route cache).or
        (if hashOf txn.ownRoute.points = hashOf route.points then some txn.ownIndex else none) := by
  cases present : LooseDict.get (sameRoute hashOf) txn.ownRoute cache with
  | some index =>
      simp only [Transaction.finalize, buildIndex_of_present present]
      split
      case isTrue together => rw [← get_of_hash together, present, Option.some_or]
      case isFalse => rw [Option.or_none]
  | none =>
      simp only [Transaction.finalize, buildIndex_of_missed present, LooseDict.get_append,
        LooseDict.get, sameRoute_eq, decide_eq_true_eq]

theorem served_finalize (txn : Transaction) (cache : List (Route × Index)) :
    Served hashOf (txn.finalize hashOf cache).2 txn (txn.finalize hashOf cache).1 := by
  refine ⟨(buildIndex hashOf txn.counters cache).1, ?_, rfl, rfl, rfl⟩
  rw [get_finalize, if_pos rfl]
  cases present : LooseDict.get (sameRoute hashOf) txn.ownRoute cache with
  | some index => rw [buildIndex_of_present present, Option.some_or]
  | none => rw [buildIndex_of_missed present, Option.none_or]

theorem Cached.finalize {earlier : List Transaction} (cached : Cached hashOf earlier cache)
    (txn : Transaction) : Cached hashOf (earlier ++ [txn]) (txn.finalize hashOf cache).2 := by
  intro route index found
  rw [get_finalize] at found
  rcases Option.or_eq_some_iff.mp found with old | ⟨-, new⟩
  · obtain ⟨source, listed, together, same⟩ := cached route index old
    exact ⟨source, List.mem_append_left _ listed, together, same⟩
  · split at new
    case isTrue together =>
      exact ⟨txn, List.mem_append_right _ (List.mem_singleton.mpr rfl), together,
        (Option.some.inj new).symm⟩
    case isFalse => cases new

theorem finalizeAll_served {txns earlier : List Transaction} (cached : Cached hashOf earlier cache) :
    Cached hashOf (earlier ++ txns) (finalizeAll hashOf txns cache).2 ∧
      (∀ route index, LooseDict.get (sameRoute hashOf) route cache = some index →
        LooseDict.get (sameRoute hashOf) route (finalizeAll hashOf txns cache).2 = some index) ∧
      List.Forall₂ (Served hashOf (finalizeAll hashOf txns cache).2) txns
        (finalizeAll hashOf txns cache).1 := by
  induction txns generalizing cache earlier with
  | nil =>
      rw [List.append_nil]
      exact ⟨cached, fun _ _ found => found, .nil⟩
  | cons txn txns ih =>
      obtain ⟨cached', stays, served⟩ := ih (cached.finalize txn)
      rw [List.append_assoc] at cached'
      refine ⟨cached', ?_, .cons ?_ served⟩
      · intro route index found
        refine stays route index ?_
        rw [get_finalize, found, Option.some_or]
      · obtain ⟨index, found, rest⟩ := @served_finalize hashOf txn cache
        exact ⟨index, stays _ _ found, rest⟩

end Caching

section Serving

variable {hashOf : List (Option String) → Int} {cache : List (Route × Index)}
  {txns : List Transaction} {txn done : Transaction}

theorem Served.probes_eq (served : Served hashOf cache txn done) (transparent : Transparent done) :
    ∃ index, LooseDict.get (sameRoute hashOf) txn.ownRoute cache = some index ∧
      index.route.probes = txn.ownRoute.probes := by
  obtain ⟨index, found, counters, routed, -⟩ := served
  obtain ⟨route, routed', own⟩ := transparent.route
  rw [routed, Option.some.injEq] at routed'
  rw [counters] at own
  exact ⟨index, found, routed' ▸ own⟩

theorem Served.undisturbed (served : Served hashOf cache txn done)
    (cached : Cached hashOf txns cache) (transparent : Transparent done) :
    Undisturbed [] [] txn.ownRoute.probes := by
  obtain ⟨index, found, own⟩ := served.probes_eq transparent
  obtain ⟨source, -, -, rfl⟩ := cached _ _ found
  obtain ⟨_, found', counters, -, built⟩ := served
  rw [found, Option.some.injEq] at found'
  rw [← own]
  by_contra disturbed
  obtain ⟨probe, listed, indices, present, j, within, other, there, differ⟩ :=
    exists_misled disturbed
  have same : done.counters.map Counter.probe = source.counters.map Counter.probe := by
    rw [counters]
    exact own.symm
  rw [← same] at listed there
  exact differ (transparent.key_eq (built.trans (congrArg (some ∘ Index.probeMap) found'.symm)) listed
    present within there)

theorem Served.transparent (served : Served hashOf cache txn done)
    (cached : Cached hashOf txns cache)
    (apart : ∀ source ∈ txns, hashOf source.ownRoute.points = hashOf txn.ownRoute.points →
      source.ownRoute.probes = txn.ownRoute.probes)
    (undisturbed : Undisturbed [] [] txn.ownRoute.probes) : Transparent done := by
  obtain ⟨index, found, counters, routed, built⟩ := served
  obtain ⟨source, listed, together, rfl⟩ := cached _ _ found
  have same : source.counters.map Counter.probe = done.counters.map Counter.probe := by
    rw [counters]
    exact apart source listed together
  refine transparent_of_exact routed same built fun probe present => ?_
  rw [← same] at present ⊢
  refine get_addCounters ?_ present
  rw [same, counters]
  exact undisturbed

theorem exists_of_mem {α β : Type} {relation : α → β → Prop} {front : List α} {back : List β}
    (related : List.Forall₂ relation front back) {item : α} (listed : item ∈ front) :
    ∃ other ∈ back, relation item other := by
  obtain ⟨bound, each⟩ := List.forall₂_iff_get.mp related
  obtain ⟨k, less, rfl⟩ := List.getElem_of_mem listed
  exact ⟨back[k], List.getElem_mem (bound ▸ less), each k less (bound ▸ less)⟩

end Serving

section Runs

variable {hashOf : List (Option String) → Int} {txns : List Transaction}

theorem finalizeAll_empty : Cached hashOf txns (finalizeAll hashOf txns []).2 ∧
    List.Forall₂ (Served hashOf (finalizeAll hashOf txns []).2) txns
      (finalizeAll hashOf txns []).1 := by
  have empty : Cached hashOf [] [] := by
    intro route index found
    cases found
  obtain ⟨cached, -, served⟩ := @finalizeAll_served hashOf [] txns [] empty
  exact ⟨cached, served⟩

/-- Transactions of a transparent run whose routes have one hash hit the same probes. -/
theorem probes_eq_of_transparent
    (transparent : ∀ done ∈ (finalizeAll hashOf txns []).1, Transparent done) {txn other : Transaction}
    (listed : txn ∈ txns) (listed' : other ∈ txns)
    (together : hashOf txn.ownRoute.points = hashOf other.ownRoute.points) :
    txn.ownRoute.probes = other.ownRoute.probes := by
  obtain ⟨-, served⟩ := @finalizeAll_empty hashOf txns
  obtain ⟨done, finished, servedTxn⟩ := exists_of_mem served listed
  obtain ⟨done', finished', servedOther⟩ := exists_of_mem served listed'
  obtain ⟨index, found, own⟩ := servedTxn.probes_eq (transparent done finished)
  obtain ⟨index', found', own'⟩ := servedOther.probes_eq (transparent done' finished')
  rw [get_of_hash together, found', Option.some.injEq] at found
  rw [← own, ← own', found]

end Runs

/--
Over any sequence of transactions, all of them get an index of their own counters exactly if
routes with one hash are routes of the same probes, and no probe of a transaction is found at
the location of another one, unless both have names.
-/
theorem finalizeAll_transparent_iff (hashOf : List (Option String) → Int)
    (txns : List Transaction) :
    (∀ done ∈ (finalizeAll hashOf txns []).1, Transparent done) ↔
      (∀ txn ∈ txns, ∀ other ∈ txns,
        hashOf txn.ownRoute.points = hashOf other.ownRoute.points →
          txn.ownRoute.probes = other.ownRoute.probes) ∧
      ∀ txn ∈ txns, Undisturbed [] [] txn.ownRoute.probes := by
  obtain ⟨cached, served⟩ := @finalizeAll_empty hashOf txns
  constructor
  · intro transparent
    refine ⟨fun txn listed other listed' => probes_eq_of_transparent transparent listed listed', ?_⟩
    intro txn listed
    obtain ⟨done, finished, servedTxn⟩ := exists_of_mem served listed
    exact servedTxn.undisturbed cached (transparent done finished)
  · rintro ⟨apart, undisturbed⟩ done finished
    obtain ⟨txn, listed, servedTxn⟩ := exists_of_mem served.flip finished
    exact Served.transparent servedTxn cached (fun source within => apart source within txn listed)
      (undisturbed txn listed)

section Sample

theorem txnAt_named (lineNo : Nat) :
    some (⟨[], "app.cpp", lineNo⟩ : Location) = none → truthy none = true := nofun

def txnAt (lineNo : Nat) : Transaction where
  txnId := lineNo
  counters := [⟨"1", ⟨"probe", none, some ⟨[], "app.cpp", lineNo⟩, txnAt_named lineNo⟩, "", 10, []⟩]
  started := List.cons_ne_nil _ _
  probeMap := none
  route := none
  begin := none
  ending := none

/-- Whatever the hash function, the second transaction gets the route of the first one. -/
theorem finalizeAll_fails_unnamed :
    ¬∃ hashOf, ∀ done ∈ (finalizeAll hashOf [txnAt 1, txnAt 2] []).1, Transparent done := by
  rintro ⟨hashOf, transparent⟩
  have same := @probes_eq_of_transparent hashOf _ transparent (txnAt 1) (txnAt 2)
    List.mem_cons_self (List.mem_cons_of_mem _ List.mem_cons_self) rfl
  exact absurd same (by decide)

end Sample

end Xpedite.Indexing
