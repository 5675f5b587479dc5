import Mathlib.Data.List.Basic
import Xpedite.Lib.Fallible
import Xpedite.Timelines.ConflatorCore

/-!
What the delta series of a repository are after a sequence of deltas was added: each series
has, after what it held, the deltas for its event and index in the order they came.
-/

namespace Xpedite.Timelines

open Xpedite.Lib

theorem resolveIndex_nat {length index : Nat} (bound : index < length) :
    resolveIndex length index = some index := by
  rw [resolveIndex]
  simp
  omega

theorem resolveIndex_last (length : Nat) : resolveIndex (length + 1) (-1) = some length := by
  rw [resolveIndex]
  simp

structure Entry where
  eventName : String
  index : Int
  delta : Num

def pmcEntries (index : Int) (pmcNames : List String) (deltas : List Num) : List Entry :=
  List.zipWith (fun pmcName delta => ⟨pmcName, index, delta⟩) pmcNames deltas

def topdownEntries (index : Int) (topdownValues : List TopdownValue) : List Entry :=
  topdownValues.map fun topdownValue => ⟨topdownValue.name, index, topdownValue.value⟩

def tscEntry (index : Int) (timepoint : TimePoint) : Entry :=
  ⟨tscEventName, index, .num timepoint.duration⟩

namespace DeltaSeriesRepo

def record (repo : DeltaSeriesRepo) (entries : List Entry) : Except Failure DeltaSeriesRepo :=
  entries.foldlM (fun repo entry => repo.addDelta entry.eventName entry.index entry.delta) repo

def width (repo : DeltaSeriesRepo) (eventName : String) : Option Nat :=
  (OrderedDict.get eventName repo.deltaSeriesCollectionMap).map fun collection =>
    collection.deltaSeriesList.length

def placeOf (repo : DeltaSeriesRepo) (entry : Entry) : Option Nat :=
  (repo.width entry.eventName).bind fun length => resolveIndex length entry.index

def lands (repo : DeltaSeriesRepo) (eventName : String) (position : Nat) (entry : Entry) : Bool :=
  entry.eventName = eventName ∧ repo.placeOf entry = some position

variable {repo next : DeltaSeriesRepo}

theorem record_append (repo : DeltaSeriesRepo) (entries others : List Entry) :
    repo.record (entries ++ others) = repo.record entries >>= fun next => next.record others :=
  List.foldlM_append

theorem addPmcs_eq (index : Int) {pmcNames : List String} {deltas : List Num}
    (covered : pmcNames.length ≤ deltas.length) :
    repo.addPmcs index pmcNames deltas = repo.record (pmcEntries index pmcNames deltas) := by
  induction pmcNames generalizing repo deltas with
  | nil => rfl
  | cons pmcName pmcNames ih =>
      cases deltas with
      | nil => cases covered
      | cons delta deltas =>
          rw [addPmcs, pmcEntries, List.zipWith_cons_cons, record, List.foldlM_cons]
          exact congrArg _ (funext fun next => ih (Nat.le_of_succ_le_succ covered))

theorem addTopdown_eq (index : Int) (topdownValues : List TopdownValue) :
    repo.addTopdown index topdownValues = repo.record (topdownEntries index topdownValues) := by
  induction topdownValues generalizing repo with
  | nil => rfl
  | cons topdownValue topdownValues ih =>
      rw [addTopdown, topdownEntries, List.map_cons, record, List.foldlM_cons]
      exact congrArg _ (funext fun next => ih)

theorem addDelta_eq_ok {eventName : String} {index : Int} {delta : Num}
    (added : repo.addDelta eventName index delta = .ok next) :
    ∃ collection position,
      OrderedDict.get eventName repo.deltaSeriesCollectionMap = some collection ∧
        resolveIndex collection.deltaSeriesList.length index = some position ∧
        next = { repo with
          deltaSeriesCollectionMap := OrderedDict.update eventName
            (collection.addDeltaAt position delta) repo.deltaSeriesCollectionMap } := by
  rw [addDelta] at added
  split at added
  case h_1 => cases added
  case h_2 collection present =>
    split at added
    case h_1 => cases added
    case h_2 position resolved =>
      cases added
      exact ⟨collection, position, present, resolved, rfl⟩

theorem exists_addDelta {eventName : String} {index : Int} {position : Nat} (delta : Num)
    (placed : repo.placeOf ⟨eventName, index, delta⟩ = some position) :
    ∃ next, repo.addDelta eventName index delta = .ok next := by
  obtain ⟨length, wide, resolved⟩ := Option.bind_eq_some_iff.mp placed
  obtain ⟨collection, present, same⟩ := Option.map_eq_some_iff.mp wide
  rw [← same] at resolved
  simp only [addDelta, present, resolved]
  exact ⟨_, rfl⟩

theorem width_addDelta {eventName : String} {index : Int} {delta : Num}
    (added : repo.addDelta eventName index delta = .ok next) : next.width = repo.width := by
  obtain ⟨collection, position, present, -, rfl⟩ := addDelta_eq_ok added
  funext other
  rw [width, width, OrderedDict.get_update]
  split
  case isTrue same =>
    rw [← same, present, Option.map_some, Option.map_some, DeltaSeriesCollection.addDeltaAt,
      List.length_modify]
  case isFalse => rfl

theorem placeOf_addDelta {eventName : String} {index : Int} {delta : Num}
    (added : repo.addDelta eventName index delta = .ok next) : next.placeOf = repo.placeOf := by
  funext entry
  rw [placeOf, placeOf, width_addDelta added]

theorem seriesAt_addDelta {entry : Entry}
    (added : repo.addDelta entry.eventName entry.index entry.delta = .ok next)
    (eventName : String) (position : Nat) :
    next.seriesAt eventName position = (repo.seriesAt eventName position).map fun series =>
      series ++ if repo.lands eventName position entry then [entry.delta] else [] := by
  obtain ⟨collection, place, present, resolved, rfl⟩ := addDelta_eq_ok added
  have placed : repo.placeOf entry = some place := by
    rw [placeOf, width, present, Option.map_some, Option.bind_some, resolved]
  simp only [seriesAt, OrderedDict.get_update, lands, placed]
  by_cases same : entry.eventName = eventName
  · subst same
    by_cases here : place = position
    · subst here
      cases found : collection.deltaSeriesList[place]? <;>
        simp [present, DeltaSeriesCollection.addDeltaAt, DeltaSeries.addDelta, found]
    · cases found : collection.deltaSeriesList[position]? <;>
        simp [present, DeltaSeriesCollection.addDeltaAt, found, here]
  · cases found : OrderedDict.get eventName repo.deltaSeriesCollectionMap <;> simp [same]

theorem record_keeps {entries : List Entry} (recorded : repo.record entries = .ok next) :
    next.events = repo.events ∧ next.topdownKeys = repo.topdownKeys := by
  refine @foldlM_keeps _ _ _ _
    (fun after => after.events = repo.events ∧ after.topdownKeys = repo.topdownKeys)
    (fun _ => True) ?_ entries repo next ⟨rfl, rfl⟩ (fun _ _ => trivial) recorded
  intro state entry after kept _ added
  obtain ⟨collection, position, -, -, rfl⟩ := addDelta_eq_ok added
  exact kept

theorem placeOf_record {entries : List Entry} (recorded : repo.record entries = .ok next) :
    next.placeOf = repo.placeOf := by
  induction entries generalizing repo with
  | nil =>
      cases recorded
      rfl
  | cons entry entries ih =>
      rw [record, List.foldlM_cons] at recorded
      obtain ⟨after, added, rest⟩ := bind_eq_ok recorded
      rw [ih rest, placeOf_addDelta added]

theorem seriesAt_record {entries : List Entry} (recorded : repo.record entries = .ok next)
    (eventName : String) (position : Nat) :
    next.seriesAt eventName position = (repo.seriesAt eventName position).map fun series =>
      series ++ (entries.filter (repo.lands eventName position)).map Entry.delta := by
  induction entries generalizing repo with
  | nil =>
      cases recorded
      cases next.seriesAt eventName position <;> simp
  | cons entry entries ih =>
      rw [record, List.foldlM_cons] at recorded
      obtain ⟨after, added, rest⟩ := bind_eq_ok recorded
      have lands : after.lands eventName position = repo.lands eventName position := by
        funext other
        rw [DeltaSeriesRepo.lands, DeltaSeriesRepo.lands, placeOf_addDelta added]
      rw [ih rest, seriesAt_addDelta added, lands, Option.map_map, List.filter_cons]
      congr 1
      funext series
      rw [Function.comp_apply, List.append_assoc]
      split <;> rfl

theorem exists_record_iff {entries : List Entry} :
    (∃ next, repo.record entries = .ok next) ↔
      ∀ entry ∈ entries, (repo.placeOf entry).isSome = true := by
  constructor
  · rintro ⟨next, recorded⟩
    induction entries generalizing repo with
    | nil => exact fun _ listed => absurd listed List.not_mem_nil
    | cons entry entries ih =>
        rw [record, List.foldlM_cons] at recorded
        obtain ⟨after, added, rest⟩ := bind_eq_ok recorded
        obtain ⟨collection, place, present, resolved, -⟩ := addDelta_eq_ok added
        intro other listed
        rcases List.mem_cons.mp listed with rfl | later
        · rw [placeOf, width, present, Option.map_some, Option.bind_some, resolved]
          rfl
        · rw [← placeOf_addDelta added]
          exact ih rest other later
  · intro placed
    induction entries generalizing repo with
    | nil => exact ⟨repo, rfl⟩
    | cons entry entries ih =>
        obtain ⟨place, found⟩ := Option.isSome_iff_exists.mp (placed entry List.mem_cons_self)
        obtain ⟨after, added⟩ := exists_addDelta entry.delta found
        obtain ⟨next, rest⟩ := @ih after fun other listed => by
          rw [placeOf_addDelta added]
          exact placed other (List.mem_cons_of_mem entry listed)
        refine ⟨next, ?_⟩
        rw [record, List.foldlM_cons, bind_of_eq_ok added]
        exact rest

section Fresh

theorem get_emptyCollections (eventNames : List String) (eventName : String) :
    OrderedDict.get eventName (emptyCollections eventNames) =
      if eventName = tscEventName ∨ eventName ∈ eventNames then some ⟨eventName, []⟩ else none := by
  have general : ∀ start : OrderedDict String DeltaSeriesCollection,
      OrderedDict.get eventName (eventNames.foldl (fun collections eventName =>
        OrderedDict.update eventName ⟨eventName, []⟩ collections) start) =
      if eventName ∈ eventNames then some ⟨eventName, []⟩ else OrderedDict.get eventName start := by
    induction eventNames with
    | nil => intro start; rfl
    | cons other eventNames ih =>
        intro start
        rw [List.foldl_cons, ih, OrderedDict.get_update]
        by_cases later : eventName ∈ eventNames
        · rw [if_pos later, if_pos (List.mem_cons_of_mem other later)]
        · by_cases same : other = eventName
          · subst same
            rw [if_neg later, if_pos rfl, if_pos List.mem_cons_self]
          · rw [if_neg later, if_neg same, if_neg]
            intro listed
            exact (List.mem_cons.mp listed).elim (fun eq => same eq.symm) later
  rw [emptyCollections, general, OrderedDict.get, OrderedDict.get]
  by_cases listed : eventName ∈ eventNames
  · rw [if_pos listed, if_pos (Or.inr listed)]
  · by_cases same : tscEventName = eventName
    · subst same
      rw [if_neg listed, if_pos rfl, if_pos (Or.inl rfl)]
    · rw [if_neg listed, if_neg same, if_neg]
      exact fun either => either.elim (fun eq => same eq.symm) listed

variable (events : List Event) (topdownKeys : List TopdownKey) (probes : List Probe)

theorem get_new (eventName : String) :
    OrderedDict.get eventName (new events topdownKeys probes).deltaSeriesCollectionMap =
      if eventName = tscEventName ∨ eventName ∈ eventNames events topdownKeys then
        some ⟨eventName, seriesFor probes⟩ else none := by
  refine (OrderedDict.get_map (fun collection : DeltaSeriesCollection => (⟨collection.eventName,
    collection.deltaSeriesList ++ seriesFor probes⟩ : DeltaSeriesCollection)) eventName _).trans ?_
  rw [get_emptyCollections]
  split <;> rfl

theorem length_seriesFor : (seriesFor probes).length = probes.length - 1 + 1 := by
  simp [seriesFor]

theorem series_seriesFor (position : Nat) :
    (seriesFor probes)[position]?.map DeltaSeries.series =
      if position < probes.length - 1 + 1 then some [] else none := by
  rw [← length_seriesFor]
  have blank : ∀ deltaSeries ∈ seriesFor probes, deltaSeries.series = [] := by
    intro deltaSeries listed
    rcases List.mem_append.mp listed with pair | total
    · obtain ⟨_, -, rfl⟩ := List.mem_map.mp pair
      rfl
    · cases List.mem_singleton.mp total
      rfl
  split
  case isTrue bound =>
    rw [List.getElem?_eq_getElem bound, Option.map_some, blank _ (List.getElem_mem bound)]
  case isFalse out => rw [List.getElem?_eq_none (Nat.le_of_not_lt out), Option.map_none]

theorem width_new (eventName : String) :
    (new events topdownKeys probes).width eventName =
      if eventName = tscEventName ∨ eventName ∈ eventNames events topdownKeys then
        some (probes.length - 1 + 1) else none := by
  rw [width, get_new]
  split
  case isTrue => rw [Option.map_some, length_seriesFor]
  case isFalse => rfl

theorem seriesAt_new (eventName : String) (position : Nat) :
    (new events topdownKeys probes).seriesAt eventName position =
      if eventName = tscEventName ∨ eventName ∈ eventNames events topdownKeys then
        if position < probes.length - 1 + 1 then some [] else none
      else none := by
  rw [← series_seriesFor, seriesAt, get_new]
  split
  case isTrue => cases found : (seriesFor probes)[position]? <;> simp [found]
  case isFalse => rfl

theorem placeOf_new {entry : Entry}
    (known : entry.eventName = tscEventName ∨ entry.eventName ∈ eventNames events topdownKeys) :
    (new events topdownKeys probes).placeOf entry =
      resolveIndex (probes.length - 1 + 1) entry.index := by
  rw [placeOf, width_new, if_pos known, Option.bind_some]

variable {probes} in
theorem new_congr {others : List Probe} (same : probes.length = others.length) :
    (new events topdownKeys probes).placeOf = (new events topdownKeys others).placeOf ∧
      (new events topdownKeys probes).seriesAt = (new events topdownKeys others).seriesAt := by
  constructor
  · funext entry
    rw [placeOf, placeOf, width_new, width_new, same]
  · funext eventName position
    rw [seriesAt_new, seriesAt_new, same]

end Fresh

end DeltaSeriesRepo

end Xpedite.Timelines
