import Xpedite.Timelines.Series

/-!
What `buildTimelineStats` makes of one transaction, told apart from the series it fills: the
counters that match the probes, a time point for each of them, and the deltas to record.
-/

namespace Xpedite.Timelines

open Xpedite.Lib DeltaSeriesRepo

def builtEntries (index : Int) (timepoint : TimePoint) : List Entry :=
  pmcEntries index timepoint.pmcNames timepoint.deltaPmcs ++
    (topdownEntries index timepoint.topdownValues ++ [tscEntry index timepoint])

def entriesFrom (entriesOf : Int → TimePoint → List Entry) : Nat → List TimePoint → List Entry
  | _, [] => []
  | i, timepoint :: rest => entriesOf i timepoint ++ entriesFrom entriesOf (i + 1) rest

section Span

variable (route : Route) (probes : List Probe) (collection : TxnSubCollection)

/-- The counter at `j`, which has to match the probe at `i`. -/
def matchedCounter (txn : Transaction) (i j : Nat) : Except Failure Counter := do
  let probe ← itemAt probes i
  let counter ← itemAt txn.counters j
  let same ← compareProbes probe counter.probe
  raiseIf (same = false) .probeMismatch
  return counter

def matchedCounters (txn : Transaction) : Nat → List Nat → Except Failure (List Counter)
  | _, [] => .ok []
  | i, j :: indices => do
      let counter ← matchedCounter probes txn i j
      let counters ← matchedCounters txn (i + 1) indices
      return counter :: counters

def interval (firstCounter : Counter) (i : Nat) (prevCounter counter : Counter) :
    Except Failure TimePoint := do
  let beginProbe ← itemAt probes (i - 1)
  raiseIf (counter.tsc = 0) .missingTsc
  raiseIf (counter.pmcs.length < collection.events.length) .missingPmcs
  let deltas ← deltaPmcs collection.events.length counter prevCounter
  let topdownValues ← computeTopdown collection deltas
  return {
    name := beginProbe.name
    point := collection.cpuInfo.convertCyclesToTime (prevCounter.tsc - firstCounter.tsc)
    duration := collection.cpuInfo.convertCyclesToTime (counter.tsc - prevCounter.tsc)
    pmcNames := pmcNames collection.events
    deltaPmcs := deltas
    topdownValues := topdownValues
    data := some prevCounter.data }

def intervals (firstCounter : Counter) :
    Nat → Counter → List Counter → Except Failure (List TimePoint)
  | _, _, [] => .ok []
  | i, prevCounter, counter :: counters => do
      let timepoint ← interval probes collection firstCounter i prevCounter counter
      let timepoints ← intervals firstCounter (i + 1) counter counters
      return timepoint :: timepoints

def addCounted (counter prevCounter : Counter) (totals deltas : List Num) : List Num :=
  if counter.threadId = prevCounter.threadId then List.zipWith Num.add totals deltas else totals

def totalDeltas : Counter → List Counter → List TimePoint → List Num → List Num
  | prevCounter, counter :: counters, timepoint :: timepoints, totals =>
      totalDeltas counter counters timepoints
        (addCounted counter prevCounter totals timepoint.deltaPmcs)
  | _, _, _, totals => totals

/-- A timeline before its inception is known. -/
structure Span where
  tsc : Nat
  firstCounter : Counter
  points : List TimePoint
  lastPoint : TimePoint
  endpoint : TimePoint

def endpointDeltas (firstCounter : Counter) (rest : List Counter) (points : List TimePoint) :
    List Num :=
  totalDeltas firstCounter rest points (List.replicate collection.events.length (.num 0))

def Span.of (lastProbe : Probe) (tsc : Nat) (firstCounter : Counter) (rest : List Counter)
    (points : List TimePoint) (topdownValues : List TopdownValue) : Span where
  tsc := tsc
  firstCounter := firstCounter
  points := points
  lastPoint := ⟨lastProbe.name, collection.cpuInfo.convertCyclesToTime
    ((rest.getLastD firstCounter).tsc - firstCounter.tsc), 0, [], [], [],
    some (rest.getLastD firstCounter).data⟩
  endpoint := ⟨"end", 0, collection.cpuInfo.convertCyclesToTime
    ((rest.map Counter.tsc).foldl max firstCounter.tsc - firstCounter.tsc),
    pmcNames collection.events, endpointDeltas collection firstCounter rest points, topdownValues,
    none⟩

def spanFrom (tsc : Nat) (firstCounter : Counter) (rest : List Counter) : Except Failure Span := do
  let points ← intervals probes collection firstCounter 1 firstCounter rest
  let lastProbe ← itemAt probes (probes.length - 1)
  let topdownValues ← computeTopdown collection (endpointDeltas collection firstCounter rest points)
  return Span.of collection lastProbe tsc firstCounter rest points topdownValues

def spanOf (txn : Transaction) : Except Failure Span := do
  let begin ← itemAt txn.counters 0
  let indices ← indicesFor route txn
  let counters ← matchedCounters probes txn 0 indices
  match counters with
  | [] => throw .attributeError
  | firstCounter :: rest => spanFrom probes collection begin.tsc firstCounter rest

def Span.timeline (span : Span) (cpuInfo : CpuInfo) (inceptionTsc : Nat) (txn : Transaction) :
    Timeline where
  txn := txn
  tsc := span.tsc
  txnId := txn.txnId
  points := span.points ++ [span.lastPoint]
  endpoint := span.endpoint
  inception :=
    if inceptionTsc = 0 then 0
    else truncate (cpuInfo.convertCyclesToTime (span.firstCounter.tsc - inceptionTsc) / 1000)

def Span.entries (span : Span) : List Entry :=
  entriesFrom builtEntries 0 span.points ++ builtEntries (-1) span.endpoint

end Span

section Steps

variable {route : Route} {probes : List Probe} {collection : TxnSubCollection}

theorem matchedCounters_cons_eq_ok_iff {txn : Transaction} {i j : Nat} {indices : List Nat}
    {counters : List Counter} :
    matchedCounters probes txn i (j :: indices) = .ok counters ↔
      ∃ counter others, matchedCounter probes txn i j = .ok counter ∧
        matchedCounters probes txn (i + 1) indices = .ok others ∧ counters = counter :: others :=
  bind_cons_eq_ok_iff

theorem intervals_cons_eq_ok_iff {firstCounter prevCounter counter : Counter}
    {counters : List Counter} {i : Nat} {points : List TimePoint} :
    intervals probes collection firstCounter i prevCounter (counter :: counters) = .ok points ↔
      ∃ timepoint timepoints,
        interval probes collection firstCounter i prevCounter counter = .ok timepoint ∧
        intervals probes collection firstCounter (i + 1) counter counters = .ok timepoints ∧
        points = timepoint :: timepoints :=
  bind_cons_eq_ok_iff

theorem spanFrom_eq_ok_iff {tsc : Nat} {firstCounter : Counter} {rest : List Counter} {span : Span} :
    spanFrom probes collection tsc firstCounter rest = .ok span ↔
      ∃ points lastProbe topdownValues,
        intervals probes collection firstCounter 1 firstCounter rest = .ok points ∧
        itemAt probes (probes.length - 1) = .ok lastProbe ∧
        computeTopdown collection (endpointDeltas collection firstCounter rest points) =
          .ok topdownValues ∧
        span = Span.of collection lastProbe tsc firstCounter rest points topdownValues := by
  rw [spanFrom]
  constructor
  · intro spanned
    obtain ⟨points, taken, spanned⟩ := bind_eq_ok spanned
    obtain ⟨lastProbe, last, spanned⟩ := bind_eq_ok spanned
    obtain ⟨topdownValues, computed, spanned⟩ := bind_eq_ok spanned
    exact ⟨points, lastProbe, topdownValues, taken, last, computed, (Except.ok.inj spanned).symm⟩
  · rintro ⟨points, lastProbe, topdownValues, taken, last, computed, rfl⟩
    rw [bind_of_eq_ok taken, bind_of_eq_ok last, bind_of_eq_ok computed]
    rfl

theorem spanOf_eq_ok_iff {txn : Transaction} {span : Span} :
    spanOf route probes collection txn = .ok span ↔
      ∃ begin indices firstCounter rest, itemAt txn.counters 0 = .ok begin ∧
        indicesFor route txn = .ok indices ∧
        matchedCounters probes txn 0 indices = .ok (firstCounter :: rest) ∧
        spanFrom probes collection begin.tsc firstCounter rest = .ok span := by
  rw [spanOf]
  constructor
  · intro spanned
    obtain ⟨begin, started, spanned⟩ := bind_eq_ok spanned
    obtain ⟨indices, found, spanned⟩ := bind_eq_ok spanned
    obtain ⟨counters, selected, spanned⟩ := bind_eq_ok spanned
    cases counters with
    | nil => cases spanned
    | cons firstCounter rest =>
        exact ⟨begin, indices, firstCounter, rest, started, found, selected, spanned⟩
  · rintro ⟨begin, indices, firstCounter, rest, started, found, selected, spanned⟩
    rw [bind_of_eq_ok started, bind_of_eq_ok found, bind_of_eq_ok selected]
    exact spanned

theorem length_deltaPmcs {pmcCount : Nat} {counter prevCounter : Counter} {deltas : List Num}
    (counted : deltaPmcs pmcCount counter prevCounter = .ok deltas) : deltas.length = pmcCount := by
  rw [deltaPmcs] at counted
  split at counted
  case isTrue =>
    rw [← (mapM_eq_ok_iff.mp counted).length_eq, List.length_range]
  case isFalse =>
    cases counted
    exact List.length_replicate

theorem record_builtEntries {repo : DeltaSeriesRepo} (index : Int) {timepoint : TimePoint}
    (covered : timepoint.pmcNames.length ≤ timepoint.deltaPmcs.length) :
    repo.record (builtEntries index timepoint) = (do
      let repo ← repo.addPmcs index timepoint.pmcNames timepoint.deltaPmcs
      let repo ← repo.addTopdown index timepoint.topdownValues
      repo.addDelta tscEventName index (.num timepoint.duration)) := by
  rw [builtEntries, record_append, addPmcs_eq index covered]
  refine congrArg _ (funext fun next => ?_)
  rw [record_append, addTopdown_eq]
  refine congrArg _ (funext fun next => ?_)
  rw [record, List.foldlM_cons, tscEntry]
  exact bind_pure _

structure Sampled (collection : TxnSubCollection) (timepoint : TimePoint) : Prop where
  named : timepoint.pmcNames = pmcNames collection.events
  counted : timepoint.deltaPmcs.length = collection.events.length
  computed : computeTopdown collection timepoint.deltaPmcs = .ok timepoint.topdownValues

theorem interval_eq_ok {firstCounter prevCounter counter : Counter} {i : Nat} {timepoint : TimePoint}
    (made : interval probes collection firstCounter i prevCounter counter = .ok timepoint) :
    Sampled collection timepoint ∧ timepoint.duration =
      collection.cpuInfo.convertCyclesToTime (counter.tsc - prevCounter.tsc) := by
  obtain ⟨beginProbe, -, made⟩ := bind_eq_ok made
  obtain ⟨_, -, made⟩ := bind_eq_ok made
  obtain ⟨_, -, made⟩ := bind_eq_ok made
  obtain ⟨deltas, counted, made⟩ := bind_eq_ok made
  obtain ⟨topdownValues, computed, made⟩ := bind_eq_ok made
  cases made
  exact ⟨⟨rfl, length_deltaPmcs counted, computed⟩, rfl⟩

theorem length_totalDeltas {firstCounter prevCounter : Counter} {counters : List Counter} {i : Nat}
    {points : List TimePoint} {totals : List Num}
    (taken : intervals probes collection firstCounter i prevCounter counters = .ok points)
    (total : totals.length = collection.events.length) :
    (totalDeltas prevCounter counters points totals).length = collection.events.length := by
  induction counters generalizing i prevCounter points totals with
  | nil => exact total
  | cons counter counters ih =>
      obtain ⟨timepoint, timepoints, made, rest, rfl⟩ := intervals_cons_eq_ok_iff.mp taken
      refine ih rest ?_
      rw [addCounted]
      split
      case isTrue => rw [List.length_zipWith, total, (interval_eq_ok made).1.counted, Nat.min_self]
      case isFalse => exact total

theorem length_pmcNames (events : List Event) : (pmcNames events).length = events.length :=
  List.length_map _

theorem addInterval_eq_ok_iff {i : Nat} {firstCounter prevCounter counter : Counter}
    {walk after : Walk} (timed : counter.tsc ≠ 0) :
    addInterval probes collection i firstCounter prevCounter counter walk = .ok after ↔
      ∃ timepoint repo, interval probes collection firstCounter i prevCounter counter = .ok timepoint ∧
        walk.repo.record (builtEntries (i - 1) timepoint) = .ok repo ∧
        after = ⟨repo, walk.points ++ [timepoint],
          addCounted counter prevCounter walk.endpointDeltas timepoint.deltaPmcs, walk.maxTsc,
          some (firstCounter, counter)⟩ := by
  rw [addInterval, interval]
  constructor
  · intro done
    obtain ⟨beginProbe, begins, done⟩ := bind_eq_ok done
    obtain ⟨_, sampled, done⟩ := bind_eq_ok done
    obtain ⟨deltas, counted, done⟩ := bind_eq_ok done
    obtain ⟨repo, pmcsAdded, done⟩ := bind_eq_ok done
    obtain ⟨topdownValues, computed, done⟩ := bind_eq_ok done
    obtain ⟨next, topdownAdded, done⟩ := bind_eq_ok done
    obtain ⟨final, timeAdded, done⟩ := bind_eq_ok done
    cases done
    refine ⟨_, final, ?_, ?_, rfl⟩
    · rw [bind_of_eq_ok begins, bind_of_eq_ok (raiseIf_eq_ok timed), bind_of_eq_ok sampled,
        bind_of_eq_ok counted, bind_of_eq_ok computed]
      rfl
    · rw [record_builtEntries]
      · rw [bind_of_eq_ok pmcsAdded, bind_of_eq_ok topdownAdded, timeAdded]
      · exact (length_pmcNames collection.events).trans_le (length_deltaPmcs counted).ge
  · rintro ⟨timepoint, repo, taken, recorded, rfl⟩
    obtain ⟨beginProbe, begins, taken⟩ := bind_eq_ok taken
    obtain ⟨_, -, taken⟩ := bind_eq_ok taken
    obtain ⟨_, sampled, taken⟩ := bind_eq_ok taken
    obtain ⟨deltas, counted, taken⟩ := bind_eq_ok taken
    obtain ⟨topdownValues, computed, taken⟩ := bind_eq_ok taken
    cases taken
    rw [record_builtEntries] at recorded
    · obtain ⟨first, pmcsAdded, recorded⟩ := bind_eq_ok recorded
      obtain ⟨second, topdownAdded, recorded⟩ := bind_eq_ok recorded
      rw [bind_of_eq_ok begins, bind_of_eq_ok sampled, bind_of_eq_ok counted]
      dsimp only
      rw [bind_of_eq_ok pmcsAdded, bind_of_eq_ok computed, bind_of_eq_ok topdownAdded,
        bind_of_eq_ok recorded]
      rfl
    · exact (length_pmcNames collection.events).trans_le (length_deltaPmcs counted).ge

theorem compute_names {metrics : TopdownMetrics} {counterMap : CounterMap}
    {topdownValues : List TopdownValue} (computed : metrics.compute counterMap = .ok topdownValues) :
    topdownValues.map TopdownValue.name = metrics.topdownKeys.flatMap TopdownKey.visit := by
  have named : ∀ {formula : String → Except Failure TopdownValue} {names : List String}
      {values : List TopdownValue}, names.mapM formula = .ok values →
      (∀ name value, formula name = .ok value → value.name = name) →
      values.map TopdownValue.name = names := by
    intro formula names values evaluated keeps
    rw [← List.forall₂_eq_eq_eq, List.forall₂_map_left_iff]
    exact ((mapM_eq_ok_iff.mp evaluated).imp fun name value => keeps name value).flip
  obtain ⟨nodeValues, nodes, computed⟩ := bind_eq_ok computed
  obtain ⟨metricValues, values, computed⟩ := bind_eq_ok computed
  cases computed
  rw [List.map_append, named nodes, named values, TopdownMetrics.topdownKeys, List.flatMap_append,
    List.flatMap_map, List.flatMap_map]
  · congr 1
    exact (List.flatMap_singleton' _).symm
  · intro name value evaluated
    obtain ⟨val, -, evaluated⟩ := bind_eq_ok evaluated
    cases evaluated
    rfl
  · intro name value evaluated
    obtain ⟨val, -, evaluated⟩ := bind_eq_ok evaluated
    cases evaluated
    rfl

theorem computeTopdown_names {deltas : List Num} {topdownValues : List TopdownValue}
    (computed : computeTopdown collection deltas = .ok topdownValues) {value : TopdownValue}
    (listed : value ∈ topdownValues) :
    value.name ∈ (topdownKeysOf collection).flatMap TopdownKey.visit := by
  rw [computeTopdown] at computed
  split at computed
  case isTrue =>
    cases computed
    cases listed
  case isFalse =>
    split at computed
    case h_1 =>
      cases computed
      cases listed
    case h_2 metrics given =>
      rw [topdownKeysOf, given, ← compute_names computed]
      exact List.mem_map_of_mem listed

theorem Sampled.mem_pmcEntries {index : Int} {timepoint : TimePoint} {entry : Entry}
    (sampled : Sampled collection timepoint)
    (listed : entry ∈ pmcEntries index timepoint.pmcNames timepoint.deltaPmcs ++
      topdownEntries index timepoint.topdownValues) :
    entry.index = index ∧
      entry.eventName ∈ eventNames collection.events (topdownKeysOf collection) := by
  rcases List.mem_append.mp listed with pmc | topdown
  · rw [pmcEntries, ← List.map_uncurry_zip_eq_zipWith] at pmc
    obtain ⟨pair, zipped, rfl⟩ := List.mem_map.mp pmc
    refine ⟨rfl, List.mem_append_left _ ?_⟩
    rw [← sampled.named]
    exact (List.of_mem_zip zipped).1
  · obtain ⟨value, present, rfl⟩ := List.mem_map.mp topdown
    exact ⟨rfl, List.mem_append_right _ (computeTopdown_names sampled.computed present)⟩

theorem Sampled.mem_builtEntries {index : Int} {timepoint : TimePoint} {entry : Entry}
    (sampled : Sampled collection timepoint) (listed : entry ∈ builtEntries index timepoint) :
    entry.index = index ∧ (entry.eventName = tscEventName ∨
      entry.eventName ∈ eventNames collection.events (topdownKeysOf collection)) := by
  rw [builtEntries, ← List.append_assoc] at listed
  rcases List.mem_append.mp listed with event | time
  · exact (sampled.mem_pmcEntries event).imp id Or.inr
  · rw [List.mem_singleton.mp time]
    exact ⟨rfl, Or.inl rfl⟩

theorem intervals_placed {firstCounter prevCounter : Counter} {counters : List Counter} {k : Nat}
    {points : List TimePoint}
    (taken : intervals probes collection firstCounter (k + 1) prevCounter counters = .ok points) :
    ∀ entry ∈ entriesFrom builtEntries k points,
      ((DeltaSeriesRepo.new collection.events (topdownKeysOf collection) probes).placeOf
        entry).isSome = true := by
  induction counters generalizing k prevCounter points with
  | nil =>
      cases taken
      exact fun _ listed => absurd listed List.not_mem_nil
  | cons counter counters ih =>
      obtain ⟨timepoint, timepoints, made, rest, rfl⟩ := intervals_cons_eq_ok_iff.mp taken
      intro entry listed
      rcases List.mem_append.mp listed with here | later
      · obtain ⟨at', known⟩ := (interval_eq_ok made).1.mem_builtEntries here
        obtain ⟨beginProbe, begins, -⟩ := bind_eq_ok made
        have bound : k < probes.length := lt_of_itemAt_eq_ok begins
        rw [placeOf_new _ _ _ known, at', resolveIndex_nat (by omega)]
        rfl
      · exact ih rest entry later

theorem spanFrom_placed {tsc : Nat} {firstCounter : Counter} {rest : List Counter} {span : Span}
    (spanned : spanFrom probes collection tsc firstCounter rest = .ok span) :
    ∀ entry ∈ span.entries,
      ((DeltaSeriesRepo.new collection.events (topdownKeysOf collection) probes).placeOf
        entry).isSome = true := by
  obtain ⟨points, lastProbe, topdownValues, taken, -, computed, rfl⟩ :=
    spanFrom_eq_ok_iff.mp spanned
  intro entry listed
  rcases List.mem_append.mp listed with interior | last
  · exact intervals_placed taken entry interior
  · have sampled : Sampled collection (Span.of collection lastProbe tsc firstCounter rest points
        topdownValues).endpoint :=
      ⟨rfl, length_totalDeltas taken List.length_replicate, computed⟩
    obtain ⟨at', known⟩ := sampled.mem_builtEntries last
    rw [placeOf_new _ _ _ known, at', resolveIndex_last]
    rfl

variable {txn : Transaction}

theorem visitCounter_first {i j : Nat} {walk : Walk} (first : walk.counters = none) :
    visitCounter probes collection txn i j walk = (do
      let counter ← matchedCounter probes txn i j
      return ⟨walk.repo, walk.points, walk.endpointDeltas, max walk.maxTsc counter.tsc,
        some (counter, counter)⟩) := by
  simp only [visitCounter, matchedCounter, bind_assoc, pure_bind, first]

theorem visitCounter_next {i j : Nat} {walk : Walk} {firstCounter prevCounter : Counter}
    (later : walk.counters = some (firstCounter, prevCounter)) :
    visitCounter probes collection txn i j walk = (do
      let counter ← matchedCounter probes txn i j
      raiseIf (counter.tsc = 0) .missingTsc
      addInterval probes collection i firstCounter prevCounter counter
        { walk with maxTsc := max walk.maxTsc counter.tsc }) := by
  simp only [visitCounter, matchedCounter, bind_assoc, pure_bind, later]

theorem visitCounter_first_eq_ok_iff {i j : Nat} {walk after : Walk} (first : walk.counters = none) :
    visitCounter probes collection txn i j walk = .ok after ↔
      ∃ counter, matchedCounter probes txn i j = .ok counter ∧
        after = ⟨walk.repo, walk.points, walk.endpointDeltas, max walk.maxTsc counter.tsc,
          some (counter, counter)⟩ := by
  rw [visitCounter_first first]
  constructor
  · intro done
    obtain ⟨counter, hit, done⟩ := bind_eq_ok done
    exact ⟨counter, hit, (Except.ok.inj done).symm⟩
  · rintro ⟨counter, hit, rfl⟩
    exact bind_of_eq_ok hit _

theorem visitCounter_next_eq_ok_iff {i j : Nat} {walk after : Walk}
    {firstCounter prevCounter : Counter} (later : walk.counters = some (firstCounter, prevCounter)) :
    visitCounter probes collection txn i j walk = .ok after ↔
      ∃ counter timepoint repo, matchedCounter probes txn i j = .ok counter ∧
        interval probes collection firstCounter i prevCounter counter = .ok timepoint ∧
        walk.repo.record (builtEntries (i - 1) timepoint) = .ok repo ∧
        after = ⟨repo, walk.points ++ [timepoint],
          addCounted counter prevCounter walk.endpointDeltas timepoint.deltaPmcs,
          max walk.maxTsc counter.tsc, some (firstCounter, counter)⟩ := by
  rw [visitCounter_next later]
  constructor
  · intro done
    obtain ⟨counter, hit, done⟩ := bind_eq_ok done
    obtain ⟨_, timed, done⟩ := bind_eq_ok done
    obtain ⟨timepoint, repo, made, recorded, rfl⟩ :=
      (addInterval_eq_ok_iff (of_raiseIf_eq_ok timed)).mp done
    exact ⟨counter, timepoint, repo, hit, made, recorded, rfl⟩
  · rintro ⟨counter, timepoint, repo, hit, made, recorded, rfl⟩
    have timed : counter.tsc ≠ 0 := by
      obtain ⟨_, -, others⟩ := bind_eq_ok made
      obtain ⟨_, timed, -⟩ := bind_eq_ok others
      exact of_raiseIf_eq_ok timed
    rw [bind_of_eq_ok hit, bind_of_eq_ok (raiseIf_eq_ok timed)]
    exact (addInterval_eq_ok_iff timed).mpr ⟨timepoint, repo, made, recorded, rfl⟩

theorem visitCounters_eq_ok_iff {k : Nat} {indices : List Nat} {walk after : Walk}
    {firstCounter prevCounter : Counter} (later : walk.counters = some (firstCounter, prevCounter)) :
    visitCounters probes collection txn (k + 1) indices walk = .ok after ↔
      ∃ counters points repo, matchedCounters probes txn (k + 1) indices = .ok counters ∧
        intervals probes collection firstCounter (k + 1) prevCounter counters = .ok points ∧
        walk.repo.record (entriesFrom builtEntries k points) = .ok repo ∧
        after = ⟨repo, walk.points ++ points,
          totalDeltas prevCounter counters points walk.endpointDeltas,
          (counters.map Counter.tsc).foldl max walk.maxTsc,
          some (firstCounter, counters.getLastD prevCounter)⟩ := by
  induction indices generalizing k walk prevCounter with
  | nil =>
      constructor
      · intro done
        cases done
        refine ⟨[], [], after.repo, rfl, rfl, rfl, ?_⟩
        rw [List.append_nil, List.getLastD_nil, ← later]
        rfl
      · rintro ⟨counters, points, repo, selected, taken, recorded, rfl⟩
        cases selected
        cases taken
        cases recorded
        rw [List.append_nil, List.getLastD_nil, ← later]
        rfl
  | cons j indices ih =>
      have place : ((k + 1 : Nat) : Int) - 1 = k := by omega
      rw [visitCounters]
      constructor
      · intro done
        obtain ⟨next, visited, done⟩ := bind_eq_ok done
        obtain ⟨counter, timepoint, repo, hit, made, recorded, rfl⟩ :=
          (visitCounter_next_eq_ok_iff later).mp visited
        obtain ⟨counters, points, final, selected, taken, rest, rfl⟩ := (ih rfl).mp done
        refine ⟨counter :: counters, timepoint :: points, final,
          matchedCounters_cons_eq_ok_iff.mpr ⟨counter, counters, hit, selected, rfl⟩,
          intervals_cons_eq_ok_iff.mpr ⟨timepoint, points, made, taken, rfl⟩, ?_, ?_⟩
        · rw [place] at recorded
          rw [entriesFrom, record_append, bind_of_eq_ok recorded, rest]
        · rw [List.append_assoc, List.getLastD_cons]
          rfl
      · rintro ⟨counters, points, final, selected, taken, recorded, rfl⟩
        obtain ⟨counter, others, hit, rest, rfl⟩ := matchedCounters_cons_eq_ok_iff.mp selected
        obtain ⟨timepoint, timepoints, made, later', rfl⟩ := intervals_cons_eq_ok_iff.mp taken
        rw [entriesFrom, record_append] at recorded
        obtain ⟨repo, now, recorded⟩ := bind_eq_ok recorded
        rw [← place] at now
        rw [bind_of_eq_ok ((visitCounter_next_eq_ok_iff later).mpr
          ⟨counter, timepoint, repo, hit, made, now, rfl⟩)]
        refine (ih rfl).mpr ⟨others, timepoints, final, rest, later', recorded, ?_⟩
        rw [List.append_assoc, List.getLastD_cons]
        rfl

theorem visitCounters_start_eq_ok_iff {repo : DeltaSeriesRepo} {j : Nat} {indices : List Nat}
    {zeros : List Num} {walk : Walk} :
    visitCounters probes collection txn 0 (j :: indices) ⟨repo, [], zeros, 0, none⟩ = .ok walk ↔
      ∃ firstCounter rest points next,
        matchedCounters probes txn 0 (j :: indices) = .ok (firstCounter :: rest) ∧
        intervals probes collection firstCounter 1 firstCounter rest = .ok points ∧
        repo.record (entriesFrom builtEntries 0 points) = .ok next ∧
        walk = ⟨next, points, totalDeltas firstCounter rest points zeros,
          (rest.map Counter.tsc).foldl max firstCounter.tsc,
          some (firstCounter, rest.getLastD firstCounter)⟩ := by
  rw [visitCounters]
  constructor
  · intro done
    obtain ⟨next, first, done⟩ := bind_eq_ok done
    obtain ⟨counter, hit, rfl⟩ := (visitCounter_first_eq_ok_iff rfl).mp first
    obtain ⟨counters, points, final, selected, taken, recorded, rfl⟩ :=
      (visitCounters_eq_ok_iff rfl).mp done
    refine ⟨counter, counters, points, final,
      matchedCounters_cons_eq_ok_iff.mpr ⟨counter, counters, hit, selected, rfl⟩, taken,
      recorded, ?_⟩
    rw [Nat.zero_max, List.nil_append]
  · rintro ⟨firstCounter, rest, points, next, selected, taken, recorded, rfl⟩
    obtain ⟨counter, counters, hit, others, same⟩ := matchedCounters_cons_eq_ok_iff.mp selected
    cases same
    rw [bind_of_eq_ok ((visitCounter_first_eq_ok_iff rfl).mpr ⟨firstCounter, hit, rfl⟩)]
    refine (visitCounters_eq_ok_iff rfl).mpr ⟨rest, points, next, others, taken, recorded, ?_⟩
    rw [Nat.zero_max, List.nil_append]

theorem endpoint_covered {firstCounter : Counter} {rest : List Counter} {points : List TimePoint}
    (taken : intervals probes collection firstCounter 1 firstCounter rest = .ok points) :
    (pmcNames collection.events).length ≤
      (endpointDeltas collection firstCounter rest points).length :=
  ((length_pmcNames collection.events).trans
    (length_totalDeltas taken List.length_replicate).symm).le

theorem addTransaction_eq_ok_iff {state after : BuildState} :
    addTransaction route probes collection state txn = .ok after ↔
      ∃ span repo, spanOf route probes collection txn = .ok span ∧
        state.repo.record span.entries = .ok repo ∧
        after = ⟨repo, state.timelineCollection ++
            [span.timeline collection.cpuInfo state.inceptionTsc txn],
          if state.inceptionTsc = 0 then span.firstCounter.tsc else state.inceptionTsc⟩ := by
  rw [addTransaction]
  constructor
  · intro done
    obtain ⟨begin, started, done⟩ := bind_eq_ok done
    obtain ⟨indices, found, done⟩ := bind_eq_ok done
    obtain ⟨walk, visited, done⟩ := bind_eq_ok done
    cases indices with
    | nil =>
        cases visited
        cases done
    | cons j indices =>
        obtain ⟨firstCounter, rest, points, repo, selected, taken, recorded, rfl⟩ :=
          visitCounters_start_eq_ok_iff.mp visited
        obtain ⟨lastProbe, lastOf, done⟩ := bind_eq_ok done
        obtain ⟨second, pmcsAdded, done⟩ := bind_eq_ok done
        obtain ⟨topdownValues, computed, done⟩ := bind_eq_ok done
        obtain ⟨third, topdownAdded, done⟩ := bind_eq_ok done
        obtain ⟨final, timeAdded, done⟩ := bind_eq_ok done
        cases done
        have spanned : spanFrom probes collection begin.tsc firstCounter rest = .ok (Span.of
            collection lastProbe begin.tsc firstCounter rest points topdownValues) :=
          spanFrom_eq_ok_iff.mpr ⟨points, lastProbe, topdownValues, taken, lastOf, computed, rfl⟩
        refine ⟨_, final, spanOf_eq_ok_iff.mpr
          ⟨begin, j :: indices, firstCounter, rest, started, found, selected, spanned⟩, ?_, rfl⟩
        rw [Span.entries, record_append]
        refine (bind_of_eq_ok recorded _).trans ?_
        refine (record_builtEntries (-1) (endpoint_covered taken)).trans ?_
        refine (bind_of_eq_ok pmcsAdded _).trans ?_
        exact (bind_of_eq_ok topdownAdded _).trans timeAdded
  · rintro ⟨span, repo, spanned, recorded, rfl⟩
    obtain ⟨begin, indices, firstCounter, rest, started, found, selected, spanned⟩ :=
      spanOf_eq_ok_iff.mp spanned
    obtain ⟨points, lastProbe, topdownValues, taken, lastOf, computed, rfl⟩ :=
      spanFrom_eq_ok_iff.mp spanned
    cases indices with
    | nil => cases selected
    | cons j indices =>
        rw [Span.entries, record_append] at recorded
        obtain ⟨first, filled, recorded⟩ := bind_eq_ok recorded
        replace recorded :=
          (record_builtEntries (-1) (endpoint_covered taken)).symm.trans recorded
        obtain ⟨second, pmcsAdded, recorded⟩ := bind_eq_ok recorded
        obtain ⟨third, topdownAdded, timeAdded⟩ := bind_eq_ok recorded
        rw [bind_of_eq_ok started, bind_of_eq_ok found,
          bind_of_eq_ok (visitCounters_start_eq_ok_iff.mpr
            ⟨firstCounter, rest, points, first, selected, taken, filled, rfl⟩)]
        dsimp only
        rw [bind_of_eq_ok lastOf]
        refine (bind_of_eq_ok pmcsAdded _).trans ?_
        refine (bind_of_eq_ok computed _).trans ?_
        refine (bind_of_eq_ok topdownAdded _).trans ?_
        exact bind_of_eq_ok timeAdded _

theorem length_indicesFor {indices : List Nat} (found : indicesFor route txn = .ok indices) :
    indices.length = route.length := by
  rw [indicesFor] at found
  split at found
  case isTrue =>
    split at found
    case h_1 others conflated =>
      cases found
      rw [conflateRoutes] at conflated
      split at conflated
      case isTrue same =>
        rw [← Option.some.inj conflated, List.length_reverse]
        exact same.symm
      case isFalse => cases conflated
    case h_2 => cases found
  case isFalse =>
    cases found
    exact List.length_range

theorem length_matchedCounters {i : Nat} {indices : List Nat} {counters : List Counter}
    (selected : matchedCounters probes txn i indices = .ok counters) :
    counters.length = indices.length := by
  induction indices generalizing i counters with
  | nil =>
      cases selected
      rfl
  | cons j indices ih =>
      obtain ⟨counter, others, -, rest, rfl⟩ := matchedCounters_cons_eq_ok_iff.mp selected
      exact congrArg Nat.succ (ih rest)

theorem intervals_sampled {firstCounter prevCounter : Counter} {counters : List Counter} {i : Nat}
    {points : List TimePoint}
    (taken : intervals probes collection firstCounter i prevCounter counters = .ok points) :
    points.length = counters.length ∧ ∀ timepoint ∈ points, Sampled collection timepoint := by
  induction counters generalizing i prevCounter points with
  | nil =>
      cases taken
      exact ⟨rfl, fun _ listed => absurd listed List.not_mem_nil⟩
  | cons counter counters ih =>
      obtain ⟨timepoint, timepoints, made, rest, rfl⟩ := intervals_cons_eq_ok_iff.mp taken
      obtain ⟨same, sampled⟩ := ih rest
      refine ⟨congrArg Nat.succ same, fun other listed => ?_⟩
      rcases List.mem_cons.mp listed with rfl | later
      · exact (interval_eq_ok made).1
      · exact sampled other later

/-- A span has a point for each probe of the route, the last one without deltas. -/
structure Spanned (route : Route) (collection : TxnSubCollection) (span : Span) : Prop where
  length_eq : span.points.length + 1 = route.length
  points : ∀ timepoint ∈ span.points, Sampled collection timepoint
  endpoint : Sampled collection span.endpoint

theorem spanOf_spanned {span : Span} (spanned : spanOf route probes collection txn = .ok span) :
    Spanned route collection span := by
  obtain ⟨begin, indices, firstCounter, rest, -, found, selected, spanned⟩ :=
    spanOf_eq_ok_iff.mp spanned
  obtain ⟨points, lastProbe, topdownValues, taken, -, computed, rfl⟩ :=
    spanFrom_eq_ok_iff.mp spanned
  obtain ⟨same, sampled⟩ := intervals_sampled taken
  refine ⟨?_, sampled, rfl, length_totalDeltas taken List.length_replicate, computed⟩
  rw [← length_indicesFor found, ← length_matchedCounters selected, List.length_cons, ← same]
  rfl

end Steps

def Timeline.entries (timeline : Timeline) : List Entry :=
  entriesFrom builtEntries 0 timeline.points.dropLast ++ builtEntries (-1) timeline.endpoint

section Runs

variable (route : Route) (probes : List Probe) (collection : TxnSubCollection)

def Built (timeline : Timeline) : Prop :=
  ∃ span inceptionTsc, spanOf route probes collection timeline.txn = .ok span ∧
    timeline = span.timeline collection.cpuInfo inceptionTsc timeline.txn

variable {route probes collection}

theorem Span.entries_timeline (span : Span) (cpuInfo : CpuInfo) (inceptionTsc : Nat)
    (txn : Transaction) : (span.timeline cpuInfo inceptionTsc txn).entries = span.entries := by
  rw [Timeline.entries, Span.timeline, List.dropLast_concat, Span.entries]

theorem Built.unique {timeline other : Timeline} (built : Built route probes collection timeline)
    (built' : Built route probes collection other) (same : timeline.txn = other.txn) :
    timeline.points = other.points ∧ timeline.endpoint = other.endpoint := by
  obtain ⟨span, inceptionTsc, spanned, made⟩ := built
  obtain ⟨span', inceptionTsc', spanned', made'⟩ := built'
  rw [same, spanned'] at spanned
  cases spanned
  rw [made, made']
  exact ⟨rfl, rfl⟩

theorem foldlM_addTransaction_eq_ok {txns : List Transaction} {state after : BuildState}
    (folded : txns.foldlM (addTransaction route probes collection) state = .ok after) :
    ∃ timelines, after.timelineCollection = state.timelineCollection ++ timelines ∧
      timelines.map Timeline.txn = txns ∧
      (∀ timeline ∈ timelines, Built route probes collection timeline) ∧
      state.repo.record (timelines.flatMap Timeline.entries) = .ok after.repo := by
  induction txns generalizing state with
  | nil =>
      cases folded
      exact ⟨[], (List.append_nil _).symm, rfl, fun _ listed => absurd listed List.not_mem_nil, rfl⟩
  | cons txn txns ih =>
      rw [List.foldlM_cons] at folded
      obtain ⟨next, added, folded⟩ := bind_eq_ok folded
      obtain ⟨span, repo, spanned, recorded, rfl⟩ := addTransaction_eq_ok_iff.mp added
      obtain ⟨timelines, collected, same, built, rest⟩ := ih folded
      refine ⟨span.timeline collection.cpuInfo state.inceptionTsc txn :: timelines, ?_, ?_, ?_, ?_⟩
      · rw [collected, List.append_assoc, List.singleton_append]
      · rw [List.map_cons, same]
        rfl
      · intro timeline listed
        rcases List.mem_cons.mp listed with rfl | later
        · exact ⟨span, state.inceptionTsc, spanned, rfl⟩
        · exact built timeline later
      · rw [List.flatMap_cons, record_append, Span.entries_timeline, bind_of_eq_ok recorded, rest]

theorem exists_foldlM_addTransaction {txns : List Transaction} {state : BuildState}
    (each : ∀ txn ∈ txns, ∃ span, spanOf route probes collection txn = .ok span ∧
      ∀ entry ∈ span.entries, (state.repo.placeOf entry).isSome = true) :
    ∃ after, txns.foldlM (addTransaction route probes collection) state = .ok after := by
  induction txns generalizing state with
  | nil => exact ⟨state, rfl⟩
  | cons txn txns ih =>
      obtain ⟨span, spanned, placed⟩ := each txn List.mem_cons_self
      obtain ⟨repo, recorded⟩ := exists_record_iff.mpr placed
      obtain ⟨after, rest⟩ := @ih ⟨repo, state.timelineCollection ++
          [span.timeline collection.cpuInfo state.inceptionTsc txn],
          if state.inceptionTsc = 0 then span.firstCounter.tsc else state.inceptionTsc⟩ (by
        rw [placeOf_record recorded]
        exact fun other listed => each other (List.mem_cons_of_mem txn listed))
      refine ⟨after, ?_⟩
      rw [List.foldlM_cons,
        bind_of_eq_ok (addTransaction_eq_ok_iff.mpr ⟨span, repo, spanned, recorded, rfl⟩), rest]

end Runs

section Sample

theorem gigahertz_positive : 0 < 1000000000 := by decide

def gigahertz : CpuInfo := ⟨"GenuineIntel-6-55", 1000000000, gigahertz_positive⟩

def namedProbe (sysName : String) (named : truthy (some sysName) = true) : Probe :=
  ⟨sysName, some sysName, none, fun _ => named⟩

def counterOf (probe : Probe) (tsc : Nat) (pmcs : List Int) : Counter := ⟨"1", probe, "", tsc, pmcs⟩

def transactionOf (counters : List Counter) : Transaction :=
  ⟨1, counters, ⟨counters.map Counter.probe⟩⟩

def collectionOf (transactions : List Transaction) (events : List Event) : TxnSubCollection :=
  ⟨"current run", gigahertz, transactions, none, events⟩

end Sample

end Xpedite.Timelines
