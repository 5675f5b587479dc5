import Xpedite.Timelines.Filter
import Xpedite.Timelines.Gaps

/-!
The accounts of a build.  What the points of a timeline take and count adds up to its endpoint,
and each delta series has one entry for each transaction.
-/

namespace Xpedite.Timelines

open Xpedite.Lib DeltaSeriesRepo

/-- The points of the route are among those of the transaction, at counters of its probes. -/
structure Visits (route : Route) (probes : List Probe) (txn : Transaction) : Prop where
  named : txn.route.points = txn.counters.map fun counter => counter.probe.sysName
  within : route.points.Sublist txn.route.points
  matching : ∀ indices, conflateRoutes txn.route route = some indices →
    List.Forall₂ (fun probe j => ∃ counter, txn.counters[j]? = some counter ∧
      compareProbes probe counter.probe = .ok true) probes indices

/-- What a thread counts between two of its samples, or a gap between those of two threads. -/
def countBetween (k : Nat) (prevCounter counter : Counter) : Num :=
  if counter.threadId = prevCounter.threadId then
    .num ((counter.pmcs.getD k 0 - prevCounter.pmcs.getD k 0 : Int) : ℚ)
  else .nan

/-- The points of a timeline account for the time and the counts of its endpoint. -/
structure Accounted (route : Route) (events : List Event) (timeline : Timeline) : Prop where
  length_eq : timeline.points.length = route.length
  wellFormed : WellFormed timeline.points
  durations : (timeline.points.map TimePoint.duration).sum = timeline.endpoint.duration
  counts : ∃ indices counters, conflateRoutes timeline.txn.route route = some indices ∧
    counters.map some = indices.map (fun j => timeline.txn.counters[j]?) ∧
    ∀ k < events.length,
      deltasAt timeline.points k = List.zipWith (countBetween k) counters counters.tail
  totals : ∀ k < events.length, timeline.endpoint.deltaPmcs[k]? =
    some (.num (countedSum (deltasAt timeline.points k)))

def Timeline.measured (timeline : Timeline) : List TimePoint :=
  timeline.points.dropLast ++ [timeline.endpoint]

/-- One entry for each timeline, in order: its value at the position. -/
def Lists (value : TimePoint → Option Num) (position : Nat) (timelines : List Timeline)
    (series : List Num) : Prop :=
  List.Forall₂ (fun timeline delta => ∃ timepoint, timeline.measured[position]? = some timepoint ∧
    value timepoint = some delta) timelines series

structure Aligned (events : List Event) (width : Nat) (stats : TimelineStats) : Prop where
  time : ∀ position < width, ∃ series,
    stats.deltaSeriesRepo.seriesAt tscEventName position = some series ∧
    Lists (fun timepoint => some (.num timepoint.duration)) position stats.timelineCollection series
  counts : ∀ (k : Nat) eventName, (pmcNames events)[k]? = some eventName → ∀ position < width, ∃ series,
    stats.deltaSeriesRepo.seriesAt eventName position = some series ∧
    Lists (fun timepoint => timepoint.deltaPmcs[k]?) position stats.timelineCollection series
  only : ∀ eventName position, (stats.deltaSeriesRepo.seriesAt eventName position).isSome = true →
    (eventName = tscEventName ∨ eventName ∈ pmcNames events) ∧ position < width

section Counting

variable {probes : List Probe} {collection : TxnSubCollection}

theorem itemAt_getD {values : List Int} {k : Nat} {value : Int}
    (present : itemAt values k = .ok value) : values.getD k 0 = value := by
  rw [itemAt] at present
  rw [List.getD_eq_getElem?_getD]
  split at present
  case h_1 _ there =>
    cases present
    rw [there, Option.getD_some]
  case h_2 => cases present

theorem deltaPmcs_eq_ok {count : Nat} {counter prevCounter : Counter} {deltas : List Num}
    (counted : deltaPmcs count counter prevCounter = .ok deltas) {k : Nat} (bound : k < count) :
    deltas[k]? = some (countBetween k prevCounter counter) := by
  have long := length_deltaPmcs counted
  rw [List.getElem?_eq_getElem (by omega), Option.some.injEq]
  rw [deltaPmcs] at counted
  rw [countBetween]
  split at counted
  case isTrue same =>
    have each := List.forall₂_iff_get.mp (mapM_eq_ok_iff.mp counted)
    have delta := each.2 k (by rwa [List.length_range]) (by omega)
    simp only [List.get_eq_getElem, List.getElem_range] at delta
    obtain ⟨pmc, present, delta⟩ := bind_eq_ok delta
    obtain ⟨prevPmc, present', delta⟩ := bind_eq_ok delta
    rw [if_pos same, itemAt_getD present, itemAt_getD present']
    exact (Except.ok.inj delta).symm
  case isFalse differ =>
    cases counted
    rw [if_neg differ, List.getElem_replicate]

theorem interval_counts {firstCounter prevCounter counter : Counter} {i : Nat}
    {timepoint : TimePoint}
    (made : interval probes collection firstCounter i prevCounter counter = .ok timepoint) {k : Nat}
    (bound : k < collection.events.length) :
    timepoint.deltaPmcs[k]? = some (countBetween k prevCounter counter) := by
  obtain ⟨beginProbe, -, made⟩ := bind_eq_ok made
  obtain ⟨_, -, made⟩ := bind_eq_ok made
  obtain ⟨_, -, made⟩ := bind_eq_ok made
  obtain ⟨deltas, counted, made⟩ := bind_eq_ok made
  obtain ⟨topdownValues, -, made⟩ := bind_eq_ok made
  cases made
  exact deltaPmcs_eq_ok counted bound

theorem intervals_counts {firstCounter prevCounter : Counter} {counters : List Counter} {i : Nat}
    {points : List TimePoint}
    (taken : intervals probes collection firstCounter i prevCounter counters = .ok points) {k : Nat}
    (bound : k < collection.events.length) :
    deltasAt points k = List.zipWith (countBetween k) (prevCounter :: counters) counters := by
  induction counters generalizing i prevCounter points with
  | nil =>
      cases taken
      rfl
  | cons counter counters ih =>
      obtain ⟨timepoint, timepoints, made, rest, rfl⟩ := intervals_cons_eq_ok_iff.mp taken
      rw [deltasAt_cons, interval_counts made bound, ih rest]
      rfl

theorem addCounted_eq {counter prevCounter : Counter} {totals deltas : List Num} {k : Nat} {total : ℚ}
    (sofar : totals[k]? = some (.num total))
    (delta : deltas[k]? = some (countBetween k prevCounter counter)) :
    (addCounted counter prevCounter totals deltas)[k]? =
      some (.num (total + countedSum [countBetween k prevCounter counter])) := by
  rw [addCounted, countedSum_cons]
  rw [countBetween] at delta ⊢
  split
  case isTrue same =>
    rw [if_pos same] at delta
    rw [List.getElem?_zipWith, sofar, delta]
    simp [Num.add, Num.value?, countedSum]
  case isFalse differ =>
    simp [sofar, Num.value?, countedSum]

theorem totalDeltas_counts {firstCounter prevCounter : Counter} {counters : List Counter} {i : Nat}
    {points : List TimePoint} {totals : List Num}
    (taken : intervals probes collection firstCounter i prevCounter counters = .ok points) {k : Nat}
    (bound : k < collection.events.length) {total : ℚ} (sofar : totals[k]? = some (.num total)) :
    (totalDeltas prevCounter counters points totals)[k]? =
      some (.num (total + countedSum (deltasAt points k))) := by
  induction counters generalizing i prevCounter points totals total with
  | nil =>
      cases taken
      have none : countedSum (deltasAt [] k) = 0 := rfl
      rw [none, add_zero]
      exact sofar
  | cons counter counters ih =>
      obtain ⟨timepoint, timepoints, made, rest, rfl⟩ := intervals_cons_eq_ok_iff.mp taken
      have delta := interval_counts made bound
      rw [totalDeltas, ih rest (addCounted_eq sofar delta), deltasAt_cons, delta,
        countedSum_append, Option.toList_some, add_assoc]

theorem Paced.sum_points {clock : Nat → ℚ} {count : Nat} {points : List TimePoint}
    (paced : Paced clock count points) (some : points ≠ [])
    (still : ∀ timepoint ∈ points.getLast?, timepoint.duration = 0) :
    (points.map TimePoint.duration).sum = clock (points.length - 1) - clock 0 := by
  have front := paced.sum_take (Nat.sub_lt (List.length_pos_iff.mpr some) Nat.one_pos)
  rw [← List.dropLast_eq_take] at front
  conv_lhs => rw [← List.dropLast_append_getLast some]
  rw [List.map_append, List.sum_append, front, List.map_singleton, List.sum_singleton,
    still _ (List.getLast?_eq_some_getLast some), add_zero]

theorem spanFrom_accounts {tsc : Nat} {firstCounter : Counter} {rest : List Counter} {span : Span}
    (ordered : ((firstCounter :: rest).map Counter.tsc).Pairwise (· ≤ ·))
    (spanned : spanFrom probes collection tsc firstCounter rest = .ok span) :
    ((span.points ++ [span.lastPoint]).map TimePoint.duration).sum = span.endpoint.duration ∧
      ∀ k < collection.events.length,
        deltasAt (span.points ++ [span.lastPoint]) k =
            List.zipWith (countBetween k) (firstCounter :: rest) rest ∧
          span.endpoint.deltaPmcs[k]? =
            some (.num (countedSum (deltasAt (span.points ++ [span.lastPoint]) k))) := by
  obtain ⟨long, paced, takes⟩ := spanFrom_paced ordered spanned
  have clocked := spanFrom_clocked spanned
  constructor
  · rw [paced.sum_points (List.concat_ne_nil _ _) clocked.still, takes, long]
    rfl
  · obtain ⟨points, lastProbe, topdownValues, taken, -, -, rfl⟩ := spanFrom_eq_ok_iff.mp spanned
    intro k bound
    have interior : deltasAt ((Span.of collection lastProbe tsc firstCounter rest points
        topdownValues).points ++ [(Span.of collection lastProbe tsc firstCounter rest points
        topdownValues).lastPoint]) k = deltasAt points k := by
      rw [deltasAt_append]
      exact List.append_nil _
    have zero : (List.replicate collection.events.length (Num.num 0))[k]? = some (.num 0) := by
      rw [List.getElem?_replicate, if_pos bound]
    rw [interior]
    refine ⟨intervals_counts taken bound, ?_⟩
    refine (totalDeltas_counts taken bound zero).trans ?_
    rw [zero_add]

end Counting

section Visiting

variable {route : Route} {probes : List Probe} {collection : TxnSubCollection} {txn : Transaction}

theorem Visits.length_eq (visits : Visits route probes txn) :
    txn.counters.length = txn.route.length := by
  rw [Route.length, visits.named, List.length_map]

theorem visits_of_named (named : txn.route.points = txn.counters.map fun counter =>
      counter.probe.sysName)
    (within : route.points.Sublist txn.route.points) (same : probes.map Probe.sysName = route.points)
    (all : ∀ probe ∈ probes, truthy probe.sysName = true) : Visits route probes txn := by
  refine ⟨named, within, ?_⟩
  intro indices conflated
  have embeds := (conflateRoutes_eq_some_iff.mp conflated).toEmbeds
  have long : probes.length = indices.length := by
    rw [embeds.length_eq, ← same, List.length_map]
  refine List.forall₂_iff_get.mpr ⟨long, ?_⟩
  intro k probeBound bound
  have entry := embeds.getElem?_eq (List.getElem?_eq_getElem bound)
  rw [named, ← same, List.getElem?_map, List.getElem?_map, List.getElem?_eq_getElem probeBound] at entry
  obtain ⟨counter, present, name⟩ := Option.map_eq_some_iff.mp entry
  exact ⟨counter, present, compareProbes_named (all _ (List.getElem_mem probeBound)) name⟩

theorem Visits.exists_selected (visits : Visits route probes txn) (some : 0 < route.length) :
    ∃ begin indices firstCounter rest, itemAt txn.counters 0 = .ok begin ∧
      conflateRoutes txn.route route = .some indices ∧ indicesFor route txn = .ok indices ∧
      matchedCounters probes txn 0 indices = .ok (firstCounter :: rest) ∧
      (firstCounter :: rest).map Option.some = indices.map (fun j => txn.counters[j]?) ∧
      (firstCounter :: rest).Sublist txn.counters ∧ rest.length + 1 = probes.length := by
  obtain ⟨indices, conflated, embeds⟩ := conflateRoutes_embeds visits.within
  have matching := visits.matching indices conflated
  obtain ⟨counters, selected, listed⟩ := @exists_matchedCounters probes txn 0 indices
    fun k j at' => by
      obtain ⟨bound, rfl⟩ := List.getElem?_eq_some_iff.mp at'
      obtain ⟨counter, present, same⟩ := (List.forall₂_iff_get.mp matching).2 k
        (matching.length_eq ▸ bound) bound
      rw [Nat.zero_add]
      exact ⟨_, counter, List.getElem?_eq_getElem (matching.length_eq ▸ bound), present, same⟩
  have long := length_matchedCounters selected
  have wide : indices.length = route.length := embeds.length_eq
  cases counters with
  | nil =>
      rw [List.length_nil] at long
      omega
  | cons firstCounter rest =>
      have selection : Embeds txn.counters (firstCounter :: rest) indices :=
        ⟨embeds.increasing, listed.symm⟩
      have started : 0 < txn.counters.length := by
        have least := visits.within.length_le
        rw [visits.named, List.length_map] at least
        exact Nat.lt_of_lt_of_le some least
      obtain ⟨begin, begins⟩ := exists_itemAt started
      refine ⟨begin, indices, firstCounter, rest, begins, conflated,
        indicesFor_of_embeds visits.length_eq conflated embeds, selected, listed, selection.sublist, ?_⟩
      rw [← List.length_cons, long, matching.length_eq]

theorem exists_accounted (visits : Visits route probes txn)
    (recorded : Recorded collection.events txn) (plain : collection.topdownMetrics = none)
    (some : 0 < route.length) :
    ∃ span, spanOf route probes collection txn = .ok span ∧
      (∀ entry ∈ span.entries, ((DeltaSeriesRepo.new collection.events (topdownKeysOf collection)
        probes).placeOf entry).isSome = true) ∧
      ∀ timeline : Timeline, timeline.txn = txn →
        timeline.points = span.points ++ [span.lastPoint] → timeline.endpoint = span.endpoint →
        Accounted route collection.events timeline := by
  obtain ⟨begin, indices, firstCounter, rest, begins, conflated, found, selected, listed, sublist,
    long⟩ := visits.exists_selected some
  have ordered := recorded.ordered.sublist (sublist.map Counter.tsc)
  have computes : Computes (buildEventsMap collection.events) collection.topdownMetrics
      collection.events.length := by
    intro metrics given
    rw [plain] at given
    cases given
  obtain ⟨span, spanned⟩ := @exists_spanFrom probes collection computes begin.tsc firstCounter rest
    (by omega)
    (fun counter within => recorded.positive counter
      (sublist.subset (List.mem_cons_of_mem _ within)))
    (fun counter within => recorded.sampled counter (sublist.subset within))
  have own : spanOf route probes collection txn = .ok span :=
    spanOf_eq_ok_iff.mpr ⟨begin, indices, firstCounter, rest, begins, found, selected, spanned⟩
  refine ⟨span, own, spanFrom_placed spanned, ?_⟩
  intro timeline ofTxn points endpoint
  obtain ⟨durations, counts⟩ := spanFrom_accounts ordered spanned
  rw [← points, ← endpoint] at durations
  refine ⟨?_, ?_, durations, ⟨indices, firstCounter :: rest, ?_, ?_, ?_⟩, ?_⟩
  · rw [points, List.length_append, List.length_singleton]
    exact (spanOf_spanned own).length_eq
  · rw [points]
    exact (spanFrom_clocked spanned).wellFormed
  · rw [ofTxn, conflated]
  · rw [ofTxn, listed]
  · intro k bound
    rw [points, (counts k bound).1, List.tail_cons]
  · intro k bound
    rw [points, endpoint, (counts k bound).2]

end Visiting

section Series

variable {repo : DeltaSeriesRepo} {eventName : String} {position width : Nat}

theorem landed_singleton (entry : Entry) :
    landed repo eventName position [entry] =
      if entry.eventName = eventName ∧ repo.placeOf entry = some position then [entry.delta]
      else [] := by
  rw [landed, List.filter_singleton, DeltaSeriesRepo.lands]
  by_cases lands : entry.eventName = eventName ∧ repo.placeOf entry = some position
  · simp [lands]
  · simp [lands]

theorem landed_pmcEntries {index : Int} {names : List String} {deltas : List Num} {k : Nat}
    (distinct : names.Nodup) (long : names.length = deltas.length)
    (named : names[k]? = some eventName) :
    landed repo eventName position (pmcEntries index names deltas) =
      if repo.placeOf ⟨eventName, index, .nan⟩ = some position then deltas[k]?.toList else [] := by
  induction names generalizing deltas k with
  | nil => cases named
  | cons name names ih =>
      cases deltas with
      | nil => cases long
      | cons delta deltas =>
          obtain ⟨fresh, distinct'⟩ := List.nodup_cons.mp distinct
          have split : pmcEntries index (name :: names) (delta :: deltas) =
              [⟨name, index, delta⟩] ++ pmcEntries index names deltas := rfl
          rw [split, landed_append, landed_singleton]
          cases k with
          | zero =>
              cases named
              have others : landed repo eventName position (pmcEntries index names deltas) = [] := by
                refine landed_nil_of_names repo eventName position fun entry listed same => ?_
                rw [pmcEntries, ← List.map_uncurry_zip_eq_zipWith] at listed
                obtain ⟨pair, zipped, rfl⟩ := List.mem_map.mp listed
                exact fresh (same ▸ (List.of_mem_zip zipped).1)
              rw [others, List.append_nil]
              exact if_congr (and_iff_right rfl) rfl rfl
          | succ k =>
              have later : names[k]? = some eventName := named
              have differ : name ≠ eventName := by
                rintro rfl
                exact fresh (List.mem_of_getElem? later)
              rw [if_neg fun lands => differ lands.1, List.nil_append]
              exact ih distinct' (Nat.succ.inj long) later

structure Reads (collection : TxnSubCollection) (probes : List Probe) (eventName : String)
    (value : TimePoint → Option Num) : Prop where
  known : eventName = tscEventName ∨ eventName ∈ pmcNames collection.events
  lands : ∀ index timepoint position, Sampled collection timepoint →
    landed (DeltaSeriesRepo.new collection.events (topdownKeysOf collection) probes) eventName
        position (builtEntries index timepoint) =
      if resolveIndex (probes.length - 1 + 1) index = some position then (value timepoint).toList
      else []
  present : ∀ timepoint, Sampled collection timepoint → (value timepoint).isSome = true

variable {route : Route} {probes : List Probe} {collection : TxnSubCollection}
  {value : TimePoint → Option Num}

theorem eventNames_of_plain (plain : collection.topdownMetrics = none) :
    eventNames collection.events (topdownKeysOf collection) = pmcNames collection.events := by
  rw [eventNames, topdownKeysOf, plain]
  exact List.append_nil _

theorem topdownValues_of_plain (plain : collection.topdownMetrics = none) {timepoint : TimePoint}
    (sampled : Sampled collection timepoint) : timepoint.topdownValues = [] := by
  have computed := sampled.computed
  rw [computeTopdown, plain] at computed
  split at computed
  case isTrue => exact (Except.ok.inj computed).symm
  case isFalse => exact (Except.ok.inj computed).symm

theorem reads_time (plain : collection.topdownMetrics = none)
    (apart : tscEventName ∉ pmcNames collection.events) :
    Reads collection probes tscEventName fun timepoint => some (.num timepoint.duration) := by
  refine ⟨.inl rfl, ?_, fun _ _ => rfl⟩
  intro index timepoint position sampled
  have events : landed (DeltaSeriesRepo.new collection.events (topdownKeysOf collection) probes)
      tscEventName position
      (pmcEntries index timepoint.pmcNames timepoint.deltaPmcs) = [] := by
    refine landed_nil_of_names _ _ _ fun entry listed same => ?_
    have known := (sampled.mem_pmcEntries (List.mem_append_left _ listed)).2
    rw [same, eventNames_of_plain plain] at known
    exact apart known
  rw [builtEntries, landed_append, events, List.nil_append, topdownValues_of_plain plain sampled]
  refine (landed_singleton (tscEntry index timepoint)).trans ?_
  rw [placeOf_new _ _ _ (.inl rfl)]
  exact if_congr (and_iff_right rfl) rfl rfl

theorem reads_counts (plain : collection.topdownMetrics = none)
    (distinct : (pmcNames collection.events).Nodup)
    (apart : tscEventName ∉ pmcNames collection.events) {k : Nat}
    (named : (pmcNames collection.events)[k]? = some eventName) :
    Reads collection probes eventName fun timepoint => timepoint.deltaPmcs[k]? := by
  have listed := List.mem_of_getElem? named
  have other : tscEventName ≠ eventName := by
    rintro rfl
    exact apart listed
  refine ⟨.inr listed, ?_, ?_⟩
  · intro index timepoint position sampled
    have time : landed (DeltaSeriesRepo.new collection.events (topdownKeysOf collection) probes)
        eventName position [tscEntry index timepoint] = [] := by
      refine landed_nil_of_names _ _ _ fun entry within same => ?_
      rw [List.mem_singleton.mp within] at same
      exact other same
    have long : timepoint.pmcNames.length = timepoint.deltaPmcs.length := by
      rw [sampled.named, length_pmcNames, sampled.counted]
    rw [builtEntries, landed_append, topdownValues_of_plain plain sampled]
    refine (congrArg _ time).trans ?_
    rw [List.append_nil, landed_pmcEntries (sampled.named ▸ distinct) long (sampled.named ▸ named),
      placeOf_new _ _ _ (.inr (by rwa [eventNames_of_plain plain]))]
  · intro timepoint sampled
    rw [List.getElem?_eq_getElem]
    · rfl
    · rw [sampled.counted, ← length_pmcNames]
      exact (List.getElem?_eq_some_iff.mp named).1

theorem Reads.landed_entriesFrom (reads : Reads collection probes eventName value)
    {points : List TimePoint} (sampled : ∀ timepoint ∈ points, Sampled collection timepoint) {i : Nat}
    (bound : i + points.length ≤ probes.length - 1 + 1) (position : Nat) :
    landed (DeltaSeriesRepo.new collection.events (topdownKeysOf collection) probes) eventName
        position (entriesFrom builtEntries i points) =
      if i ≤ position then (points[position - i]?.bind value).toList else [] := by
  induction points generalizing i with
  | nil =>
      rw [List.getElem?_nil]
      exact (ite_self _).symm
  | cons timepoint points ih =>
      rw [List.length_cons] at bound
      rw [entriesFrom, landed_append, reads.lands i timepoint position
        (sampled timepoint List.mem_cons_self), resolveIndex_nat (by omega),
        ih (fun other listed => sampled other (List.mem_cons_of_mem timepoint listed)) (by omega)]
      rcases Nat.lt_trichotomy i position with before | here | past
      · have next : position - i = position - (i + 1) + 1 := by omega
        rw [if_neg (by simpa using before.ne), if_pos (by omega), if_pos (by omega), next,
          List.getElem?_cons_succ]
        rfl
      · rw [if_pos (congrArg some here), if_neg (by omega), if_pos (by omega), here, Nat.sub_self]
        exact List.append_nil _
      · rw [if_neg (by simpa using past.ne'), if_neg (by omega), if_neg (by omega)]
        rfl

theorem Reads.landed_entries (reads : Reads collection probes eventName value)
    (sameNumber : probes.length = route.length) {timeline : Timeline}
    (built : Built route probes collection timeline) (bound : position < route.length) :
    ∃ timepoint delta, timeline.measured[position]? = some timepoint ∧ value timepoint = some delta ∧
      landed (DeltaSeriesRepo.new collection.events (topdownKeysOf collection) probes) eventName
        position timeline.entries = [delta] := by
  obtain ⟨long, some, points, endpoint⟩ := built.spanned
  have front : timeline.points.dropLast.length = route.length - 1 := by
    rw [List.length_dropLast, long]
  have last := reads.lands (-1) timeline.endpoint position endpoint
  rw [resolveIndex_last] at last
  rw [Timeline.entries, landed_append, reads.landed_entriesFrom points (by omega) position, last,
    if_pos (Nat.zero_le position), Nat.sub_zero, Timeline.measured]
  rcases Nat.lt_or_ge position (route.length - 1) with interior | final
  · have inside : position < timeline.points.dropLast.length := by omega
    have present := List.getElem?_eq_getElem inside
    obtain ⟨delta, read⟩ := Option.isSome_iff_exists.mp
      (reads.present _ (points _ (List.mem_of_getElem? present)))
    refine ⟨_, delta, (List.getElem?_append_left inside).trans present, read, ?_⟩
    rw [present, Option.bind_some, read, if_neg fun same => by injection same; omega]
    rfl
  · obtain ⟨delta, read⟩ := Option.isSome_iff_exists.mp (reads.present _ endpoint)
    have here : position = timeline.points.dropLast.length := by omega
    refine ⟨timeline.endpoint, delta, ?_, read, ?_⟩
    · rw [here, List.getElem?_concat_length]
    · rw [List.getElem?_eq_none (by omega), if_pos (by congr 1; omega), read]
      rfl

theorem Reads.lists (reads : Reads collection probes eventName value)
    (sameNumber : probes.length = route.length) {timelines : List Timeline}
    (built : ∀ timeline ∈ timelines, Built route probes collection timeline)
    (bound : position < route.length) :
    Lists value position timelines (landed (DeltaSeriesRepo.new collection.events
      (topdownKeysOf collection) probes) eventName position
      (timelines.flatMap Timeline.entries)) := by
  rw [landed_flatMap]
  induction timelines with
  | nil => exact .nil
  | cons timeline timelines ih =>
      obtain ⟨timepoint, delta, present, read, reached⟩ :=
        reads.landed_entries sameNumber (built timeline List.mem_cons_self) bound
      rw [List.flatMap_cons, reached]
      exact .cons ⟨timepoint, present, read⟩
        (ih fun other listed => built other (List.mem_cons_of_mem timeline listed))

end Series

/--
For a route of at least one point that is part of the routes of all transactions, at counters
of the probes: each transaction gets a timeline that accounts for its time and its counts, and
each series gets one entry of each timeline, in order.
-/
theorem buildTimelineStats_accounts (category : String) (route : Route) (probes : List Probe)
    (collection : TxnSubCollection) (long : 1 ≤ route.length)
    (sameNumber : probes.length = route.length)
    (visits : ∀ txn ∈ collection.transactions, Visits route probes txn)
    (recorded : ∀ txn ∈ collection.transactions, Recorded collection.events txn)
    (distinct : (pmcNames collection.events).Nodup)
    (apart : tscEventName ∉ pmcNames collection.events)
    (plain : collection.topdownMetrics = none) :
    ∃ stats, buildTimelineStats route probes collection category = .ok stats ∧
      stats.timelineCollection.map Timeline.txn = collection.transactions ∧
      (∀ timeline ∈ stats.timelineCollection, Accounted route collection.events timeline) ∧
      Aligned collection.events route.length stats := by
  have spans := fun txn (listed : txn ∈ collection.transactions) =>
    exists_accounted (visits txn listed) (recorded txn listed) plain long
  obtain ⟨after, folded⟩ := @exists_foldlM_addTransaction route probes collection
    collection.transactions
    ⟨DeltaSeriesRepo.new collection.events (topdownKeysOf collection) probes, [], 0⟩
    fun txn listed => by
      obtain ⟨span, spanned, placed, -⟩ := spans txn listed
      exact ⟨span, spanned, placed⟩
  obtain ⟨timelines, collected, ofTxns, built, filled⟩ := foldlM_addTransaction_eq_ok folded
  rw [List.nil_append] at collected
  have series := seriesAt_record filled
  have reading : ∀ {eventName : String} {value : TimePoint → Option Num},
      Reads collection probes eventName value → ∀ position < route.length, ∃ series,
        after.repo.seriesAt eventName position = some series ∧
          Lists value position after.timelineCollection series := by
    intro eventName value reads position bound
    rw [collected]
    refine ⟨_, ?_, reads.lists sameNumber built bound⟩
    rw [series, seriesAt_new, if_pos (by rw [eventNames_of_plain plain]; exact reads.known),
      if_pos (by omega), Option.map_some, List.nil_append]
    rfl
  refine ⟨_, bind_of_eq_ok folded _, ?_, ?_, ?_, ?_, ?_⟩
  · exact (congrArg _ collected).trans ofTxns
  · intro timeline listed
    have within : timeline ∈ timelines := collected ▸ listed
    obtain ⟨span, inceptionTsc, spanned, made⟩ := built timeline within
    obtain ⟨own, ownSpanned, -, accounts⟩ := spans timeline.txn
      (ofTxns ▸ List.mem_map_of_mem within)
    rw [spanned] at ownSpanned
    cases ownSpanned
    refine accounts timeline rfl ?_ ?_
    · rw [made]
      rfl
    · rw [made]
      rfl
  · exact reading (reads_time plain apart)
  · intro k eventName named
    exact reading (reads_counts plain distinct apart named)
  · intro eventName position present
    have other := series eventName position
    rw [seriesAt_new] at other
    change (after.repo.seriesAt eventName position).isSome = true at present
    rw [other] at present
    split at present
    case isTrue known =>
      split at present
      case isTrue bound =>
        rw [eventNames_of_plain plain] at known
        exact ⟨known, by omega⟩
      case isFalse => cases present
    case isFalse => cases present

section Sample

/-- Two transactions on the route from receive to reply, one of them by way of a third probe. -/
def replies : TxnSubCollection :=
  collectionOf [orderTxn, tradeTxn 50 59] [⟨"instructions", "INST_RETIRED.ANY"⟩]

theorem buildTimelineStats_accounts_replies :
    ∃ stats, buildTimelineStats orderRoute orderRoute.probes replies "order" = .ok stats ∧
      stats.timelineCollection.map Timeline.txn = replies.transactions ∧
      (∀ timeline ∈ stats.timelineCollection, Accounted orderRoute replies.events timeline) ∧
      Aligned replies.events orderRoute.length stats := by
  refine buildTimelineStats_accounts "order" orderRoute orderRoute.probes replies (by decide) rfl
    ?_ ?_ (by decide) (by decide) rfl
  · intro txn listed
    rcases List.mem_cons.mp listed with rfl | listed
    · exact visits_of_named rfl (by decide) rfl (by decide)
    · rw [List.mem_singleton.mp listed]
      exact visits_of_named rfl (by decide) rfl (by decide)
  · intro txn listed
    rcases List.mem_cons.mp listed with rfl | listed
    · exact ⟨by decide, by decide, by decide⟩
    · rw [List.mem_singleton.mp listed]
      exact ⟨by decide, by decide, by decide⟩

/-- The last of the counters without a name is taken for the one probe of this route. -/
theorem buildTimelineStats_fails_unnamed :
    placedTxn.route.points = placedTxn.counters.map (fun counter => counter.probe.sysName) ∧
      (Route.points ⟨[placedProbe 1]⟩).Sublist placedTxn.route.points ∧
      Recorded [] placedTxn ∧
      buildTimelineStats ⟨[placedProbe 1]⟩ [placedProbe 1] (collectionOf [placedTxn] []) "order" =
        .error .probeMismatch :=
  ⟨rfl, by decide, ⟨by decide, by decide, by decide⟩, rfl⟩

end Sample

end Xpedite.Timelines
