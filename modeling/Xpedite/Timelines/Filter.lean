import Xpedite.Timelines.Spans

/-!
Filtering timelines and building from the transactions of those that are kept.  One path
adds the time of a point last, the other one first, and they name the series of the total
by different indices; each series still gets the same deltas in the same order, unless the
time shares its series with an event.
-/

namespace Xpedite.Timelines

open Xpedite.Lib DeltaSeriesRepo

def rebuiltEntries (index : Int) (timepoint : TimePoint) : List Entry :=
  tscEntry index timepoint :: (pmcEntries index timepoint.pmcNames timepoint.deltaPmcs ++
    topdownEntries index timepoint.topdownValues)

def Timeline.rebuilt (timeline : Timeline) : List Entry :=
  entriesFrom rebuiltEntries 0 timeline.points.dropLast ++
    rebuiltEntries (timeline.points.length - 1) timeline.endpoint

section Rebuilding

variable {repo : DeltaSeriesRepo}

def Covered (timepoint : TimePoint) : Prop :=
  timepoint.pmcNames.length ≤ timepoint.deltaPmcs.length

theorem addTimepoint_eq (index : Int) {timepoint : TimePoint} (covered : Covered timepoint) :
    addTimepoint index timepoint repo = repo.record (rebuiltEntries index timepoint) := by
  rw [addTimepoint, rebuiltEntries, tscEntry, record, List.foldlM_cons]
  refine congrArg _ (funext fun next => ?_)
  rw [addPmcs_eq index covered]
  refine Eq.trans ?_ (record_append next _ _).symm
  exact congrArg _ (funext fun after => addTopdown_eq index timepoint.topdownValues)

theorem addTimepoints_eq {points : List TimePoint} (covered : ∀ timepoint ∈ points, Covered timepoint)
    (i : Nat) : addTimepoints repo i points = repo.record (entriesFrom rebuiltEntries i points) := by
  induction points generalizing repo i with
  | nil => rfl
  | cons timepoint points ih =>
      rw [addTimepoints, entriesFrom, record_append,
        addTimepoint_eq _ (covered timepoint List.mem_cons_self)]
      exact congrArg _ (funext fun next =>
        ih (fun other listed => covered other (List.mem_cons_of_mem timepoint listed)) (i + 1))

structure Timeline.Covered (timeline : Timeline) : Prop where
  points : ∀ timepoint ∈ timeline.points.dropLast, Timelines.Covered timepoint
  endpoint : Timelines.Covered timeline.endpoint

theorem addTimeline_eq {timeline : Timeline} (covered : timeline.Covered) :
    addTimeline repo timeline = repo.record timeline.rebuilt := by
  rw [addTimeline, Timeline.rebuilt, record_append, addTimepoints_eq covered.points]
  exact congrArg _ (funext fun next => addTimepoint_eq _ covered.endpoint)

theorem foldlM_addTimeline_eq {timelines : List Timeline}
    (covered : ∀ timeline ∈ timelines, timeline.Covered) :
    timelines.foldlM addTimeline repo = repo.record (timelines.flatMap Timeline.rebuilt) := by
  induction timelines generalizing repo with
  | nil => rfl
  | cons timeline timelines ih =>
      rw [List.foldlM_cons, List.flatMap_cons, record_append,
        addTimeline_eq (covered timeline List.mem_cons_self)]
      exact congrArg _ (funext fun next =>
        ih fun other listed => covered other (List.mem_cons_of_mem timeline listed))

end Rebuilding

section Landing

variable (repo : DeltaSeriesRepo) (eventName : String) (position : Nat)

def landed (entries : List Entry) : List Num :=
  (entries.filter (repo.lands eventName position)).map Entry.delta

theorem landed_append (entries others : List Entry) :
    landed repo eventName position (entries ++ others) =
      landed repo eventName position entries ++ landed repo eventName position others := by
  rw [landed, List.filter_append, List.map_append]
  rfl

theorem landed_flatMap {α : Type} (items : List α) (entriesOf : α → List Entry) :
    landed repo eventName position (items.flatMap entriesOf) =
      items.flatMap fun item => landed repo eventName position (entriesOf item) := by
  induction items with
  | nil => rfl
  | cons item items ih => rw [List.flatMap_cons, landed_append, ih, List.flatMap_cons]

theorem landed_reindex {i j : Int} (entries : List Entry)
    (at' : ∀ entry ∈ entries, entry.index = i)
    (same : ∀ name length, repo.width name = some length →
      resolveIndex length i = resolveIndex length j) :
    landed repo eventName position (entries.map fun entry => { entry with index := j }) =
      landed repo eventName position entries := by
  rw [landed, landed, List.filter_map, List.map_map]
  have lands : entries.filter (repo.lands eventName position ∘ fun entry => { entry with index := j }) =
      entries.filter (repo.lands eventName position) := by
    refine List.filter_congr fun entry listed => ?_
    rw [Function.comp_apply, DeltaSeriesRepo.lands, DeltaSeriesRepo.lands, placeOf, placeOf,
      at' entry listed]
    cases wide : repo.width entry.eventName with
    | none => rfl
    | some length => simp only [Option.bind_some, same _ _ wide]
  rw [lands]
  rfl

theorem rebuiltEntries_reindex (i j : Int) (timepoint : TimePoint) :
    rebuiltEntries j timepoint =
      (rebuiltEntries i timepoint).map fun entry => { entry with index := j } := by
  simp [rebuiltEntries, tscEntry, pmcEntries, topdownEntries, List.map_zipWith]

theorem landed_nil_of_names {entries : List Entry}
    (differ : ∀ entry ∈ entries, entry.eventName ≠ eventName) :
    landed repo eventName position entries = [] := by
  have none : entries.filter (repo.lands eventName position) = [] := by
    refine List.filter_eq_nil_iff.mpr fun entry listed => ?_
    simp [DeltaSeriesRepo.lands, differ entry listed]
  rw [landed, none]
  rfl

/-- Only where the time has a series of its own does the order within a point not matter. -/
theorem landed_rebuiltEntries {collection : TxnSubCollection} (index : Int) {timepoint : TimePoint}
    (sampled : Sampled collection timepoint)
    (apart : eventName ≠ tscEventName ∨
      tscEventName ∉ eventNames collection.events (topdownKeysOf collection)) :
    landed repo eventName position (rebuiltEntries index timepoint) =
      landed repo eventName position (builtEntries index timepoint) := by
  rw [rebuiltEntries, builtEntries, ← List.append_assoc, landed_append, ← List.singleton_append,
    landed_append]
  by_cases time : eventName = tscEventName
  · have events : landed repo eventName position (pmcEntries index timepoint.pmcNames
        timepoint.deltaPmcs ++ topdownEntries index timepoint.topdownValues) = [] := by
      refine landed_nil_of_names repo eventName position fun entry listed same => ?_
      have known := (sampled.mem_pmcEntries listed).2
      rw [same, time] at known
      exact apart.elim (fun differ => differ time) (fun absent => absent known)
    rw [events, List.append_nil, List.nil_append]
  · have times : landed repo eventName position [tscEntry index timepoint] = [] := by
      refine landed_nil_of_names repo eventName position fun entry listed same => ?_
      rw [List.mem_singleton.mp listed] at same
      exact time same.symm
    rw [times, List.append_nil, List.nil_append]

theorem landed_entriesFrom {collection : TxnSubCollection} {points : List TimePoint}
    (sampled : ∀ timepoint ∈ points, Sampled collection timepoint)
    (apart : eventName ≠ tscEventName ∨
      tscEventName ∉ eventNames collection.events (topdownKeysOf collection)) (i : Nat) :
    landed repo eventName position (entriesFrom rebuiltEntries i points) =
      landed repo eventName position (entriesFrom builtEntries i points) := by
  induction points generalizing i with
  | nil => rfl
  | cons timepoint points ih =>
      rw [entriesFrom, entriesFrom, landed_append, landed_append,
        landed_rebuiltEntries repo eventName position i (sampled timepoint List.mem_cons_self) apart,
        ih fun other listed => sampled other (List.mem_cons_of_mem timepoint listed)]

end Landing

section Filtering

variable {route : Route} {probes : List Probe} {collection : TxnSubCollection}

theorem Built.spanned {timeline : Timeline} (built : Built route probes collection timeline) :
    timeline.points.length = route.length ∧ 0 < route.length ∧
      (∀ timepoint ∈ timeline.points.dropLast, Sampled collection timepoint) ∧
      Sampled collection timeline.endpoint := by
  obtain ⟨span, inceptionTsc, spanned, made⟩ := built
  obtain ⟨same, points, endpoint⟩ := spanOf_spanned spanned
  rw [made]
  refine ⟨?_, by omega, ?_, endpoint⟩
  · rw [Span.timeline, List.length_append, ← same]
    rfl
  · rw [Span.timeline, List.dropLast_concat]
    exact points

theorem Sampled.covered {timepoint : TimePoint} (sampled : Sampled collection timepoint) :
    Covered timepoint := by
  rw [Covered, sampled.named, length_pmcNames, sampled.counted]

theorem Built.covered {timeline : Timeline} (built : Built route probes collection timeline) :
    timeline.Covered := by
  obtain ⟨-, -, points, endpoint⟩ := built.spanned
  exact ⟨fun timepoint listed => (points timepoint listed).covered, endpoint.covered⟩

theorem Sampled.mem_rebuiltEntries {index : Int} {timepoint : TimePoint} {entry : Entry}
    (sampled : Sampled collection timepoint) (listed : entry ∈ rebuiltEntries index timepoint) :
    entry.index = index ∧ (entry.eventName = tscEventName ∨
      entry.eventName ∈ eventNames collection.events (topdownKeysOf collection)) := by
  rcases List.mem_cons.mp listed with rfl | event
  · exact ⟨rfl, Or.inl rfl⟩
  · exact (sampled.mem_pmcEntries event).imp id Or.inr

theorem mem_entriesFrom {points : List TimePoint} {i : Nat} {entry : Entry}
    (sampled : ∀ timepoint ∈ points, Sampled collection timepoint)
    (listed : entry ∈ entriesFrom rebuiltEntries i points) :
    (∃ j < i + points.length, entry.index = j) ∧ (entry.eventName = tscEventName ∨
      entry.eventName ∈ eventNames collection.events (topdownKeysOf collection)) := by
  induction points generalizing i with
  | nil => cases listed
  | cons timepoint points ih =>
      rw [List.length_cons]
      rcases List.mem_append.mp listed with here | later
      · obtain ⟨at', known⟩ := (sampled timepoint List.mem_cons_self).mem_rebuiltEntries here
        exact ⟨⟨i, by omega, at'⟩, known⟩
      · obtain ⟨⟨j, bound, at'⟩, known⟩ :=
          ih (fun other listed => sampled other (List.mem_cons_of_mem timepoint listed)) later
        exact ⟨⟨j, by omega, at'⟩, known⟩

theorem Built.placed_rebuilt {timeline : Timeline} (built : Built route probes collection timeline)
    {reportProbes : List Probe} (sameNumber : reportProbes.length = route.length) {entry : Entry}
    (listed : entry ∈ timeline.rebuilt) :
    ((DeltaSeriesRepo.new collection.events (topdownKeysOf collection) reportProbes).placeOf
      entry).isSome = true := by
  obtain ⟨same, some, points, endpoint⟩ := built.spanned
  rcases List.mem_append.mp listed with interior | last
  · obtain ⟨⟨j, bound, at'⟩, known⟩ := mem_entriesFrom points interior
    rw [List.length_dropLast] at bound
    rw [placeOf_new _ _ _ known, at', resolveIndex_nat (by omega)]
    rfl
  · obtain ⟨at', known⟩ := endpoint.mem_rebuiltEntries last
    have place : ((timeline.points.length : Int) - 1) = (timeline.points.length - 1 : Nat) := by omega
    rw [placeOf_new _ _ _ known, at', place, resolveIndex_nat (by omega)]
    rfl

/-- The index -1 and that of the last point name the same series. -/
theorem Built.landed_rebuilt {timeline : Timeline} (built : Built route probes collection timeline)
    {reportProbes : List Probe} (sameNumber : reportProbes.length = route.length)
    {eventName : String} (position : Nat)
    (apart : eventName ≠ tscEventName ∨
      tscEventName ∉ eventNames collection.events (topdownKeysOf collection)) :
    landed (DeltaSeriesRepo.new collection.events (topdownKeysOf collection) reportProbes) eventName
        position timeline.rebuilt =
      landed (DeltaSeriesRepo.new collection.events (topdownKeysOf collection) reportProbes)
        eventName position timeline.entries := by
  obtain ⟨same, some, points, endpoint⟩ := built.spanned
  rw [Timeline.rebuilt, Timeline.entries, landed_append, landed_append,
    landed_entriesFrom _ _ _ points apart, rebuiltEntries_reindex (-1),
    landed_reindex _ _ _ _ (fun entry listed => (endpoint.mem_rebuiltEntries listed).1),
    landed_rebuiltEntries _ _ _ _ endpoint apart]
  intro name length wide
  rw [width_new] at wide
  split at wide
  case isTrue =>
    have place : ((timeline.points.length : Int) - 1) = (timeline.points.length - 1 : Nat) := by omega
    rw [← Option.some.inj wide, resolveIndex_last, place, resolveIndex_nat (by omega)]
    congr 1
    omega
  case isFalse => cases wide

variable (probes collection) in
theorem visitCounters_with (txns : List Transaction) (txn : Transaction) (i : Nat)
    (indices : List Nat) (walk : Walk) :
    visitCounters probes { collection with transactions := txns } txn i indices walk =
      visitCounters probes collection txn i indices walk := by
  induction indices generalizing i walk with
  | nil => rfl
  | cons j indices ih =>
      rw [visitCounters, visitCounters]
      exact congrArg _ (funext fun next => ih (i + 1) next)

variable (route probes collection) in
theorem addTransaction_with (txns : List Transaction) :
    addTransaction route probes { collection with transactions := txns } =
      addTransaction route probes collection := by
  funext state txn
  rw [addTransaction, addTransaction]
  refine congrArg _ (funext fun begin => ?_)
  refine congrArg _ (funext fun indices => ?_)
  rw [visitCounters_with]
  rfl

end Filtering

def keptTxns (predicate : Timeline → Bool) (stats : TimelineStats) : List Transaction :=
  (stats.timelineCollection.filter predicate).map Timeline.txn

theorem flatMap_entries_eq {route : Route} {probes : List Probe} {collection : TxnSubCollection}
    {timelines others : List Timeline}
    (built : ∀ timeline ∈ timelines, Built route probes collection timeline)
    (built' : ∀ timeline ∈ others, Built route probes collection timeline)
    (same : timelines.map Timeline.txn = others.map Timeline.txn) :
    timelines.flatMap Timeline.entries = others.flatMap Timeline.entries := by
  induction timelines generalizing others with
  | nil =>
      rw [List.map_eq_nil_iff.mp same.symm]
  | cons timeline timelines ih =>
      cases others with
      | nil => cases same
      | cons other others =>
          obtain ⟨ofTxn, rest⟩ := List.cons.inj same
          obtain ⟨points, endpoint⟩ := (built timeline List.mem_cons_self).unique
            (built' other List.mem_cons_self) ofTxn
          rw [List.flatMap_cons, List.flatMap_cons, Timeline.entries, Timeline.entries, points, endpoint,
            ih (fun other listed => built other (List.mem_cons_of_mem timeline listed))
              (fun timeline listed => built' timeline (List.mem_cons_of_mem other listed)) rest]

theorem filterTimelineStats_eq_ok {predicate : Timeline → Bool} {tls : TimelineStats}
    {repo : DeltaSeriesRepo}
    (rebuilt : (tls.timelineCollection.filter predicate).foldlM addTimeline
      (DeltaSeriesRepo.new tls.deltaSeriesRepo.events tls.deltaSeriesRepo.topdownKeys
        tls.route.probes) = .ok repo) :
    ∃ filtered, filterTimelineStats predicate tls = .ok filtered ∧
      filtered.deltaSeriesRepo = repo := by
  refine ⟨⟨tls.name, tls.cpuInfo, tls.category, tls.route, tls.route.probes,
    tls.timelineCollection.filter predicate, repo⟩, ?_, rfl⟩
  dsimp only [filterTimelineStats, buildDeltaSeriesRepo, createTimelineStats]
  rw [bind_of_eq_ok rebuilt]
  rfl

/--
Filtering the timelines of a subcollection and building from the transactions that are kept
give the same delta series, entry by entry.  The series of the time is left out if an event
or a topdown value is called like it.
-/
theorem filterTimelineStats_eq_build (category : String) (route : Route) (probes : List Probe)
    (collection : TxnSubCollection) (predicate : Timeline → Bool)
    (sameNumber : probes.length = route.length) {stats : TimelineStats}
    (built : buildTimelineStats route probes collection category = .ok stats) :
    ∃ filtered direct, filterTimelineStats predicate stats = .ok filtered ∧
      buildTimelineStats route probes
        { collection with transactions := keptTxns predicate stats } category = .ok direct ∧
      ∀ eventName position, (eventName ≠ tscEventName ∨
          tscEventName ∉ eventNames collection.events (topdownKeysOf collection)) →
        filtered.deltaSeriesRepo.seriesAt eventName position =
          direct.deltaSeriesRepo.seriesAt eventName position := by
  obtain ⟨after, folded, done⟩ := bind_eq_ok built
  cases done
  obtain ⟨timelines, collected, -, allBuilt, recorded⟩ := foldlM_addTransaction_eq_ok folded
  change after.timelineCollection = timelines at collected
  have kept : keptTxns predicate ⟨collection.name, collection.cpuInfo, category, route, probes,
      after.timelineCollection, after.repo⟩ = (timelines.filter predicate).map Timeline.txn := by
    rw [keptTxns, collected]
  have keptBuilt : ∀ timeline ∈ timelines.filter predicate,
      Built route probes collection timeline :=
    fun timeline listed => allBuilt timeline (List.mem_of_mem_filter listed)
  obtain ⟨sameEvents, sameKeys⟩ := record_keeps recorded
  have sameNumber' : route.probes.length = route.length := (List.length_map _).symm
  -- the series rebuilt from the timelines that are kept
  obtain ⟨repo, rebuilt⟩ := exists_record_iff.mpr fun entry listed => by
    obtain ⟨timeline, present, landed⟩ := List.mem_flatMap.mp listed
    exact (keptBuilt timeline present).placed_rebuilt sameNumber' landed
  obtain ⟨filtered, filtering, same⟩ := @filterTimelineStats_eq_ok predicate
    ⟨collection.name, collection.cpuInfo, category, route, probes, after.timelineCollection,
      after.repo⟩ repo (by
    dsimp only
    rw [collected, sameEvents, sameKeys,
      foldlM_addTimeline_eq fun timeline listed => (keptBuilt timeline listed).covered]
    exact rebuilt)
  -- the series filled from their transactions
  obtain ⟨final, folded'⟩ := @exists_foldlM_addTransaction route probes collection
    ((timelines.filter predicate).map Timeline.txn)
    ⟨DeltaSeriesRepo.new collection.events (topdownKeysOf collection) probes, [], 0⟩
    fun txn listed => by
      obtain ⟨timeline, present, rfl⟩ := List.mem_map.mp listed
      obtain ⟨span, inceptionTsc, spanned, made⟩ := keptBuilt timeline present
      refine ⟨span, spanned, fun entry within => ?_⟩
      refine exists_record_iff.mp ⟨after.repo, recorded⟩ entry (List.mem_flatMap.mpr
        ⟨timeline, List.mem_of_mem_filter present, ?_⟩)
      rw [made, Span.entries_timeline]
      exact within
  obtain ⟨others, collected', ofTxns, othersBuilt, recorded'⟩ :=
    foldlM_addTransaction_eq_ok folded'
  refine ⟨filtered, ⟨collection.name, collection.cpuInfo, category, route, probes,
    final.timelineCollection, final.repo⟩, filtering, ?_, ?_⟩
  · rw [buildTimelineStats, kept, addTransaction_with]
    exact bind_of_eq_ok folded' _
  · intro eventName position apart
    have entries := flatMap_entries_eq othersBuilt keptBuilt ofTxns
    obtain ⟨places, series⟩ := @new_congr collection.events (topdownKeysOf collection) _ _
      (sameNumber'.trans sameNumber.symm)
    have lands : (DeltaSeriesRepo.new collection.events (topdownKeysOf collection)
          route.probes).lands eventName position =
        (DeltaSeriesRepo.new collection.events (topdownKeysOf collection) probes).lands eventName
          position := by
      funext entry
      rw [DeltaSeriesRepo.lands, DeltaSeriesRepo.lands, places]
    have reached : landed (DeltaSeriesRepo.new collection.events (topdownKeysOf collection) probes)
          eventName position ((timelines.filter predicate).flatMap Timeline.rebuilt) =
        landed (DeltaSeriesRepo.new collection.events (topdownKeysOf collection) probes) eventName
          position ((timelines.filter predicate).flatMap Timeline.entries) := by
      rw [landed_flatMap, landed_flatMap]
      exact List.flatMap_congr fun timeline listed =>
        (keptBuilt timeline listed).landed_rebuilt sameNumber position apart
    rw [landed, landed] at reached
    rw [same, seriesAt_record rebuilt, seriesAt_record recorded', entries, series, lands, reached]

section Sample

theorem receive_named : truthy (some "receive") = true := by decide

theorem reply_named : truthy (some "reply") = true := by decide

def tradeTxn (first last : Nat) : Transaction := transactionOf
  [counterOf (namedProbe "receive" receive_named) first [5],
    counterOf (namedProbe "reply" reply_named) last [6]]

def trades (eventName : String) : TxnSubCollection :=
  collectionOf [tradeTxn 10 15, tradeTxn 20 29] [⟨eventName, "INST_RETIRED.ANY"⟩]

def quick (timeline : Timeline) : Bool := timeline.endpoint.duration < 6 / 1000

theorem filterTimelineStats_eq_build_trades :
    ∃ stats, buildTimelineStats (tradeTxn 10 15).route (tradeTxn 10 15).route.probes
        (trades "instructions") "trade" = .ok stats ∧
      ∃ filtered direct, filterTimelineStats quick stats = .ok filtered ∧
        buildTimelineStats (tradeTxn 10 15).route (tradeTxn 10 15).route.probes
          { trades "instructions" with transactions := keptTxns quick stats } "trade" = .ok direct ∧
        ∀ eventName position, (eventName ≠ tscEventName ∨
            tscEventName ∉ eventNames [⟨"instructions", "INST_RETIRED.ANY"⟩] []) →
          filtered.deltaSeriesRepo.seriesAt eventName position =
            direct.deltaSeriesRepo.seriesAt eventName position := by
  obtain ⟨stats, built⟩ : ∃ stats, buildTimelineStats (tradeTxn 10 15).route
      (tradeTxn 10 15).route.probes (trades "instructions") "trade" = .ok stats := ⟨_, rfl⟩
  exact ⟨stats, built, filterTimelineStats_eq_build "trade" (tradeTxn 10 15).route
    (tradeTxn 10 15).route.probes (trades "instructions") quick rfl built⟩

/-- An event of that name shares the series of the time, in which the two come in turn. -/
theorem filterTimelineStats_eq_build_fails_wallTime :
    ∃ stats filtered direct, buildTimelineStats (tradeTxn 10 15).route
        (tradeTxn 10 15).route.probes (trades "wall time") "trade" = .ok stats ∧
      filterTimelineStats (fun _ => true) stats = .ok filtered ∧
      buildTimelineStats (tradeTxn 10 15).route (tradeTxn 10 15).route.probes
        { trades "wall time" with transactions := keptTxns (fun _ => true) stats } "trade" =
          .ok direct ∧
      filtered.deltaSeriesRepo.seriesAt "wall time" 0 =
        some [.num (1 / 200), .num 1, .num (9 / 1000), .num 1] ∧
      direct.deltaSeriesRepo.seriesAt "wall time" 0 =
        some [.num 1, .num (1 / 200), .num 1, .num (9 / 1000)] :=
  ⟨_, _, _, rfl, rfl, rfl, by decide +kernel, by decide +kernel⟩

end Sample

end Xpedite.Timelines
