import Xpedite.Timelines.Paced
import Xpedite.Timelines.Routes
import Xpedite.Timelines.Spans

/-!
Conflating a built timeline and building it on the shorter route.  Both timelines are paced
by the time stamps of the counters at the indices of the embedding.
-/

namespace Xpedite.Timelines

open Xpedite.Lib DeltaSeriesRepo

def clockOf (cpuInfo : CpuInfo) (counters : List Counter) (k : Nat) : ℚ :=
  cpuInfo.convertCyclesToTime ((counters.map Counter.tsc).getD k 0)

theorem CpuInfo.convertCyclesToTime_sub (cpuInfo : CpuInfo) (later earlier : Nat) :
    cpuInfo.convertCyclesToTime (later - earlier) =
      cpuInfo.convertCyclesToTime later - cpuInfo.convertCyclesToTime earlier := by
  rw [convertCyclesToTime, convertCyclesToTime, convertCyclesToTime]
  push_cast
  ring

section Spans

variable {probes : List Probe} {collection : TxnSubCollection}

theorem intervals_steps {firstCounter prevCounter : Counter} {counters : List Counter} {i : Nat}
    {points : List TimePoint}
    (taken : intervals probes collection firstCounter i prevCounter counters = .ok points) :
    points.length = counters.length ∧ ∀ j < counters.length,
      ∃ timepoint, points[j]? = some timepoint ∧
        timepoint.duration = clockOf collection.cpuInfo (prevCounter :: counters) (j + 1) -
          clockOf collection.cpuInfo (prevCounter :: counters) j ∧
        timepoint.deltaPmcs.length = collection.events.length := by
  induction counters generalizing i prevCounter points with
  | nil =>
      cases taken
      exact ⟨rfl, fun _ less => absurd less (Nat.not_lt_zero _)⟩
  | cons counter counters ih =>
      obtain ⟨timepoint, timepoints, made, rest, rfl⟩ := intervals_cons_eq_ok_iff.mp taken
      obtain ⟨same, steps⟩ := ih rest
      refine ⟨congrArg Nat.succ same, fun j less => ?_⟩
      cases j with
      | zero =>
          obtain ⟨sampled, takes⟩ := interval_eq_ok made
          refine ⟨timepoint, rfl, ?_, sampled.counted⟩
          rw [takes, CpuInfo.convertCyclesToTime_sub]
          rfl
      | succ j => exact steps j (Nat.lt_of_succ_lt_succ less)

theorem foldl_max_eq {first : Nat} {rest : List Nat} (ordered : (first :: rest).Pairwise (· ≤ ·)) :
    rest.foldl max first = (first :: rest).getD rest.length 0 := by
  induction rest generalizing first with
  | nil => rfl
  | cons next rest ih =>
      obtain ⟨before, ordered'⟩ := List.pairwise_cons.mp ordered
      rw [List.foldl_cons, Nat.max_eq_right (before next List.mem_cons_self), ih ordered']
      rfl

theorem spanFrom_points_paced {tsc : Nat} {firstCounter : Counter} {rest : List Counter}
    {span : Span} (spanned : spanFrom probes collection tsc firstCounter rest = .ok span) :
    (span.points ++ [span.lastPoint]).length = rest.length + 1 ∧
      Paced (clockOf collection.cpuInfo (firstCounter :: rest)) collection.events.length
        (span.points ++ [span.lastPoint]) := by
  obtain ⟨points, lastProbe, topdownValues, taken, -, -, rfl⟩ := spanFrom_eq_ok_iff.mp spanned
  obtain ⟨same, steps⟩ := intervals_steps taken
  refine ⟨?_, ?_, ?_⟩
  · rw [List.length_append, Span.of, same]
    rfl
  · intro j less
    rw [List.length_append, Span.of, same, List.length_singleton] at less
    obtain ⟨timepoint, present, takes, counted⟩ := steps j (by omega)
    have before : j < points.length := by omega
    exact ⟨timepoint, (List.getElem?_append_left before).trans present, takes, counted⟩
  · intro timepoint listed
    rcases List.mem_append.mp listed with interior | last
    · change timepoint ∈ points at interior
      obtain ⟨j, bound, rfl⟩ := List.getElem_of_mem interior
      obtain ⟨other, present, -, counted⟩ := steps j (same ▸ bound)
      rw [List.getElem?_eq_getElem bound] at present
      exact Or.inr (Option.some.inj present ▸ counted)
    · rw [List.mem_singleton.mp last]
      exact Or.inl rfl

theorem spanFrom_paced {tsc : Nat} {firstCounter : Counter} {rest : List Counter} {span : Span}
    (ordered : ((firstCounter :: rest).map Counter.tsc).Pairwise (· ≤ ·))
    (spanned : spanFrom probes collection tsc firstCounter rest = .ok span) :
    (span.points ++ [span.lastPoint]).length = rest.length + 1 ∧
      Paced (clockOf collection.cpuInfo (firstCounter :: rest)) collection.events.length
        (span.points ++ [span.lastPoint]) ∧
      span.endpoint.duration = clockOf collection.cpuInfo (firstCounter :: rest) rest.length -
        clockOf collection.cpuInfo (firstCounter :: rest) 0 := by
  obtain ⟨long, paced⟩ := spanFrom_points_paced spanned
  refine ⟨long, paced, ?_⟩
  obtain ⟨points, lastProbe, topdownValues, -, -, -, rfl⟩ := spanFrom_eq_ok_iff.mp spanned
  have longest := foldl_max_eq ordered
  rw [List.length_map] at longest
  refine (CpuInfo.convertCyclesToTime_sub _ _ _).trans ?_
  rw [longest]
  rfl

theorem exists_deltaPmcs {count : Nat} {counter prevCounter : Counter}
    (sampled : count ≤ counter.pmcs.length) (sampled' : count ≤ prevCounter.pmcs.length) :
    ∃ deltas, deltaPmcs count counter prevCounter = .ok deltas := by
  rw [deltaPmcs]
  split
  case isTrue =>
    refine exists_mapM_eq_ok fun k listed => ?_
    have bound := List.mem_range.mp listed
    obtain ⟨pmc, present⟩ := exists_itemAt (bound.trans_le sampled)
    obtain ⟨prevPmc, present'⟩ := exists_itemAt (bound.trans_le sampled')
    refine ⟨.num ((pmc - prevPmc : Int) : ℚ), ?_⟩
    rw [bind_of_eq_ok present, bind_of_eq_ok present']
    rfl
  case isFalse => exact ⟨_, rfl⟩

theorem exists_computeTopdown
    (computes : Computes (buildEventsMap collection.events) collection.topdownMetrics
      collection.events.length)
    {deltas : List Num} (counted : deltas.length = collection.events.length) :
    ∃ topdownValues, computeTopdown collection deltas = .ok topdownValues := by
  rw [computeTopdown]
  split
  case isTrue => exact ⟨[], rfl⟩
  case isFalse =>
    split
    case h_1 => exact ⟨[], rfl⟩
    case h_2 metrics given => exact computes metrics given deltas counted

theorem exists_interval
    (computes : Computes (buildEventsMap collection.events) collection.topdownMetrics
      collection.events.length)
    (firstCounter : Counter) {prevCounter counter : Counter} {k : Nat} (room : k < probes.length)
    (timed : 0 < counter.tsc) (sampled : collection.events.length ≤ counter.pmcs.length)
    (sampled' : collection.events.length ≤ prevCounter.pmcs.length) :
    ∃ timepoint,
      interval probes collection firstCounter (k + 1) prevCounter counter = .ok timepoint := by
  obtain ⟨deltas, counted⟩ := exists_deltaPmcs sampled sampled'
  obtain ⟨topdownValues, computed⟩ := exists_computeTopdown computes (length_deltaPmcs counted)
  obtain ⟨beginProbe, begins⟩ := exists_itemAt room
  have begins' : itemAt probes (k + 1 - 1) = .ok beginProbe := begins
  rw [interval, bind_of_eq_ok begins', bind_of_eq_ok (raiseIf_eq_ok timed.ne'),
    bind_of_eq_ok (raiseIf_eq_ok (Nat.not_lt.mpr sampled)), bind_of_eq_ok counted,
    bind_of_eq_ok computed]
  exact ⟨_, rfl⟩

theorem exists_intervals
    (computes : Computes (buildEventsMap collection.events) collection.topdownMetrics
      collection.events.length)
    (firstCounter : Counter) {prevCounter : Counter} {counters : List Counter} {k : Nat}
    (room : k + counters.length ≤ probes.length)
    (timed : ∀ counter ∈ counters, 0 < counter.tsc)
    (sampled : ∀ counter ∈ prevCounter :: counters, collection.events.length ≤ counter.pmcs.length) :
    ∃ points, intervals probes collection firstCounter (k + 1) prevCounter counters = .ok points := by
  induction counters generalizing k prevCounter with
  | nil => exact ⟨[], rfl⟩
  | cons counter counters ih =>
      rw [List.length_cons] at room
      obtain ⟨timepoint, made⟩ := exists_interval computes firstCounter (show k < probes.length by omega)
        (timed counter List.mem_cons_self)
        (sampled counter (List.mem_cons_of_mem _ List.mem_cons_self))
        (sampled prevCounter List.mem_cons_self)
      obtain ⟨points, rest⟩ := @ih counter (k + 1) (by omega)
        (fun other listed => timed other (List.mem_cons_of_mem _ listed))
        (fun other listed => sampled other (List.mem_cons_of_mem _ listed))
      exact ⟨timepoint :: points,
        intervals_cons_eq_ok_iff.mpr ⟨timepoint, points, made, rest, rfl⟩⟩

theorem exists_spanFrom
    (computes : Computes (buildEventsMap collection.events) collection.topdownMetrics
      collection.events.length)
    (tsc : Nat) {firstCounter : Counter} {rest : List Counter}
    (room : rest.length < probes.length)
    (timed : ∀ counter ∈ rest, 0 < counter.tsc)
    (sampled : ∀ counter ∈ firstCounter :: rest, collection.events.length ≤ counter.pmcs.length) :
    ∃ span, spanFrom probes collection tsc firstCounter rest = .ok span := by
  obtain ⟨points, taken⟩ := @exists_intervals probes collection computes firstCounter firstCounter
    rest 0 (by omega) timed sampled
  have counted : (endpointDeltas collection firstCounter rest points).length =
      collection.events.length := length_totalDeltas taken List.length_replicate
  obtain ⟨topdownValues, computed⟩ := exists_computeTopdown computes counted
  obtain ⟨lastProbe, last⟩ := exists_itemAt (show probes.length - 1 < probes.length by omega)
  exact ⟨Span.of collection lastProbe tsc firstCounter rest points topdownValues,
    spanFrom_eq_ok_iff.mpr ⟨points, lastProbe, topdownValues, taken, last, computed, rfl⟩⟩

end Spans

section Matching

theorem compareProbes_self (probe : Probe) : compareProbes probe probe = .ok true := by
  rw [compareProbes, Probe.eq]
  split
  case isTrue => rfl
  case isFalse =>
    cases probe.location with
    | none => simp
    | some location => exact congrArg Except.ok (Location.eq_self location)

theorem compareProbes_named {lhs rhs : Probe} (named : truthy lhs.sysName)
    (same : rhs.sysName = lhs.sysName) : compareProbes lhs rhs = .ok true :=
  if_pos ⟨named, same ▸ named, same.symm⟩

variable {probes : List Probe} {txn : Transaction}

theorem exists_matchedCounters {i : Nat} {indices : List Nat}
    (matching : ∀ k j, indices[k]? = some j → ∃ probe counter, probes[i + k]? = some probe ∧
      txn.counters[j]? = some counter ∧ compareProbes probe counter.probe = .ok true) :
    ∃ counters, matchedCounters probes txn i indices = .ok counters ∧
      counters.map some = indices.map fun j => txn.counters[j]? := by
  induction indices generalizing i with
  | nil => exact ⟨[], rfl, rfl⟩
  | cons j indices ih =>
      obtain ⟨probe, counter, present, hit, same⟩ := matching 0 j rfl
      obtain ⟨counters, rest, listed⟩ := @ih (i + 1) fun k j' at' => by
        rw [Nat.add_right_comm]
        exact matching (k + 1) j' at'
      refine ⟨counter :: counters, ?_, ?_⟩
      · have matched : matchedCounter probes txn i j = .ok counter := by
          rw [matchedCounter]
          refine (bind_of_eq_ok (itemAt_eq_ok present) _).trans ?_
          rw [bind_of_eq_ok (itemAt_eq_ok hit), bind_of_eq_ok same]
          rfl
        exact matchedCounters_cons_eq_ok_iff.mpr ⟨counter, counters, matched, rest, rfl⟩
      · rw [List.map_cons, List.map_cons, listed, hit]

end Matching

/-- The transaction took the route: it is made of the probes of its counters. -/
structure TakesRoute (txn : Transaction) (route : Route) : Prop where
  route_eq : txn.route = route
  probes_eq : txn.counters.map Counter.probe = route.probes

/-- The samples of the counters are complete and in the order of their time stamps. -/
structure Recorded (events : List Event) (txn : Transaction) : Prop where
  ordered : (txn.counters.map Counter.tsc).Pairwise (· ≤ ·)
  positive : ∀ counter ∈ txn.counters, 0 < counter.tsc
  sampled : ∀ counter ∈ txn.counters, events.length ≤ counter.pmcs.length

/-- At every point but the last, the same duration, and the same endpoint duration. -/
structure SameDurations (conflated direct : Timeline) : Prop where
  length_eq : conflated.points.length = direct.points.length
  points_eq : conflated.points.dropLast.map TimePoint.duration =
    direct.points.dropLast.map TimePoint.duration
  endpoint_eq : conflated.endpoint.duration = direct.endpoint.duration

section Transaction

variable {collection : TxnSubCollection} {txn : Transaction} {route dst : Route} {indices : List Nat}

theorem Route.length_probes (route : Route) : route.probes.length = route.length :=
  (List.length_map _).symm

theorem TakesRoute.length_eq (takes : TakesRoute txn route) : txn.counters.length = route.length := by
  rw [← route.length_probes, ← takes.probes_eq, List.length_map]

theorem TakesRoute.points_eq (takes : TakesRoute txn route) :
    route.points = txn.counters.map fun counter => counter.probe.sysName := by
  rw [Route.points, ← takes.probes_eq, List.map_map]
  rfl

theorem spanOf_own (takes : TakesRoute txn route) {firstCounter : Counter} {rest : List Counter}
    (counters : txn.counters = firstCounter :: rest) :
    spanOf route route.probes collection txn =
      spanFrom route.probes collection firstCounter.tsc firstCounter rest := by
  have whole : indicesFor route txn = .ok (List.range txn.counters.length) := by
    rw [indicesFor, takes.length_eq, if_neg (Nat.lt_irrefl _)]
  obtain ⟨matched, selected, listed⟩ := @exists_matchedCounters route.probes txn 0
    (List.range txn.counters.length) fun k j at' => by
      obtain ⟨bound, rfl⟩ := List.getElem?_eq_some_iff.mp at'
      rw [List.length_range] at bound
      rw [List.getElem_range, Nat.zero_add, ← takes.probes_eq, List.getElem?_map,
        List.getElem?_eq_getElem bound]
      exact ⟨_, _, rfl, rfl, compareProbes_self _⟩
  have same : matched = txn.counters :=
    List.map_injective_iff.mpr (Option.some_injective _)
      (listed.trans (Embeds.self txn.counters).entries)
  have begins : itemAt txn.counters 0 = .ok firstCounter := by rw [counters]; rfl
  rw [same, counters] at selected
  rw [spanOf, bind_of_eq_ok begins, bind_of_eq_ok whole, counters, bind_of_eq_ok selected]

theorem indicesFor_of_embeds (length : txn.counters.length = txn.route.length)
    (conflated : conflateRoutes txn.route dst = some indices)
    (embeds : Embeds txn.route.points dst.points indices) : indicesFor dst txn = .ok indices := by
  have within : dst.length ≤ txn.route.length := by
    rw [Route.length, Route.length, ← embeds.length_eq,
      ← @List.length_range txn.route.points.length]
    have distinct : indices.Nodup := embeds.increasing.imp Nat.ne_of_lt
    exact (List.subperm_of_subset distinct fun _ listed =>
      List.mem_range.mpr (embeds.lt_length listed)).length_le
  rw [indicesFor, length, conflated]
  split
  case isTrue => rfl
  case isFalse all =>
    have same : dst.length = txn.route.length := Nat.le_antisymm within (Nat.le_of_not_lt all)
    rw [embeds.eq_range (embeds.length_eq.trans same)]
    exact congrArg (fun length => Except.ok (List.range length)) same

theorem indicesFor_eq_ok (takes : TakesRoute txn route)
    (conflated : conflateRoutes route dst = some indices)
    (embeds : Embeds route.points dst.points indices) : indicesFor dst txn = .ok indices := by
  obtain ⟨rfl, probes⟩ := takes
  exact indicesFor_of_embeds (TakesRoute.length_eq ⟨rfl, probes⟩) conflated embeds

theorem spanOf_direct (takes : TakesRoute txn route)
    (conflated : conflateRoutes route dst = some indices)
    (embeds : Embeds route.points dst.points indices)
    (named : ∀ probe ∈ dst.probes, truthy probe.sysName = true) (some : dst.probes ≠ []) :
    ∃ tsc firstCounter rest,
      (firstCounter :: rest).map Option.some = indices.map (fun j => txn.counters[j]?) ∧
      spanOf dst dst.probes collection txn =
        spanFrom dst.probes collection tsc firstCounter rest := by
  obtain ⟨matched, selected, listed⟩ := @exists_matchedCounters dst.probes txn 0 indices
    fun k j at' => by
      have listed := List.mem_of_getElem? at'
      have bound : j < txn.counters.length := by
        rw [takes.length_eq]
        exact embeds.lt_length listed
      have entry := embeds.getElem?_eq at'
      rw [takes.points_eq, List.getElem?_map, List.getElem?_eq_getElem bound, Route.points,
        List.getElem?_map] at entry
      obtain ⟨probe, present, same⟩ := Option.map_eq_some_iff.mp entry.symm
      rw [Nat.zero_add]
      exact ⟨probe, txn.counters[j], present, List.getElem?_eq_getElem bound,
        compareProbes_named (named probe (List.mem_of_getElem? present)) same.symm⟩
  have whole : (indices.map fun j => txn.counters[j]?).length = dst.probes.length := by
    rw [List.length_map, embeds.length_eq, Route.points, List.length_map]
  cases matched with
  | nil =>
      rw [← listed] at whole
      exact absurd (List.length_eq_zero_iff.mp whole.symm) some
  | cons firstCounter rest =>
      have started : 0 < txn.counters.length := by
        cases indices with
        | nil => cases listed
        | cons index indices =>
            rw [takes.length_eq]
            exact Nat.zero_lt_of_lt (embeds.lt_length List.mem_cons_self)
      obtain ⟨begin, begins⟩ := exists_itemAt started
      refine ⟨begin.tsc, firstCounter, rest, listed, ?_⟩
      rw [spanOf, bind_of_eq_ok begins, bind_of_eq_ok (indicesFor_eq_ok takes conflated embeds),
        bind_of_eq_ok selected]

theorem clockOf_selected (cpuInfo : CpuInfo) {counters selected : List Counter}
    (listed : selected.map some = indices.map fun j => counters[j]?) {k : Nat}
    (bound : k < indices.length) :
    clockAt (clockOf cpuInfo counters) indices k = clockOf cpuInfo selected k := by
  have entry := congrArg (fun entries => entries[k]?) listed
  simp only [List.getElem?_map, List.getElem?_eq_getElem bound, Option.map_some] at entry
  obtain ⟨counter, present, same⟩ := Option.map_eq_some_iff.mp entry
  simp only [clockAt, clockOf, List.getD_eq_getElem?_getD, List.getElem?_map,
    List.getElem?_eq_getElem bound, Option.getD_some, present, ← same]

variable (collection) in
theorem exists_spans (takes : TakesRoute txn route) (recorded : Recorded collection.events txn)
    (computes : Computes (buildEventsMap collection.events) collection.topdownMetrics
      collection.events.length)
    (conflated : conflateRoutes route dst = some indices)
    (embeds : Embeds route.points dst.points indices) (long : 2 ≤ indices.length)
    (named : ∀ probe ∈ dst.probes, truthy probe.sysName = true) :
    ∃ own direct, spanOf route route.probes collection txn = .ok own ∧
      spanOf dst dst.probes collection txn = .ok direct ∧
      (∀ entry ∈ own.entries, ((DeltaSeriesRepo.new collection.events (topdownKeysOf collection)
        route.probes).placeOf entry).isSome = true) ∧
      (∀ entry ∈ direct.entries, ((DeltaSeriesRepo.new collection.events (topdownKeysOf collection)
        dst.probes).placeOf entry).isSome = true) ∧
      ∀ srcTl dstTl : Timeline, srcTl.txn = txn → srcTl.points = own.points ++ [own.lastPoint] →
        dstTl.points = direct.points ++ [direct.lastPoint] → dstTl.endpoint = direct.endpoint →
        ∃ result, conflateTimeline (buildEventsMap collection.events) collection.topdownMetrics
          srcTl indices = .ok result ∧ SameDurations result dstTl := by
  have length : dst.probes.length = indices.length := by
    rw [embeds.length_eq, Route.points, List.length_map]
  have some' : dst.probes ≠ [] := List.ne_nil_of_length_pos (by omega)
  obtain ⟨tsc, first, rest, listed, direct⟩ :=
    @spanOf_direct collection txn route dst indices takes conflated embeds named some'
  have selection : Embeds txn.counters (first :: rest) indices := ⟨embeds.increasing, listed.symm⟩
  have sublist := selection.sublist
  have size := selection.length_eq
  rw [List.length_cons] at size
  have present : txn.counters ≠ [] := List.ne_nil_of_mem (sublist.subset List.mem_cons_self)
  obtain ⟨firstCounter, others, counters⟩ := List.exists_cons_of_ne_nil present
  have own := @spanOf_own collection txn route takes firstCounter others counters
  obtain ⟨ordered, positive, sampled⟩ := recorded
  rw [counters] at sublist
  have enough : (firstCounter :: others).length = route.probes.length := by
    rw [← counters, ← takes.probes_eq, List.length_map]
  rw [List.length_cons] at enough
  rw [counters] at ordered positive sampled
  obtain ⟨ownSpan, ownSpanned⟩ := @exists_spanFrom route.probes collection computes firstCounter.tsc
    firstCounter others (by omega)
    (fun counter listed => positive counter (List.mem_cons_of_mem _ listed)) sampled
  obtain ⟨directSpan, directSpanned⟩ := @exists_spanFrom dst.probes collection computes tsc first rest
    (by omega) (fun counter listed => positive counter
      (sublist.subset (List.mem_cons_of_mem _ listed)))
    (fun counter listed => sampled counter (sublist.subset listed))
  obtain ⟨ownLength, ownPaced, -⟩ := spanFrom_paced ordered ownSpanned
  obtain ⟨directLength, directPaced, directEnd⟩ :=
    spanFrom_paced (ordered.sublist (sublist.map Counter.tsc)) directSpanned
  refine ⟨ownSpan, directSpan, own.trans ownSpanned, direct.trans directSpanned,
    spanFrom_placed ownSpanned, spanFrom_placed directSpanned, ?_⟩
  intro srcTl dstTl ofTxn points points' endpoint
  rw [← points] at ownLength ownPaced
  obtain ⟨result, made, resultLength, resultPaced, resultEnd⟩ :=
    exists_conflateTimeline computes ownPaced (ofTxn ▸ present) embeds.increasing
      (fun index listed => by
        rw [ownLength, ← List.length_cons, ← counters]
        exact selection.lt_length listed) long
  have agree : ∀ k < indices.length,
      clockAt (clockOf collection.cpuInfo (firstCounter :: others)) indices k =
        clockOf collection.cpuInfo (first :: rest) k := by
    rw [← counters]
    exact fun k bound => clockOf_selected collection.cpuInfo listed bound
  refine ⟨result, made, ?_, ?_, ?_⟩
  · rw [resultLength, points', directLength, size]
  · rw [points']
    refine resultPaced.durations_eq directPaced ?_ ?_
    · rw [resultLength, directLength, size]
    · rw [resultLength]
      exact agree
  · rw [resultEnd, endpoint, directEnd, agree 0 (by omega), agree _ (by omega)]
    congr 2
    omega

end Transaction

/--
For a subcollection whose transactions took a route, and a route of at least two named
probes whose points are a subsequence of it: conflating the timelines built on the first
route gives the durations of those built on the second one.
-/
theorem conflateTimeline_agrees (category : String) (collection : TxnSubCollection)
    (route dst : Route) (takes : ∀ txn ∈ collection.transactions, TakesRoute txn route)
    (recorded : ∀ txn ∈ collection.transactions, Recorded collection.events txn)
    (computes : Computes (buildEventsMap collection.events) collection.topdownMetrics
      collection.events.length)
    (long : 2 ≤ dst.length) (within : dst.points.Sublist route.points)
    (named : ∀ probe ∈ dst.probes, truthy probe.sysName = true) :
    ∃ indices stats direct, conflateRoutes route dst = some indices ∧
      buildTimelineStats route route.probes collection category = .ok stats ∧
      buildTimelineStats dst dst.probes collection category = .ok direct ∧
      List.Forall₂ (fun srcTl dstTl => ∃ conflated,
        conflateTimeline (buildEventsMap collection.events) collection.topdownMetrics srcTl indices =
          .ok conflated ∧ SameDurations conflated dstTl)
        stats.timelineCollection direct.timelineCollection := by
  obtain ⟨indices, conflated, embeds⟩ := conflateRoutes_embeds within
  have spans := fun txn (listed : txn ∈ collection.transactions) =>
    exists_spans collection (takes txn listed) (recorded txn listed) computes conflated embeds
      (embeds.length_eq ▸ long) named
  obtain ⟨after, folded⟩ := @exists_foldlM_addTransaction route route.probes collection
    collection.transactions
    ⟨DeltaSeriesRepo.new collection.events (topdownKeysOf collection) route.probes, [], 0⟩
    fun txn listed => by
      obtain ⟨own, direct, spanned, -, placed, -⟩ := spans txn listed
      exact ⟨own, spanned, placed⟩
  obtain ⟨after', folded'⟩ := @exists_foldlM_addTransaction dst dst.probes collection
    collection.transactions
    ⟨DeltaSeriesRepo.new collection.events (topdownKeysOf collection) dst.probes, [], 0⟩
    fun txn listed => by
      obtain ⟨own, direct, -, spanned, -, placed, -⟩ := spans txn listed
      exact ⟨direct, spanned, placed⟩
  obtain ⟨timelines, collected, ofTxns, built, -⟩ := foldlM_addTransaction_eq_ok folded
  obtain ⟨timelines', collected', ofTxns', built', -⟩ := foldlM_addTransaction_eq_ok folded'
  refine ⟨indices, _, _, conflated, bind_of_eq_ok folded _, bind_of_eq_ok folded' _, ?_⟩
  change List.Forall₂ _ after.timelineCollection after'.timelineCollection
  rw [collected, collected', List.nil_append, List.nil_append]
  have paired : List.Forall₂ (fun timeline other : Timeline => timeline.txn = other.txn)
      timelines timelines' := by
    have same : List.Forall₂ (· = ·) (timelines.map Timeline.txn) (timelines'.map Timeline.txn) := by
      rw [ofTxns, ofTxns']
      exact List.forall₂_refl _
    exact List.forall₂_map_right_iff.mp (List.forall₂_map_left_iff.mp same)
  have facts := (List.forall₂_and_left _ _).mpr ⟨built, paired⟩
  have facts' := ((List.forall₂_and_left _ _).mpr ⟨built', facts.flip⟩).flip
  have transactions : ∀ timeline ∈ timelines, timeline.txn ∈ collection.transactions := by
    intro timeline listed
    rw [← ofTxns]
    exact List.mem_map_of_mem listed
  refine ((List.forall₂_and_left _ _).mpr ⟨transactions, facts'⟩).imp ?_
  rintro timeline other ⟨listed, ⟨span', tsc', spanned', made'⟩, ⟨span, tsc, spanned, made⟩, same⟩
  obtain ⟨own, direct, ownSpanned, directSpanned, -, -, agrees⟩ := spans _ listed
  rw [spanned] at ownSpanned
  rw [← same, directSpanned] at spanned'
  cases ownSpanned
  cases spanned'
  refine agrees timeline other rfl ?_ ?_ ?_
  · rw [made]
    rfl
  · rw [made']
    rfl
  · rw [made']
    rfl

section Sample

def orderTxn : Transaction := transactionOf
  [counterOf (namedProbe "receive" (by decide)) 10 [5],
    counterOf (namedProbe "match" (by decide)) 15 [6],
    counterOf (namedProbe "reply" (by decide)) 40 [9]]

def orderRoute : Route := ⟨[namedProbe "receive" (by decide), namedProbe "reply" (by decide)]⟩

theorem conflateTimeline_agrees_order :
    ∃ indices stats direct, conflateRoutes orderTxn.route orderRoute = some indices ∧
      buildTimelineStats orderTxn.route orderTxn.route.probes
        (collectionOf [orderTxn] [⟨"instructions", "INST_RETIRED.ANY"⟩]) "order" = .ok stats ∧
      buildTimelineStats orderRoute orderRoute.probes
        (collectionOf [orderTxn] [⟨"instructions", "INST_RETIRED.ANY"⟩]) "order" = .ok direct ∧
      List.Forall₂ (fun srcTl dstTl => ∃ conflated,
        conflateTimeline (buildEventsMap [⟨"instructions", "INST_RETIRED.ANY"⟩]) none srcTl indices =
          .ok conflated ∧ SameDurations conflated dstTl)
        stats.timelineCollection direct.timelineCollection := by
  refine conflateTimeline_agrees "order"
    (collectionOf [orderTxn] [⟨"instructions", "INST_RETIRED.ANY"⟩]) orderTxn.route orderRoute
    ?_ ?_ ?_ (by decide) (by decide) (by decide)
  · intro txn listed
    rw [List.mem_singleton.mp listed]
    exact ⟨rfl, rfl⟩
  · intro txn listed
    rw [List.mem_singleton.mp listed]
    exact ⟨by decide, by decide, by decide⟩
  · intro metrics given
    cases given

def placedProbe (lineNo : Nat) : Probe where
  name := "probe"
  sysName := none
  location := some ⟨[], "app.cpp", lineNo⟩
  named := fun missing => by cases missing

def placedTxn : Transaction := transactionOf
  [counterOf (placedProbe 1) 10 [], counterOf (placedProbe 2) 15 [],
    counterOf (placedProbe 3) 40 []]

def placedRoute : Route := ⟨[placedProbe 1, placedProbe 2]⟩

/-- Probes without a name are all alike to `conflateRoutes`, but not to `compareProbes`. -/
theorem conflateTimeline_agrees_fails_unnamed :
    TakesRoute placedTxn placedTxn.route ∧ Recorded [] placedTxn ∧ 2 ≤ placedRoute.length ∧
      placedRoute.probes.Sublist placedTxn.route.probes ∧
      conflateRoutes placedTxn.route placedRoute = some [1, 2] ∧
      buildTimelineStats placedRoute placedRoute.probes (collectionOf [placedTxn] []) "order" =
        .error .probeMismatch :=
  ⟨⟨rfl, rfl⟩, ⟨by decide, by decide, by decide⟩, by decide, by decide, by decide, rfl⟩

end Sample

end Xpedite.Timelines
