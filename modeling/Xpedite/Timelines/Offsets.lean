import Xpedite.Timelines.Conflate

/-!
Offsets of time points.  In a built timeline the offset of a point is what the points before
it take; a conflated timeline has its offsets and its last duration from the points it was
conflated from.
-/

namespace Xpedite.Timelines

open Xpedite.Lib

/-- Each offset is the sum of the durations before, and the last duration is 0. -/
structure WellFormed (points : List TimePoint) : Prop where
  offset : ∀ k timepoint, points[k]? = some timepoint →
    timepoint.point = ((points.take k).map TimePoint.duration).sum
  still : ∀ timepoint ∈ points.getLast?, timepoint.duration = 0

/-- The offsets are counted from the first reading of the clock, and the last point lasts no time. -/
structure Clocked (clock : Nat → ℚ) (count : Nat) (points : List TimePoint) : Prop
    extends Paced clock count points where
  offsets : ∀ k timepoint, points[k]? = some timepoint → timepoint.point = clock k - clock 0
  still : ∀ timepoint ∈ points.getLast?, timepoint.duration = 0

theorem Paced.sum_take {clock : Nat → ℚ} {count : Nat} {points : List TimePoint}
    (paced : Paced clock count points) {k : Nat} (bound : k < points.length) :
    ((points.take k).map TimePoint.duration).sum = clock k - clock 0 := by
  induction k with
  | zero => rw [List.take_zero, List.map_nil, List.sum_nil, sub_self]
  | succ k ih =>
      obtain ⟨timepoint, present, takes, -⟩ := paced.steps k bound
      rw [List.take_add_one, present, Option.toList_some, List.map_append, List.sum_append,
        ih (by omega), List.map_singleton, List.sum_singleton, takes]
      ring

theorem Clocked.wellFormed {clock : Nat → ℚ} {count : Nat} {points : List TimePoint}
    (clocked : Clocked clock count points) : WellFormed points := by
  refine ⟨?_, clocked.still⟩
  intro k timepoint present
  rw [clocked.offsets k timepoint present,
    clocked.toPaced.sum_take (List.getElem?_eq_some_iff.mp present).1]

section Built

variable {route : Route} {probes : List Probe} {collection : TxnSubCollection}

theorem intervals_offsets {firstCounter prevCounter : Counter} {counters : List Counter} {i : Nat}
    {points : List TimePoint}
    (taken : intervals probes collection firstCounter i prevCounter counters = .ok points)
    {j : Nat} {timepoint : TimePoint} (present : points[j]? = some timepoint) :
    timepoint.point = clockOf collection.cpuInfo (prevCounter :: counters) j -
      collection.cpuInfo.convertCyclesToTime firstCounter.tsc := by
  induction counters generalizing i prevCounter points j with
  | nil =>
      cases taken
      cases present
  | cons counter counters ih =>
      obtain ⟨first, timepoints, made, rest, rfl⟩ := intervals_cons_eq_ok_iff.mp taken
      cases j with
      | zero =>
          cases present
          obtain ⟨_, -, made⟩ := bind_eq_ok made
          obtain ⟨_, -, made⟩ := bind_eq_ok made
          obtain ⟨_, -, made⟩ := bind_eq_ok made
          obtain ⟨_, -, made⟩ := bind_eq_ok made
          obtain ⟨_, -, made⟩ := bind_eq_ok made
          cases made
          exact CpuInfo.convertCyclesToTime_sub _ _ _
      | succ j => exact ih rest present

theorem spanFrom_clocked {tsc : Nat} {firstCounter : Counter} {rest : List Counter} {span : Span}
    (spanned : spanFrom probes collection tsc firstCounter rest = .ok span) :
    Clocked (clockOf collection.cpuInfo (firstCounter :: rest)) collection.events.length
      (span.points ++ [span.lastPoint]) := by
  obtain ⟨long, paced⟩ := spanFrom_points_paced spanned
  obtain ⟨points, lastProbe, topdownValues, taken, -, -, rfl⟩ := spanFrom_eq_ok_iff.mp spanned
  obtain ⟨same, -⟩ := intervals_steps taken
  refine ⟨paced, ?_, ?_⟩
  · intro k timepoint present
    change (points ++ [_])[k]? = some timepoint at present
    rcases Nat.lt_or_ge k points.length with interior | last
    · rw [List.getElem?_append_left interior] at present
      exact intervals_offsets taken present
    · rw [List.getElem?_append_right last] at present
      have final : k = points.length := by
        have bound := (List.getElem?_eq_some_iff.mp present).1
        rw [List.length_singleton] at bound
        omega
      rw [final, Nat.sub_self, List.getElem?_cons_zero] at present
      cases present
      have reading : clockOf collection.cpuInfo (firstCounter :: rest) points.length =
          collection.cpuInfo.convertCyclesToTime (rest.getLastD firstCounter).tsc := by
        rw [clockOf, same]
        rcases List.eq_nil_or_concat rest with rfl | ⟨front, last, rfl⟩
        · rfl
        · rw [List.concat_eq_append, List.getLastD_concat, List.length_append, List.length_singleton]
          simp
      rw [final, reading]
      exact CpuInfo.convertCyclesToTime_sub _ _ _
  · intro timepoint last
    rw [List.getLast?_concat] at last
    cases last
    rfl

theorem Built.clocked {timeline : Timeline} (built : Built route probes collection timeline) :
    timeline.txn.counters ≠ [] ∧
      ∃ clock, Clocked clock collection.events.length timeline.points := by
  obtain ⟨span, inceptionTsc, spanned, made⟩ := built
  obtain ⟨begin, indices, firstCounter, rest, begins, -, -, spanned⟩ := spanOf_eq_ok_iff.mp spanned
  refine ⟨List.ne_nil_of_length_pos (lt_of_itemAt_eq_ok begins), ?_⟩
  rw [made]
  exact ⟨_, spanFrom_clocked spanned⟩

theorem built_of_mem_timelineCollection {category : String} {stats : TimelineStats}
    (built : buildTimelineStats route probes collection category = .ok stats) {timeline : Timeline}
    (listed : timeline ∈ stats.timelineCollection) : Built route probes collection timeline := by
  obtain ⟨state, folded, built⟩ := bind_eq_ok built
  cases built
  obtain ⟨timelines, collected, -, all, -⟩ := foldlM_addTransaction_eq_ok folded
  rw [List.nil_append] at collected
  exact all timeline (collected ▸ listed)

end Built

section Conflation

variable {eventsMap : OrderedDict String Nat} {topdownMetrics : Option TopdownMetrics}
  {points : List TimePoint}

theorem mergePoint_point {dstTp merged : TimePoint} {j : Nat}
    (done : mergePoint points dstTp j = .ok merged) : merged.point = dstTp.point := by
  obtain ⟨srcTp, -, done⟩ := bind_eq_ok done
  obtain ⟨_, -, done⟩ := bind_eq_ok done
  obtain ⟨deltas, -, done⟩ := bind_eq_ok done
  cases done
  rfl

theorem foldlM_mergePoint_point {indices : List Nat} {dstTp merged : TimePoint}
    (done : indices.foldlM (mergePoint points) dstTp = .ok merged) :
    merged.point = dstTp.point := by
  induction indices generalizing dstTp with
  | nil =>
      cases done
      rfl
  | cons j indices ih =>
      rw [List.foldlM_cons] at done
      obtain ⟨next, first, rest⟩ := bind_eq_ok done
      rw [ih rest, mergePoint_point first]

theorem conflateTimepoint_point {begin stop : Nat} {timepoint : TimePoint}
    (done : conflateTimepoint eventsMap topdownMetrics points begin stop = .ok timepoint) :
    ∃ srcTp, points[begin]? = some srcTp ∧ timepoint.point = srcTp.point ∧
      (stop = begin + 1 → timepoint.duration = srcTp.duration) := by
  obtain ⟨srcTp, present, done⟩ := bind_eq_ok done
  obtain ⟨merged, folded, done⟩ := bind_eq_ok done
  obtain ⟨topdownValues, -, done⟩ := bind_eq_ok done
  cases done
  have found : points[begin]? = some srcTp := by
    rw [itemAt] at present
    split at present
    case h_1 _ there =>
      cases present
      exact there
    case h_2 => cases present
  have kept := foldlM_mergePoint_point folded
  refine ⟨srcTp, found, kept, ?_⟩
  rintro rfl
  rw [Nat.sub_self, List.range'_zero] at folded
  cases folded
  rfl

theorem conflateTimepoints_points {indices : List Nat} {conflated : List TimePoint}
    (done : conflateTimepoints eventsMap topdownMetrics points indices = .ok conflated) :
    conflated.map (fun timepoint => some timepoint.point) =
        indices.map (fun index => points[index]?.map TimePoint.point) ∧
      conflated.getLast?.map TimePoint.duration =
        indices.getLast?.bind fun index => points[index]?.map TimePoint.duration := by
  induction indices generalizing conflated with
  | nil =>
      cases done
      exact ⟨rfl, rfl⟩
  | cons begin rest ih =>
      cases rest with
      | nil =>
          obtain ⟨timepoint, made, done⟩ := bind_eq_ok done
          cases done
          obtain ⟨srcTp, present, offset, duration⟩ := conflateTimepoint_point made
          refine ⟨?_, ?_⟩
          · rw [List.map_singleton, List.map_singleton, present, offset]
            rfl
          · rw [List.getLast?_singleton, List.getLast?_singleton, Option.bind_some, present,
              Option.map_some, duration rfl]
            rfl
      | cons next rest =>
          obtain ⟨timepoint, made, done⟩ := bind_eq_ok done
          obtain ⟨timepoints, others, done⟩ := bind_eq_ok done
          cases done
          obtain ⟨srcTp, present, offset, -⟩ := conflateTimepoint_point made
          obtain ⟨offsets, last⟩ := ih others
          refine ⟨?_, ?_⟩
          · rw [List.map_cons, List.map_cons, offsets, present, offset]
            rfl
          · cases timepoints with
            | nil => cases offsets
            | cons second timepoints =>
                rw [List.getLast?_cons_cons, List.getLast?_cons_cons]
                exact last

end Conflation

/--
Conflated by at least two increasing indices, a built timeline is well formed exactly if its
point at the first index has the offset 0 and its point at the last index has no duration.
-/
theorem conflateTimeline_wellFormed_iff (category : String) (collection : TxnSubCollection)
    (route : Route) (probes : List Probe)
    (computes : Computes (buildEventsMap collection.events) collection.topdownMetrics
      collection.events.length)
    {stats : TimelineStats}
    (built : buildTimelineStats route probes collection category = .ok stats) {srcTl : Timeline}
    (listed : srcTl ∈ stats.timelineCollection) {indices : List Nat}
    (increasing : indices.Pairwise (· < ·))
    (bound : ∀ index ∈ indices, index < srcTl.points.length) (long : 2 ≤ indices.length) :
    ∃ conflated,
      conflateTimeline (buildEventsMap collection.events) collection.topdownMetrics srcTl indices =
        .ok conflated ∧
      (WellFormed conflated.points ↔
        (∀ first ∈ indices.head?, ∀ timepoint ∈ srcTl.points[first]?, timepoint.point = 0) ∧
        ∀ last ∈ indices.getLast?, ∀ timepoint ∈ srcTl.points[last]?, timepoint.duration = 0) := by
  obtain ⟨started, clock, clocked⟩ := (built_of_mem_timelineCollection built listed).clocked
  obtain ⟨conflated, made, same, paced, -⟩ :=
    exists_conflateTimeline computes clocked.toPaced started increasing bound long
  refine ⟨conflated, made, ?_⟩
  obtain ⟨begin, begins, made⟩ := bind_eq_ok made
  obtain ⟨points, conflates, made⟩ := bind_eq_ok made
  obtain ⟨ends, -, made⟩ := bind_eq_ok made
  obtain ⟨endpoint, -, made⟩ := bind_eq_ok made
  cases made
  obtain ⟨offsets, final⟩ := conflateTimepoints_points conflates
  have size : points.length = indices.length := same
  have offsetOf : ∀ index srcTp, srcTl.points[index]? = some srcTp →
      srcTp.point = clock index - clock 0 := clocked.offsets
  have each : ∀ k timepoint, points[k]? = some timepoint →
      timepoint.point = clockAt clock indices k - clock 0 := by
    intro k timepoint present
    have entry := congrArg (fun entries => entries[k]?) offsets
    have within : k < indices.length := size ▸ (List.getElem?_eq_some_iff.mp present).1
    have inside := bound indices[k] (List.getElem_mem within)
    simp only [List.getElem?_map, present, List.getElem?_eq_getElem within,
      List.getElem?_eq_getElem inside, Option.map_some, Option.some.injEq] at entry
    rw [entry, offsetOf indices[k] _ (List.getElem?_eq_getElem inside), clockAt,
      List.getD_eq_getElem?_getD, List.getElem?_eq_getElem within, Option.getD_some]
  obtain ⟨first, rest, rfl⟩ : ∃ first rest, indices = first :: rest :=
    List.exists_cons_of_ne_nil (List.ne_nil_of_length_pos (by omega))
  have firstInside := bound first List.mem_cons_self
  constructor
  · intro wellFormed
    constructor
    · intro index head timepoint present
      cases head
      rw [List.length_cons] at size
      have started : points[0]? = some points[0] := List.getElem?_eq_getElem (by omega)
      have zero := wellFormed.offset 0 _ started
      rw [each 0 _ started] at zero
      rw [offsetOf _ timepoint present]
      exact zero
    · intro index last timepoint present
      rw [Option.mem_def] at last present
      rw [last, Option.bind_some, present, Option.map_some] at final
      obtain ⟨lastPoint, there, same⟩ := Option.map_eq_some_iff.mp final
      rw [← same]
      exact wellFormed.still lastPoint there
  · rintro ⟨start, finish⟩
    have began : clockAt clock (first :: rest) 0 = clock 0 := by
      have present := List.getElem?_eq_getElem firstInside
      have zero := start first rfl _ present
      rw [offsetOf first _ present] at zero
      exact sub_eq_zero.mp zero
    refine ⟨?_, ?_⟩
    · intro k timepoint present
      rw [each k timepoint present, ← began,
        paced.sum_take (List.getElem?_eq_some_iff.mp present).1]
    · intro timepoint last
      rw [Option.mem_def] at last
      obtain ⟨index, lastIndex⟩ : ∃ index, (first :: rest).getLast? = some index :=
        ⟨_, List.getLast?_eq_some_getLast (List.cons_ne_nil first rest)⟩
      have inside := bound index (List.mem_of_getLast? lastIndex)
      have present := List.getElem?_eq_getElem inside
      rw [last, Option.map_some, lastIndex, Option.bind_some, present, Option.map_some,
        Option.some.injEq] at final
      rw [final]
      exact finish index lastIndex _ present

section Sample

def orderStats : Except Failure TimelineStats :=
  buildTimelineStats orderTxn.route orderTxn.route.probes (collectionOf [orderTxn] []) "order"

theorem conflateTimeline_wellFormed_iff_order :
    ∃ stats srcTl conflated, orderStats = .ok stats ∧ srcTl ∈ stats.timelineCollection ∧
      conflateTimeline (buildEventsMap []) none srcTl [0, 2] = .ok conflated ∧
      (WellFormed conflated.points ↔
        (∀ first ∈ [0, 2].head?, ∀ timepoint ∈ srcTl.points[first]?, timepoint.point = 0) ∧
        ∀ last ∈ [0, 2].getLast?, ∀ timepoint ∈ srcTl.points[last]?, timepoint.duration = 0) := by
  obtain ⟨stats, built⟩ : ∃ stats, orderStats = .ok stats := ⟨_, rfl⟩
  obtain ⟨srcTl, listed, long⟩ : ∃ srcTl ∈ stats.timelineCollection, srcTl.points.length = 3 := by
    cases built
    exact ⟨_, List.mem_singleton.mpr rfl, rfl⟩
  have bound : ∀ index ∈ [0, 2], index < srcTl.points.length := by
    rw [long]
    decide
  obtain ⟨conflated, made, iff⟩ := @conflateTimeline_wellFormed_iff "order"
    (collectionOf [orderTxn] []) orderTxn.route orderTxn.route.probes
    (fun metrics given => by cases given) stats built srcTl listed [0, 2] (by decide) bound
    (by decide)
  exact ⟨stats, srcTl, conflated, built, listed, made, iff⟩

/-- Without its first point a timeline does not start at 0 any more. -/
theorem conflated_starts_late :
    ∃ stats srcTl conflated, orderStats = .ok stats ∧ srcTl ∈ stats.timelineCollection ∧
      conflateTimeline (buildEventsMap []) none srcTl [1, 2] = .ok conflated ∧
      ¬WellFormed conflated.points := by
  refine ⟨_, _, _, rfl, List.mem_singleton.mpr rfl, rfl, ?_⟩
  intro wellFormed
  exact absurd (wellFormed.offset 0 _ rfl) (by decide +kernel)

end Sample

end Xpedite.Timelines
