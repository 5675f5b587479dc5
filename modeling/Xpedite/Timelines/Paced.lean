import Mathlib.Tactic.Ring
import Mathlib.Algebra.Order.Field.Rat
import Xpedite.Timelines.ConflatorCore
import Xpedite.Lib.Fallible

/-!
Conflation of timelines whose points take the time between readings of a clock.  The points
of a conflated timeline take the time between the readings at the indices it was conflated by.
-/

namespace Xpedite.Timelines

open Xpedite.Lib

/-- All points but the last take the time from one reading of the clock to the next, and
each has no deltas or one for each event. -/
structure Paced (clock : Nat → ℚ) (count : Nat) (points : List TimePoint) : Prop where
  steps : ∀ j, j + 1 < points.length → ∃ timepoint, points[j]? = some timepoint ∧
    timepoint.duration = clock (j + 1) - clock j ∧ timepoint.deltaPmcs.length = count
  counted : ∀ timepoint ∈ points,
    timepoint.deltaPmcs = [] ∨ timepoint.deltaPmcs.length = count

def Computes (eventsMap : OrderedDict String Nat) (topdownMetrics : Option TopdownMetrics)
    (count : Nat) : Prop :=
  ∀ metrics ∈ topdownMetrics, ∀ deltas : List Num, deltas.length = count →
    ∃ topdownValues, metrics.compute ⟨eventsMap, deltas⟩ = .ok topdownValues

variable {clock : Nat → ℚ} {count : Nat} {points : List TimePoint}

theorem Paced.durations_eq {clock' : Nat → ℚ} {count' : Nat} {others : List TimePoint}
    (paced : Paced clock count points) (paced' : Paced clock' count' others)
    (same : points.length = others.length) (agree : ∀ j < points.length, clock j = clock' j) :
    points.dropLast.map TimePoint.duration = others.dropLast.map TimePoint.duration := by
  refine List.ext_getElem? fun j => ?_
  rw [List.getElem?_map, List.getElem?_map, List.getElem?_dropLast, List.getElem?_dropLast, ← same]
  split
  case isTrue bound =>
    obtain ⟨timepoint, present, takes, -⟩ := paced.steps j (by omega)
    obtain ⟨other, present', takes', -⟩ := paced'.steps j (by omega)
    rw [present, present', Option.map_some, Option.map_some, takes, takes',
      agree j (by omega), agree (j + 1) (by omega)]
  case isFalse => rfl

theorem exists_mergeDeltas {dst src : List Num} (same : dst.length = src.length) :
    ∃ merged, mergeDeltas dst src = .ok merged ∧ merged.length = dst.length := by
  induction dst generalizing src with
  | nil =>
      cases src with
      | nil => exact ⟨[], rfl, rfl⟩
      | cons delta src => cases same
  | cons total dst ih =>
      cases src with
      | nil => cases same
      | cons delta src =>
          obtain ⟨rest, merged, long⟩ := ih (Nat.succ.inj same)
          refine ⟨(if delta.isNan then total else total.add delta) :: rest, ?_,
            congrArg Nat.succ long⟩
          rw [mergeDeltas, bind_of_eq_ok merged]
          rfl

theorem exists_mergePoint (paced : Paced clock count points) {j : Nat}
    (bound : j + 1 < points.length) {dstTp : TimePoint} (counted : dstTp.deltaPmcs.length = count) :
    ∃ merged, mergePoint points dstTp j = .ok merged ∧
      merged.duration = dstTp.duration + (clock (j + 1) - clock j) ∧
      merged.deltaPmcs.length = count := by
  obtain ⟨srcTp, present, takes, srcCounted⟩ := paced.steps j bound
  obtain ⟨deltas, merged, long⟩ := exists_mergeDeltas (counted.trans srcCounted.symm)
  refine ⟨{ dstTp with duration := dstTp.duration + srcTp.duration, deltaPmcs := deltas },
    ?_, ?_, long.trans counted⟩
  · rw [mergePoint, bind_of_eq_ok (itemAt_eq_ok present), bind_of_eq_ok (raiseIf_eq_ok ?_),
      bind_of_eq_ok merged]
    · rfl
    · rintro ⟨empty, some⟩
      have none : srcTp.deltaPmcs = [] := by
        rw [← List.length_eq_zero_iff, srcCounted, ← counted, empty]
        rfl
      rw [none] at some
      cases some
  · change dstTp.duration + srcTp.duration = _
    rw [takes]

theorem exists_foldlM_mergePoint (paced : Paced clock count points) (span begin : Nat)
    (bound : begin + span < points.length) (dstTp : TimePoint)
    (counted : dstTp.deltaPmcs.length = count) :
    ∃ merged, (List.range' begin span).foldlM (mergePoint points) dstTp = .ok merged ∧
      merged.duration = dstTp.duration + (clock (begin + span) - clock begin) ∧
      merged.deltaPmcs.length = count := by
  induction span generalizing begin dstTp with
  | zero => exact ⟨dstTp, rfl, by rw [Nat.add_zero, sub_self, add_zero], counted⟩
  | succ span ih =>
      obtain ⟨next, first, takes, counted'⟩ := exists_mergePoint paced (show begin + 1 < _ by omega) counted
      obtain ⟨merged, rest, takes', counted''⟩ := ih (begin + 1) (by omega) next counted'
      refine ⟨merged, ?_, ?_, counted''⟩
      · rw [List.range'_succ, List.foldlM_cons, bind_of_eq_ok first, rest]
      · rw [takes', takes, Nat.add_right_comm begin 1 span, Nat.add_assoc begin span 1]
        ring

section Conflation

variable {eventsMap : OrderedDict String Nat} {topdownMetrics : Option TopdownMetrics}

theorem exists_topdownOf (computes : Computes eventsMap topdownMetrics count) {deltas : List Num}
    (counted : deltas = [] ∨ deltas.length = count) :
    ∃ topdownValues, topdownOf eventsMap topdownMetrics deltas = .ok topdownValues := by
  cases topdownMetrics with
  | none => exact ⟨[], rfl⟩
  | some metrics =>
      rw [topdownOf]
      split
      case isTrue => exact ⟨[], rfl⟩
      case isFalse present => exact computes metrics rfl deltas (counted.resolve_left present)

theorem exists_conflateTimepoint (computes : Computes eventsMap topdownMetrics count)
    (paced : Paced clock count points) {begin stop : Nat} (less : begin < stop)
    (bound : stop < points.length) :
    ∃ timepoint, conflateTimepoint eventsMap topdownMetrics points begin stop = .ok timepoint ∧
      timepoint.duration = clock stop - clock begin ∧ timepoint.deltaPmcs.length = count := by
  obtain ⟨srcTp, present, takes, counted⟩ := paced.steps begin (by omega)
  obtain ⟨merged, folded, takes', counted'⟩ :=
    exists_foldlM_mergePoint paced (stop - (begin + 1)) (begin + 1) (by omega)
      ⟨srcTp.name, srcTp.point, srcTp.duration, srcTp.pmcNames, srcTp.deltaPmcs, [], none⟩ counted
  obtain ⟨topdownValues, computed⟩ := exists_topdownOf computes (Or.inr counted')
  refine ⟨{ merged with topdownValues := topdownValues }, ?_, ?_, counted'⟩
  · rw [conflateTimepoint, bind_of_eq_ok (itemAt_eq_ok present)]
    refine (bind_of_eq_ok folded _).trans ?_
    rw [bind_of_eq_ok computed]
    rfl
  · have upTo : begin + 1 + (stop - (begin + 1)) = stop := by omega
    change merged.duration = _
    rw [takes', takes, upTo]
    ring

theorem exists_conflateTimepoint_last (computes : Computes eventsMap topdownMetrics count)
    (paced : Paced clock count points) {begin : Nat} (bound : begin < points.length) :
    ∃ timepoint,
      conflateTimepoint eventsMap topdownMetrics points begin (begin + 1) = .ok timepoint ∧
      (timepoint.deltaPmcs = [] ∨ timepoint.deltaPmcs.length = count) := by
  have present := List.getElem?_eq_getElem bound
  have counted := paced.counted _ (List.getElem_mem bound)
  obtain ⟨topdownValues, computed⟩ := exists_topdownOf computes counted
  refine ⟨⟨points[begin].name, points[begin].point, points[begin].duration,
    points[begin].pmcNames, points[begin].deltaPmcs, topdownValues, none⟩, ?_, counted⟩
  rw [conflateTimepoint, bind_of_eq_ok (itemAt_eq_ok present), Nat.sub_self]
  exact bind_of_eq_ok computed _

def clockAt (clock : Nat → ℚ) (indices : List Nat) (k : Nat) : ℚ := clock (indices.getD k 0)

theorem exists_conflateTimepoints (computes : Computes eventsMap topdownMetrics count)
    (paced : Paced clock count points) {indices : List Nat} (increasing : indices.Pairwise (· < ·))
    (bound : ∀ index ∈ indices, index < points.length) :
    ∃ conflated, conflateTimepoints eventsMap topdownMetrics points indices = .ok conflated ∧
      conflated.length = indices.length ∧ Paced (clockAt clock indices) count conflated := by
  induction indices with
  | nil => exact ⟨[], rfl, rfl, fun _ less => absurd less (Nat.not_lt_zero _),
      fun _ listed => absurd listed List.not_mem_nil⟩
  | cons begin rest ih =>
      cases rest with
      | nil =>
          obtain ⟨timepoint, made, counted⟩ :=
            exists_conflateTimepoint_last computes paced (bound begin List.mem_cons_self)
          refine ⟨[timepoint], ?_, rfl, ?_, ?_⟩
          · rw [conflateTimepoints, bind_of_eq_ok made]
            rfl
          · intro j less
            exact absurd less (Nat.not_lt.mpr (Nat.le_add_left 1 j))
          · intro other listed
            rw [List.mem_singleton.mp listed]
            exact counted
      | cons next rest =>
          obtain ⟨before, increasing'⟩ := List.pairwise_cons.mp increasing
          obtain ⟨conflated, others, long, paced'⟩ :=
            ih increasing' fun index listed => bound index (List.mem_cons_of_mem begin listed)
          obtain ⟨timepoint, made, takes, counted⟩ := exists_conflateTimepoint computes paced
            (before next List.mem_cons_self) (bound next (by simp))
          refine ⟨timepoint :: conflated, ?_, congrArg Nat.succ long, ?_, ?_⟩
          · rw [conflateTimepoints, bind_of_eq_ok made, bind_of_eq_ok others]
            rfl
          · intro j less
            cases j with
            | zero => exact ⟨timepoint, rfl, takes, counted⟩
            | succ j => exact paced'.steps j (Nat.lt_of_succ_lt_succ less)
          · intro other listed
            rcases List.mem_cons.mp listed with rfl | later
            · exact Or.inr counted
            · exact paced'.counted other later

/-- The endpoint is conflated from all points but the last, so it takes the time from the
first reading to the last one. -/
theorem exists_conflateTimeline (computes : Computes eventsMap topdownMetrics count)
    {srcTl : Timeline} (paced : Paced clock count srcTl.points) (started : srcTl.txn.counters ≠ [])
    {indices : List Nat} (increasing : indices.Pairwise (· < ·))
    (bound : ∀ index ∈ indices, index < srcTl.points.length) (long : 2 ≤ indices.length) :
    ∃ conflated, conflateTimeline eventsMap topdownMetrics srcTl indices = .ok conflated ∧
      conflated.points.length = indices.length ∧
      Paced (clockAt clock indices) count conflated.points ∧
      conflated.endpoint.duration =
        clockAt clock indices (indices.length - 1) - clockAt clock indices 0 := by
  obtain ⟨points, conflated, same, paced'⟩ :=
    exists_conflateTimepoints computes paced increasing bound
  have ends : [0, points.length - 1].Pairwise (· < ·) := by
    refine List.pairwise_pair.mpr ?_
    omega
  have within : ∀ index ∈ [0, points.length - 1], index < points.length := by
    intro index listed
    rcases List.mem_pair.mp listed with rfl | rfl <;> omega
  obtain ⟨merged, conflated', same', paced''⟩ :=
    exists_conflateTimepoints computes paced' ends within
  obtain ⟨endpoint, present, takes, -⟩ := paced''.steps 0 (same' ▸ Nat.one_lt_two)
  obtain ⟨first, counters, listed⟩ := List.exists_cons_of_ne_nil started
  refine ⟨⟨srcTl.txn, first.tsc, srcTl.txn.txnId, points, endpoint, srcTl.inception⟩, ?_, same,
    paced', ?_⟩
  · have begins : itemAt srcTl.txn.counters 0 = .ok first := by rw [listed]; rfl
    rw [conflateTimeline, bind_of_eq_ok begins, bind_of_eq_ok conflated, bind_of_eq_ok conflated',
      bind_of_eq_ok (itemAt_eq_ok present)]
    rfl
  · rw [← same]
    exact takes

end Conflation

end Xpedite.Timelines
