import Xpedite.Lib.Greedy
import Xpedite.Timelines.TimelineCore

/-! `conflateRoutes` looks for the points of a route greedily, from the end of the other one. -/

namespace Xpedite.Timelines

open Xpedite.Lib

theorem conflateLoop_eq (srcLength : Nat) {dst : List (Option String)} (source : List (Option String))
    {remaining : Nat} (bound : remaining ≤ dst.length) (i : Nat) (indices : List Nat) :
    conflateLoop srcLength dst (source.zipIdx i) remaining indices =
      indices ++ (greedy (dst.take remaining).reverse source).map
        fun position => srcLength - (i + position + 1) := by
  induction source generalizing remaining i indices with
  | nil => simp [conflateLoop]
  | cons point source ih =>
      cases remaining with
      | zero => simp [conflateLoop, greedy]
      | succ probeIndex =>
          have shifted : (fun position => srcLength - (i + 1 + position + 1)) =
              (fun position => srcLength - (i + position + 1)) ∘ (· + 1) := by
            funext position
            rw [Function.comp_apply]
            congr 1
            omega
          have next : (dst.take (probeIndex + 1)).reverse =
              dst[probeIndex] :: (dst.take probeIndex).reverse := by
            rw [List.take_succ_eq_append_getElem bound, List.reverse_append]
            rfl
          rw [List.zipIdx_cons, conflateLoop, next, greedy, List.getElem?_eq_getElem bound]
          by_cases met : dst[probeIndex] = point
          · rw [if_pos (congrArg some met), if_pos met, ih (Nat.le_of_succ_le bound), shifted,
              List.append_assoc, List.map_cons, List.map_map]
            rfl
          · rw [if_neg fun same => met (Option.some.inj same), if_neg met, ih bound, shifted,
              List.map_map, next]

theorem conflateRoutes_eq (srcRoute dstRoute : Route) :
    conflateRoutes srcRoute dstRoute =
      if (greedy dstRoute.points.reverse srcRoute.points.reverse).length =
          dstRoute.points.reverse.length then
        some ((greedy dstRoute.points.reverse srcRoute.points.reverse).map fun index =>
          srcRoute.points.length - (index + 1)).reverse
      else none := by
  have indices := conflateLoop_eq srcRoute.length srcRoute.points.reverse
    (Nat.le_refl dstRoute.points.length) 0 []
  simp only [List.nil_append, List.take_length, Nat.zero_add] at indices
  rw [conflateRoutes, Route.length, Route.length] at *
  simp only [indices, List.length_map, List.length_reverse, eq_comm]

theorem conflateRoutes_of_sublist {srcRoute dstRoute : Route}
    (within : dstRoute.points.Sublist srcRoute.points) :
    ∃ indices, conflateRoutes srcRoute dstRoute = some indices ∧
      Latest srcRoute.points dstRoute.points indices := by
  refine ⟨_, ?_, latest_greedy_reverse within⟩
  rw [conflateRoutes_eq, if_pos (greedy_embeds within.reverse).length_eq]

theorem sublist_of_conflateRoutes {srcRoute dstRoute : Route} {indices : List Nat}
    (conflated : conflateRoutes srcRoute dstRoute = some indices) :
    dstRoute.points.Sublist srcRoute.points := by
  rw [conflateRoutes_eq] at conflated
  split at conflated
  case isTrue all => exact List.reverse_sublist.mp (sublist_of_length_greedy all)
  case isFalse => cases conflated

theorem conflateRoutes_eq_some_iff {srcRoute dstRoute : Route} {indices : List Nat} :
    conflateRoutes srcRoute dstRoute = some indices ↔
      Latest srcRoute.points dstRoute.points indices := by
  constructor
  · intro conflated
    obtain ⟨found, conflated', latest⟩ :=
      conflateRoutes_of_sublist (sublist_of_conflateRoutes conflated)
    rw [conflated] at conflated'
    rw [Option.some.inj conflated']
    exact latest
  · intro latest
    obtain ⟨found, conflated, latest'⟩ := conflateRoutes_of_sublist latest.sublist
    rw [conflated, latest.unique latest']

theorem conflateRoutes_embeds {srcRoute dstRoute : Route}
    (within : dstRoute.points.Sublist srcRoute.points) :
    ∃ indices, conflateRoutes srcRoute dstRoute = some indices ∧
      Embeds srcRoute.points dstRoute.points indices := by
  obtain ⟨indices, conflated, latest⟩ := conflateRoutes_of_sublist within
  exact ⟨indices, conflated, latest.toEmbeds⟩

/--
Conflation succeeds exactly for a route whose points are a subsequence, and then gives one
index for each of its points, the greatest ones that lead to these points in order.
-/
theorem conflateRoutes_finds_subsequence (srcRoute dstRoute : Route) :
    ((∃ indices, conflateRoutes srcRoute dstRoute = some indices) ↔
        dstRoute.points.Sublist srcRoute.points) ∧
      (conflateRoutes srcRoute dstRoute = none ↔
        ¬dstRoute.points.Sublist srcRoute.points) ∧
      ∀ indices, conflateRoutes srcRoute dstRoute = some indices ↔
        indices.length = dstRoute.points.length ∧ indices.Pairwise (· < ·) ∧
          indices.map (fun index => srcRoute.points[index]?) = dstRoute.points.map some ∧
          ∀ others, Embeds srcRoute.points dstRoute.points others →
            List.Forall₂ (· ≤ ·) others indices := by
  have found : (∃ indices, conflateRoutes srcRoute dstRoute = some indices) ↔
      dstRoute.points.Sublist srcRoute.points := by
    constructor
    · rintro ⟨indices, conflated⟩
      exact sublist_of_conflateRoutes conflated
    · intro within
      obtain ⟨indices, conflated, -⟩ := conflateRoutes_of_sublist within
      exact ⟨indices, conflated⟩
  refine ⟨found, ?_, fun indices => ?_⟩
  · rw [← found, Option.eq_none_iff_forall_ne_some, not_exists]
  · rw [conflateRoutes_eq_some_iff]
    constructor
    · intro latest
      exact ⟨latest.length_eq, latest.increasing, latest.entries, latest.latest⟩
    · rintro ⟨-, increasing, entries, latest⟩
      exact ⟨⟨increasing, entries⟩, latest⟩

end Xpedite.Timelines
