import Xpedite.Timelines.Offsets

/-!
Event deltas of conflated time points.  Between samples of two threads there is no delta, and
what a point is merged from may have such gaps; the first one of the merged deltas is the one
that later ones are added to.
-/

namespace Xpedite.Timelines

open Xpedite.Lib

def Num.value? : Num → Option ℚ
  | .num value => some value
  | .nan => none

def countedSum (deltas : List Num) : ℚ := (deltas.filterMap Num.value?).sum

/-- The sum of the deltas that are no gaps, and a gap if there are only gaps. -/
def combined (deltas : List Num) : Option Num :=
  if deltas = [] then none
  else if ∀ delta ∈ deltas, delta = .nan then some .nan
  else some (.num (countedSum deltas))

/-- The rule of `buildTimelineStats` for its endpoints. -/
def totaled (deltas : List Num) : Option Num :=
  if deltas = [] then none else some (.num (countedSum deltas))

def deltasAt (points : List TimePoint) (k : Nat) : List Num :=
  points.filterMap fun timepoint => timepoint.deltaPmcs[k]?

def pointsAt (points : List TimePoint) (indices : List Nat) : List TimePoint :=
  indices.filterMap fun index => points[index]?

/-- The indices of the points that each conflated point is merged from. -/
def groupsOf : List Nat → List (List Nat)
  | [] => []
  | [begin] => [[begin]]
  | begin :: next :: rest =>
      (begin :: List.range' (begin + 1) (next - (begin + 1))) :: groupsOf (next :: rest)

/-- The endpoint leaves out the last conflated point unless there is only one. -/
def endpointGroups (indices : List Nat) : List (List Nat) :=
  (groupsOf indices).take (max 1 (indices.length - 1))

/-- The deltas of all conflated points and of the endpoint skip the gaps. -/
structure SkipsGaps (points : List TimePoint) (indices : List Nat) (conflated : Timeline) : Prop where
  merges : List.Forall₂ (fun group timepoint =>
      ∀ k : Nat, timepoint.deltaPmcs[k]? = combined (deltasAt (pointsAt points group) k))
    (groupsOf indices) conflated.points
  endpoint : ∀ k : Nat, conflated.endpoint.deltaPmcs[k]? =
    totaled (deltasAt (pointsAt points (endpointGroups indices).flatten) k)

section Merging

def mergeDelta (total delta : Num) : Num := if delta.isNan then total else total.add delta

def merged : List Num → Option Num
  | [] => none
  | first :: rest => some (rest.foldl mergeDelta first)

theorem foldl_mergeDelta_nan (deltas : List Num) : deltas.foldl mergeDelta .nan = .nan := by
  induction deltas with
  | nil => rfl
  | cons delta deltas ih =>
      cases delta with
      | num value => exact ih
      | nan => exact ih

theorem countedSum_cons (delta : Num) (deltas : List Num) :
    countedSum (delta :: deltas) = (delta.value?.getD 0) + countedSum deltas := by
  cases delta with
  | num value =>
      have kept : Num.value? (.num value) = some value := rfl
      rw [countedSum, List.filterMap_cons_some kept, List.sum_cons]
      rfl
  | nan =>
      have skipped : Num.value? .nan = none := rfl
      rw [countedSum, List.filterMap_cons_none skipped]
      exact (zero_add _).symm

theorem countedSum_append (front back : List Num) :
    countedSum (front ++ back) = countedSum front + countedSum back := by
  rw [countedSum, List.filterMap_append, List.sum_append, countedSum, countedSum]

theorem foldl_mergeDelta_num (value : ℚ) (deltas : List Num) :
    deltas.foldl mergeDelta (.num value) = .num (value + countedSum deltas) := by
  induction deltas generalizing value with
  | nil => simp [countedSum]
  | cons delta deltas ih =>
      rw [List.foldl_cons, countedSum_cons]
      cases delta with
      | num more =>
          have step : mergeDelta (.num value) (.num more) = .num (value + more) := rfl
          rw [step, ih, Num.value?, Option.getD_some, add_assoc]
      | nan =>
          have step : mergeDelta (.num value) .nan = .num value := rfl
          rw [step, ih, Num.value?, Option.getD_none, zero_add]

theorem countedSum_of_nan {deltas : List Num} (gaps : ∀ delta ∈ deltas, delta = .nan) :
    countedSum deltas = 0 := by
  induction deltas with
  | nil => rfl
  | cons delta deltas ih =>
      rw [countedSum_cons, gaps delta List.mem_cons_self,
        ih fun other listed => gaps other (List.mem_cons_of_mem delta listed)]
      exact zero_add 0

/-- The merge skips the gaps unless it starts with one and does not end with it. -/
theorem merged_eq_combined_iff (deltas : List Num) :
    merged deltas = combined deltas ↔
      (deltas.head? = some .nan → ∀ delta ∈ deltas, delta = .nan) := by
  cases deltas with
  | nil => simp [merged, combined]
  | cons first rest =>
      rw [merged, combined, if_neg (List.cons_ne_nil first rest)]
      cases first with
      | num value =>
          have some_ : ¬∀ delta ∈ Num.num value :: rest, delta = .nan := by
            intro gaps
            cases gaps (.num value) List.mem_cons_self
          rw [foldl_mergeDelta_num, if_neg some_, countedSum_cons]
          refine iff_of_true rfl ?_
          intro start
          cases start
      | nan =>
          rw [foldl_mergeDelta_nan]
          split
          case isTrue gaps => exact iff_of_true rfl fun _ => gaps
          case isFalse some_ =>
              refine iff_of_false ?_ fun gaps => some_ (gaps rfl)
              intro same
              cases same

/-- Merging what was merged gives the total, unless it starts with a gap. -/
theorem merged_combined_iff {groups : List (List Num)}
    (skips : ∀ deltas ∈ groups, deltas.head? = some .nan → ∀ delta ∈ deltas, delta = .nan) :
    merged (groups.filterMap combined) = totaled groups.flatten ↔
      groups.flatten.head? ≠ some .nan := by
  have sums : ∀ groups : List (List Num), countedSum (groups.filterMap combined) =
      countedSum groups.flatten := by
    intro groups
    induction groups with
    | nil => rfl
    | cons deltas groups ih =>
        rw [List.flatten_cons, countedSum_append, ← ih, List.filterMap_cons, combined]
        split
        case h_1 none =>
            split at none
            case isTrue empty =>
                rw [empty]
                exact (zero_add _).symm
            case isFalse =>
                split at none
                case isTrue => cases none
                case isFalse => cases none
        case h_2 delta some =>
            rw [countedSum_cons]
            congr 1
            split at some
            case isTrue => cases some
            case isFalse =>
                split at some
                case isTrue gaps =>
                    cases some
                    exact (countedSum_of_nan gaps).symm
                case isFalse =>
                    cases some
                    rfl
  induction groups with
  | nil => simp [merged, totaled]
  | cons deltas groups ih =>
      cases deltas with
      | nil =>
          have empty : combined [] = none := rfl
          rw [List.filterMap_cons_none empty, List.flatten_cons, List.nil_append]
          exact ih fun other listed => skips other (List.mem_cons_of_mem [] listed)
      | cons first rest =>
          have own := (merged_eq_combined_iff (first :: rest)).mpr
            (skips (first :: rest) List.mem_cons_self)
          have solid : totaled ((first :: rest) :: groups).flatten =
              some (.num (countedSum ((first :: rest) :: groups).flatten)) :=
            if_neg (List.cons_ne_nil first _)
          rw [List.filterMap_cons_some own.symm, merged, solid, List.flatten_cons, List.cons_append,
            List.head?_cons]
          cases first with
          | nan =>
              rw [foldl_mergeDelta_nan, foldl_mergeDelta_nan]
              refine iff_of_false ?_ fun other => other rfl
              intro same
              cases same
          | num value =>
              rw [foldl_mergeDelta_num, foldl_mergeDelta_num, sums]
              refine iff_of_true ?_ ?_
              · rw [← List.cons_append, countedSum_append, countedSum_cons]
                rfl
              · intro same
                cases same

end Merging

section Conflation

variable {eventsMap : OrderedDict String Nat} {topdownMetrics : Option TopdownMetrics} {count : Nat}
  {points : List TimePoint}

theorem deltasAt_cons (timepoint : TimePoint) (rest : List TimePoint) (k : Nat) :
    deltasAt (timepoint :: rest) k = timepoint.deltaPmcs[k]?.toList ++ deltasAt rest k := by
  rw [deltasAt, List.filterMap_cons]
  cases timepoint.deltaPmcs[k]? with
  | none => rfl
  | some delta => rfl

theorem deltasAt_append (front back : List TimePoint) (k : Nat) :
    deltasAt (front ++ back) k = deltasAt front k ++ deltasAt back k :=
  List.filterMap_append

theorem pointsAt_cons {index : Nat} {timepoint : TimePoint} (rest : List Nat)
    (present : points[index]? = some timepoint) :
    pointsAt points (index :: rest) = timepoint :: pointsAt points rest :=
  List.filterMap_cons_some present

theorem pointsAt_range {length : Nat} (within : length ≤ points.length) :
    pointsAt points (List.range length) = points.take length := by
  induction length with
  | zero => rfl
  | succ length ih =>
      rw [List.range_succ, pointsAt, List.filterMap_append, List.take_add_one,
        ← ih (Nat.le_of_succ_le within)]
      rfl

theorem deltasAt_of_le
    (counted : ∀ timepoint ∈ points,
      timepoint.deltaPmcs = [] ∨ timepoint.deltaPmcs.length = count)
    {k : Nat} (past : count ≤ k) (indices : List Nat) : deltasAt (pointsAt points indices) k = [] := by
  rw [deltasAt, List.filterMap_eq_nil_iff]
  intro timepoint listed
  obtain ⟨index, -, present⟩ := List.mem_filterMap.mp listed
  apply List.getElem?_eq_none
  rcases counted timepoint (List.mem_of_getElem? present) with none | full
  · rw [none]
    exact Nat.zero_le k
  · rwa [full]

theorem mergeDeltas_getElem? {dst src all : List Num} (fits : src = [] ∨ src.length = dst.length)
    (done : mergeDeltas dst src = .ok all) (k : Nat) :
    all[k]? = dst[k]?.map fun total => src[k]?.toList.foldl mergeDelta total := by
  induction dst generalizing src all k with
  | nil =>
      cases src with
      | nil =>
          cases done
          rfl
      | cons delta src => exact (fits.elim (nomatch ·) (nomatch ·))
  | cons total dst ih =>
      cases src with
      | nil =>
          cases done
          simp
      | cons delta src =>
          obtain ⟨rest, later, done⟩ := bind_eq_ok done
          cases done
          have fits' : src.length = dst.length :=
            Nat.succ.inj (fits.resolve_left (List.cons_ne_nil delta src))
          cases k with
          | zero => rfl
          | succ k => exact ih (.inr fits') later k

theorem exists_mergePoint_counted {dstTp srcTp : TimePoint} {j : Nat}
    (present : points[j]? = some srcTp) (into : dstTp.deltaPmcs.length = count)
    (counted : srcTp.deltaPmcs = [] ∨ srcTp.deltaPmcs.length = count) :
    ∃ next, mergePoint points dstTp j = .ok next ∧ next.deltaPmcs.length = count ∧
      ∀ k : Nat, next.deltaPmcs[k]? = dstTp.deltaPmcs[k]?.map fun total =>
        srcTp.deltaPmcs[k]?.toList.foldl mergeDelta total := by
  have fits : srcTp.deltaPmcs = [] ∨ srcTp.deltaPmcs.length = dstTp.deltaPmcs.length :=
    counted.imp_right fun same => same.trans into.symm
  obtain ⟨deltas, done, long⟩ : ∃ deltas,
      mergeDeltas dstTp.deltaPmcs srcTp.deltaPmcs = .ok deltas ∧ deltas.length = count := by
    rcases fits with none | same
    · rw [none]
      refine ⟨dstTp.deltaPmcs, ?_, into⟩
      cases dstTp.deltaPmcs with
      | nil => rfl
      | cons total dst => rfl
    · obtain ⟨deltas, done, long⟩ := exists_mergeDeltas same.symm
      exact ⟨deltas, done, long.trans into⟩
  refine ⟨{ dstTp with duration := dstTp.duration + srcTp.duration, deltaPmcs := deltas }, ?_, long,
    mergeDeltas_getElem? fits done⟩
  rw [mergePoint, bind_of_eq_ok (itemAt_eq_ok present), bind_of_eq_ok (raiseIf_eq_ok ?_),
    bind_of_eq_ok done]
  · rfl
  · rintro ⟨empty, some⟩
    have none : srcTp.deltaPmcs = [] := by
      rcases fits with none | same
      · exact none
      · rw [empty] at same
        exact List.length_eq_zero_iff.mp same
    rw [none] at some
    cases some

theorem exists_foldlM_mergePoint_counted
    (counted : ∀ timepoint ∈ points,
      timepoint.deltaPmcs = [] ∨ timepoint.deltaPmcs.length = count)
    {indices : List Nat} (bound : ∀ index ∈ indices, index < points.length) {dstTp : TimePoint}
    (into : dstTp.deltaPmcs.length = count) :
    ∃ next, indices.foldlM (mergePoint points) dstTp = .ok next ∧ next.deltaPmcs.length = count ∧
      ∀ k : Nat, next.deltaPmcs[k]? = dstTp.deltaPmcs[k]?.map fun total =>
        (deltasAt (pointsAt points indices) k).foldl mergeDelta total := by
  induction indices generalizing dstTp with
  | nil =>
      refine ⟨dstTp, rfl, into, fun k => ?_⟩
      exact Option.map_id'.symm
  | cons index indices ih =>
      have inside := bound index List.mem_cons_self
      have present := List.getElem?_eq_getElem inside
      obtain ⟨middle, first, into', step⟩ := exists_mergePoint_counted present into
        (counted _ (List.getElem_mem inside))
      obtain ⟨next, rest, long, steps⟩ :=
        ih (fun other listed => bound other (List.mem_cons_of_mem index listed)) into'
      refine ⟨next, ?_, long, fun k => ?_⟩
      · rw [List.foldlM_cons, bind_of_eq_ok first, rest]
      · rw [steps, step, Option.map_map, pointsAt_cons indices present, deltasAt_cons]
        refine congrArg (Option.map · _) (funext fun total => ?_)
        exact List.foldl_append.symm

theorem exists_conflateTimepoint_counted (computes : Computes eventsMap topdownMetrics count)
    (counted : ∀ timepoint ∈ points,
      timepoint.deltaPmcs = [] ∨ timepoint.deltaPmcs.length = count)
    {begin stop : Nat} (bound : ∀ index ∈ begin :: List.range' (begin + 1) (stop - (begin + 1)),
      index < points.length)
    (sampled : stop ≤ begin + 1 ∨
      ∀ timepoint ∈ points[begin]?, timepoint.deltaPmcs.length = count) :
    ∃ timepoint, conflateTimepoint eventsMap topdownMetrics points begin stop = .ok timepoint ∧
      (timepoint.deltaPmcs = [] ∨ timepoint.deltaPmcs.length = count) ∧
      ((∀ srcTp ∈ points[begin]?, srcTp.deltaPmcs.length = count) →
        timepoint.deltaPmcs.length = count) ∧
      ∀ k : Nat, timepoint.deltaPmcs[k]? = merged (deltasAt
        (pointsAt points (begin :: List.range' (begin + 1) (stop - (begin + 1)))) k) := by
  have inside := bound begin List.mem_cons_self
  have present := List.getElem?_eq_getElem inside
  have rest : ∀ index ∈ List.range' (begin + 1) (stop - (begin + 1)), index < points.length :=
    fun index listed => bound index (List.mem_cons_of_mem begin listed)
  have own := counted _ (List.getElem_mem inside)
  let dstTp : TimePoint := ⟨points[begin].name, points[begin].point, points[begin].duration,
    points[begin].pmcNames, points[begin].deltaPmcs, [], none⟩
  obtain ⟨next, folded, long, full, deltas⟩ : ∃ next,
      (List.range' (begin + 1) (stop - (begin + 1))).foldlM (mergePoint points) dstTp = .ok next ∧
      (next.deltaPmcs = [] ∨ next.deltaPmcs.length = count) ∧
      ((∀ srcTp ∈ points[begin]?, srcTp.deltaPmcs.length = count) → next.deltaPmcs.length = count) ∧
      ∀ k : Nat, next.deltaPmcs[k]? = merged (points[begin].deltaPmcs[k]?.toList ++
        deltasAt (pointsAt points (List.range' (begin + 1) (stop - (begin + 1)))) k) := by
    rcases sampled with single | sampled
    · have none : stop - (begin + 1) = 0 := by omega
      rw [none, List.range'_zero]
      refine ⟨dstTp, rfl, own, fun full => full points[begin] present, fun k => ?_⟩
      change points[begin].deltaPmcs[k]? = merged (points[begin].deltaPmcs[k]?.toList ++ [])
      cases points[begin].deltaPmcs[k]? with
      | none => rfl
      | some delta => rfl
    · have full := sampled points[begin] present
      obtain ⟨next, folded, long, deltas⟩ :=
        exists_foldlM_mergePoint_counted counted rest (show dstTp.deltaPmcs.length = count from full)
      refine ⟨next, folded, .inr long, fun _ => long, fun k => (deltas k).trans ?_⟩
      change points[begin].deltaPmcs[k]?.map _ = _
      cases delta : points[begin].deltaPmcs[k]? with
      | some first => rfl
      | none =>
          have past : count ≤ k := full ▸ List.getElem?_eq_none_iff.mp delta
          rw [deltasAt_of_le counted past]
          rfl
  obtain ⟨topdownValues, computed⟩ := exists_topdownOf computes long
  refine ⟨{ next with topdownValues := topdownValues }, ?_, long, full, fun k => ?_⟩
  · rw [conflateTimepoint, bind_of_eq_ok (itemAt_eq_ok present)]
    refine (bind_of_eq_ok folded _).trans ?_
    rw [bind_of_eq_ok computed]
    rfl
  · rw [pointsAt_cons _ present, deltasAt_cons]
    exact deltas k

theorem exists_conflateTimepoints_counted (computes : Computes eventsMap topdownMetrics count)
    (counted : ∀ timepoint ∈ points,
      timepoint.deltaPmcs = [] ∨ timepoint.deltaPmcs.length = count)
    {indices : List Nat} (bound : ∀ index ∈ indices, index < points.length)
    (sampled : ∀ index ∈ indices.dropLast, ∀ timepoint ∈ points[index]?,
      timepoint.deltaPmcs.length = count) :
    ∃ conflated, conflateTimepoints eventsMap topdownMetrics points indices = .ok conflated ∧
      List.Forall₂ (fun group timepoint =>
        ∀ k : Nat, timepoint.deltaPmcs[k]? = merged (deltasAt (pointsAt points group) k))
        (groupsOf indices) conflated ∧
      conflated.length = indices.length ∧
      (∀ timepoint ∈ conflated, timepoint.deltaPmcs = [] ∨ timepoint.deltaPmcs.length = count) ∧
      ∀ timepoint ∈ conflated.dropLast, timepoint.deltaPmcs.length = count := by
  induction indices with
  | nil =>
      exact ⟨[], rfl, .nil, rfl, fun _ listed => absurd listed List.not_mem_nil,
        fun _ listed => absurd listed List.not_mem_nil⟩
  | cons begin rest ih =>
      cases rest with
      | nil =>
          have single : List.range' (begin + 1) (begin + 1 - (begin + 1)) = [] := by
            rw [Nat.sub_self, List.range'_zero]
          have inside : ∀ index ∈ begin :: List.range' (begin + 1) (begin + 1 - (begin + 1)),
              index < points.length := by
            rw [single]
            exact bound
          obtain ⟨timepoint, made, long, -, deltas⟩ := exists_conflateTimepoint_counted computes
            counted inside (.inl (Nat.le_refl _))
          rw [single] at deltas
          refine ⟨[timepoint], ?_, .cons deltas .nil, rfl, ?_,
            fun _ listed => absurd listed List.not_mem_nil⟩
          · rw [conflateTimepoints, bind_of_eq_ok made]
            rfl
          · intro other listed
            rw [List.mem_singleton.mp listed]
            exact long
      | cons next rest =>
          have full : ∀ timepoint ∈ points[begin]?, timepoint.deltaPmcs.length = count :=
            sampled begin List.mem_cons_self
          have inside : ∀ index ∈ begin :: List.range' (begin + 1) (next - (begin + 1)),
              index < points.length := by
            intro index listed
            rcases List.mem_cons.mp listed with rfl | between
            · exact bound index List.mem_cons_self
            · have stop := bound next (List.mem_cons_of_mem begin List.mem_cons_self)
              rw [List.mem_range'_1] at between
              omega
          obtain ⟨timepoint, made, long, all, deltas⟩ :=
            exists_conflateTimepoint_counted computes counted inside (.inr full)
          obtain ⟨conflated, others, merges, size, counts, fulls⟩ :=
            ih (fun index listed => bound index (List.mem_cons_of_mem begin listed))
              fun index listed => sampled index (List.mem_cons_of_mem begin listed)
          refine ⟨timepoint :: conflated, ?_, .cons deltas merges, congrArg Nat.succ size, ?_, ?_⟩
          · rw [conflateTimepoints, bind_of_eq_ok made, bind_of_eq_ok others]
            rfl
          · intro other listed
            rcases List.mem_cons.mp listed with rfl | later
            · exact long
            · exact counts other later
          · cases conflated with
            | nil => cases size
            | cons second conflated =>
                intro other listed
                rw [List.dropLast_cons_cons] at listed
                rcases List.mem_cons.mp listed with rfl | later
                · exact all full
                · exact fulls other later

theorem exists_endpoint_counted (computes : Computes eventsMap topdownMetrics count)
    {conflated : List TimePoint} (some_ : conflated ≠ [])
    (counted : ∀ timepoint ∈ conflated,
      timepoint.deltaPmcs = [] ∨ timepoint.deltaPmcs.length = count)
    (full : ∀ timepoint ∈ conflated.dropLast, timepoint.deltaPmcs.length = count) :
    ∃ endpoint ends,
      conflateTimepoints eventsMap topdownMetrics conflated [0, conflated.length - 1] = .ok ends ∧
      itemAt ends 0 = .ok endpoint ∧
      ∀ k : Nat, endpoint.deltaPmcs[k]? =
        merged (deltasAt (conflated.take (max 1 (conflated.length - 1))) k) := by
  have long := List.length_pos_iff.mpr some_
  have covers : pointsAt conflated (0 :: List.range' (0 + 1) (conflated.length - 1 - (0 + 1))) =
      conflated.take (max 1 (conflated.length - 1)) := by
    have whole : 0 :: List.range' (0 + 1) (conflated.length - 1 - (0 + 1)) =
        List.range (max 1 (conflated.length - 1)) := by
      have size : max 1 (conflated.length - 1) = conflated.length - 1 - (0 + 1) + 1 := by omega
      rw [size, List.range_eq_range', List.range'_succ]
    rw [whole]
    exact pointsAt_range (by omega)
  have inside : ∀ index ∈ 0 :: List.range' (0 + 1) (conflated.length - 1 - (0 + 1)),
      index < conflated.length := by
    intro index listed
    rcases List.mem_cons.mp listed with rfl | between
    · exact long
    · rw [List.mem_range'_1] at between
      omega
  have sampled : conflated.length - 1 ≤ 0 + 1 ∨
      ∀ timepoint ∈ conflated[0]?, timepoint.deltaPmcs.length = count := by
    cases conflated with
    | nil => exact absurd rfl some_
    | cons first rest =>
        cases rest with
        | nil => exact .inl (Nat.zero_le _)
        | cons second rest =>
            refine .inr fun timepoint present => full timepoint ?_
            cases present
            exact List.mem_cons_self
  obtain ⟨endpoint, made, -, -, deltas⟩ :=
    exists_conflateTimepoint_counted computes counted inside sampled
  have single : List.range' (conflated.length - 1 + 1)
      (conflated.length - 1 + 1 - (conflated.length - 1 + 1)) = [] := by
    rw [Nat.sub_self, List.range'_zero]
  have lastInside : ∀ index ∈ (conflated.length - 1) :: List.range' (conflated.length - 1 + 1)
      (conflated.length - 1 + 1 - (conflated.length - 1 + 1)), index < conflated.length := by
    rw [single]
    intro index listed
    rw [List.mem_singleton.mp listed]
    omega
  obtain ⟨last, lastMade, -⟩ :=
    exists_conflateTimepoint_counted computes counted lastInside (.inl (Nat.le_refl _))
  rw [covers] at deltas
  refine ⟨endpoint, [endpoint, last], ?_, rfl, deltas⟩
  rw [conflateTimepoints, bind_of_eq_ok made, conflateTimepoints, bind_of_eq_ok lastMade]
  rfl

end Conflation

section Lists

variable {α β γ : Type}

theorem filterMap_eq_of_forall₂ {first : α → Option γ} {second : β → Option γ} {front : List α}
    {back : List β} (related : List.Forall₂ (fun element other => second other = first element)
      front back) : back.filterMap second = front.filterMap first := by
  induction related with
  | nil => rfl
  | cons same _ ih => rw [List.filterMap_cons, List.filterMap_cons, same, ih]

theorem forall₂_iff_forall_mem {relation other : α → β → Prop} {property : α → Prop} {front : List α}
    {back : List β} (related : List.Forall₂ relation front back)
    (iff : ∀ element partner, relation element partner → (other element partner ↔ property element)) :
    List.Forall₂ other front back ↔ ∀ element ∈ front, property element := by
  induction related with
  | nil => exact iff_of_true .nil fun _ listed => absurd listed List.not_mem_nil
  | cons same _ ih => rw [List.forall₂_cons, List.forall_mem_cons, ih, iff _ _ same]

end Lists

theorem deltasAt_flatten (points : List TimePoint) (groups : List (List Nat)) (k : Nat) :
    deltasAt (pointsAt points groups.flatten) k =
      (groups.map fun group => deltasAt (pointsAt points group) k).flatten := by
  induction groups with
  | nil => rfl
  | cons group groups ih =>
      rw [List.flatten_cons, pointsAt, List.filterMap_append, deltasAt_append, List.map_cons,
        List.flatten_cons, ← ih]
      rfl

/--
Conflation skips the gaps between threads exactly if, for each event, no group of merged deltas
starts with a gap and goes on with a count, and the deltas of the endpoint do not start with a
gap.
-/
theorem conflateTimeline_skipsGaps_iff {eventsMap : OrderedDict String Nat}
    {topdownMetrics : Option TopdownMetrics} {count : Nat}
    (computes : Computes eventsMap topdownMetrics count) (srcTl : Timeline)
    (started : srcTl.txn.counters ≠ [])
    (counted : ∀ timepoint ∈ srcTl.points,
      timepoint.deltaPmcs = [] ∨ timepoint.deltaPmcs.length = count)
    {indices : List Nat} (given : indices ≠ [])
    (bound : ∀ index ∈ indices, index < srcTl.points.length)
    (sampled : ∀ index ∈ indices.dropLast, ∀ timepoint ∈ srcTl.points[index]?,
      timepoint.deltaPmcs.length = count) :
    ∃ conflated, conflateTimeline eventsMap topdownMetrics srcTl indices = .ok conflated ∧
      (SkipsGaps srcTl.points indices conflated ↔
        (∀ group ∈ groupsOf indices, ∀ k,
          (deltasAt (pointsAt srcTl.points group) k).head? = some .nan →
          ∀ delta ∈ deltasAt (pointsAt srcTl.points group) k, delta = .nan) ∧
        ∀ k, (deltasAt (pointsAt srcTl.points (endpointGroups indices).flatten) k).head? ≠
          some .nan) := by
  obtain ⟨points, conflated, merges, size, counts, fulls⟩ :=
    exists_conflateTimepoints_counted computes counted bound sampled
  have some_ : points ≠ [] := by
    rintro rfl
    exact given (List.length_eq_zero_iff.mp size.symm)
  obtain ⟨endpoint, ends, conflates, first, deltas⟩ :=
    exists_endpoint_counted computes some_ counts fulls
  obtain ⟨begin, counters, listed⟩ := List.exists_cons_of_ne_nil started
  have begins : itemAt srcTl.txn.counters 0 = .ok begin := by rw [listed]; rfl
  refine ⟨⟨srcTl.txn, begin.tsc, srcTl.txn.txnId, points, endpoint, srcTl.inception⟩, ?_, ?_⟩
  · rw [conflateTimeline, bind_of_eq_ok begins, bind_of_eq_ok conflated, bind_of_eq_ok conflates,
      bind_of_eq_ok first]
    rfl
  have groups : List.Forall₂ (fun group timepoint => ∀ k : Nat,
        timepoint.deltaPmcs[k]? = combined (deltasAt (pointsAt srcTl.points group) k))
      (groupsOf indices) points ↔
      ∀ group ∈ groupsOf indices, ∀ k,
        (deltasAt (pointsAt srcTl.points group) k).head? = some .nan →
        ∀ delta ∈ deltasAt (pointsAt srcTl.points group) k, delta = .nan := by
    refine forall₂_iff_forall_mem merges fun group timepoint made => ?_
    apply forall_congr'
    intro k
    rw [made k, merged_eq_combined_iff]
  have ending : (∀ group ∈ groupsOf indices, ∀ k,
        (deltasAt (pointsAt srcTl.points group) k).head? = some .nan →
        ∀ delta ∈ deltasAt (pointsAt srcTl.points group) k, delta = .nan) →
      ∀ k, endpoint.deltaPmcs[k]? =
          totaled (deltasAt (pointsAt srcTl.points (endpointGroups indices).flatten) k) ↔
        (deltasAt (pointsAt srcTl.points (endpointGroups indices).flatten) k).head? ≠ some .nan := by
    intro skips k
    have front : ∀ group ∈ endpointGroups indices, group ∈ groupsOf indices :=
      fun group listed => List.mem_of_mem_take listed
    have collected : deltasAt (points.take (max 1 (points.length - 1))) k =
        ((endpointGroups indices).map fun group => deltasAt (pointsAt srcTl.points group) k).filterMap
          combined := by
      have related := List.forall₂_take (max 1 (points.length - 1)) (groups.mpr skips)
      rw [List.filterMap_map, endpointGroups, ← size]
      exact filterMap_eq_of_forall₂ (related.imp fun _ _ made => made k)
    rw [deltas k, collected, deltasAt_flatten]
    apply merged_combined_iff
    intro deltas listed
    obtain ⟨group, member, rfl⟩ := List.mem_map.mp listed
    exact skips group (front group member) k
  constructor
  · intro skipsGaps
    have skips := groups.mp skipsGaps.merges
    exact ⟨skips, fun k => (ending skips k).mp (skipsGaps.endpoint k)⟩
  · rintro ⟨skips, start⟩
    exact ⟨groups.mpr skips, fun k => (ending skips k).mpr (start k)⟩

section Sample

def threadCounter (threadId : String) (tsc : Nat) (pmc : Int) : Counter :=
  ⟨threadId, namedProbe "relay" (by decide), "", tsc, [pmc]⟩

def relayTxn : Transaction :=
  transactionOf [threadCounter "1" 10 100, threadCounter "2" 15 7, threadCounter "2" 40 12]

def relayStats : Except Failure TimelineStats :=
  buildTimelineStats relayTxn.route relayTxn.route.probes
    (collectionOf [relayTxn] [⟨"instructions", "INST_RETIRED.ANY"⟩]) "relay"

theorem conflateTimeline_skipsGaps_iff_relay :
    ∃ stats srcTl conflated, relayStats = .ok stats ∧ srcTl ∈ stats.timelineCollection ∧
      conflateTimeline [] none srcTl [1, 2] = .ok conflated ∧
      (SkipsGaps srcTl.points [1, 2] conflated ↔
        (∀ group ∈ groupsOf [1, 2], ∀ k,
          (deltasAt (pointsAt srcTl.points group) k).head? = some .nan →
          ∀ delta ∈ deltasAt (pointsAt srcTl.points group) k, delta = .nan) ∧
        ∀ k, (deltasAt (pointsAt srcTl.points (endpointGroups [1, 2]).flatten) k).head? ≠
          some .nan) := by
  obtain ⟨stats, built⟩ : ∃ stats, relayStats = .ok stats := ⟨_, rfl⟩
  obtain ⟨srcTl, listed, txn, counted, bound, sampled⟩ : ∃ srcTl ∈ stats.timelineCollection,
      srcTl.txn = relayTxn ∧
      (∀ timepoint ∈ srcTl.points,
        timepoint.deltaPmcs = [] ∨ timepoint.deltaPmcs.length = 1) ∧
      (∀ index ∈ [1, 2], index < srcTl.points.length) ∧
      ∀ index ∈ [1], ∀ timepoint ∈ srcTl.points[index]?, timepoint.deltaPmcs.length = 1 := by
    cases built
    exact ⟨_, List.mem_singleton.mpr rfl, rfl, by decide +kernel, by decide +kernel,
      by decide +kernel⟩
  obtain ⟨conflated, made, iff⟩ := @conflateTimeline_skipsGaps_iff [] none 1
    (fun metrics given => by cases given) srcTl (by rw [txn]; decide) counted [1, 2] (by decide)
    bound sampled
  exact ⟨stats, srcTl, conflated, built, listed, made, iff⟩

/-- A gap before a count is all that is left of the two. -/
theorem conflated_gap_first :
    ∃ stats srcTl conflated, relayStats = .ok stats ∧ srcTl ∈ stats.timelineCollection ∧
      conflateTimeline [] none srcTl [0, 2] = .ok conflated ∧
      ¬SkipsGaps srcTl.points [0, 2] conflated := by
  refine ⟨_, _, _, rfl, List.mem_singleton.mpr rfl, rfl, ?_⟩
  intro skipsGaps
  exact absurd (skipsGaps.endpoint 0) (by decide +kernel)

end Sample

end Xpedite.Timelines
