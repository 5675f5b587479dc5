import Xpedite.Lib.Breakdown
import Xpedite.Timelines.TimelineCore

/-!
The hierarchical view of a timeline (`buildTimelineTree` of
`xpedite/analytics/timelineTree.py`).  A division by a `childCount` of 0 is not an exception.
-/

namespace Xpedite.Timelines

open Xpedite.Lib

inductive Node where
  | node (name : String) (children : List Node)
  | leaf (name : String) (value : ℚ)

mutual

def Node.leaves : Node → List (String × ℚ)
  | .node _ children => leavesOf children
  | .leaf name value => [(name, value)]

def leavesOf : List Node → List (String × ℚ)
  | [] => []
  | child :: children => child.leaves ++ leavesOf children

end

/-- The loop variables of a level, whose children are those of its node. -/
structure Level where
  children : List Node
  duration : ℚ
  groupBegin : Nat

section Build

variable (timeline : Timeline) (childCount : Nat)

/-- `None` and 0 stand for the share of a child in the duration of the timeline. -/
def thresholdFor : Option ℚ → ℚ
  | none => timeline.endpoint.duration / childCount
  | some threshold => if threshold = 0 then timeline.endpoint.duration / childCount else threshold

/-- The loop body for the index `i`, with the recursive call as `build`. -/
def visitTimepoint (build : Option ℚ → Option Nat → Option Nat → String → Option Node)
    (threshold : ℚ) (stop : Nat) (level : Level) (i : Nat) : Option Level := do
  let timepoint ← timeline.points[i]?
  let duration := level.duration + timepoint.duration
  -- end - i > childCount - len(node)
  let canGroup := childCount < stop - i + level.children.length
  if threshold ≤ duration ∨ ¬canGroup then
    let next ← timeline.points[i + 1]?
    let child ←
      if canGroup then do
        let first ← timeline.points[level.groupBegin]?
        build (some (duration / childCount)) (some level.groupBegin) (some (i + 1))
          (first.name ++ " - " ++ next.name)
      else some (.leaf (timepoint.name ++ " - " ++ next.name) timepoint.duration)
    return ⟨level.children ++ [child], 0, i + 1⟩
  else return { level with duration := duration }

/-- `fuel` bounds the depth of the recursion. -/
def buildTimelineTree : Nat → Option ℚ → Option Nat → Option Nat → String → Option Node
  | 0, _, _, _, _ => none
  | fuel + 1, threshold, begin, stop, name => do
      let begin := begin.getD 0
      let stop := match stop with
        | some (last + 1) => last + 1
        | _ => timeline.points.length - 1
      let level ← (List.range' begin (stop - begin)).foldlM
        (visitTimepoint timeline childCount (buildTimelineTree fuel)
          (thresholdFor timeline childCount threshold) stop) ⟨[], 0, begin⟩
      return .node name level.children

end Build

def intervalsOf (timeline : Timeline) : List (String × ℚ) :=
  (timeline.points.zip timeline.points.tail).map fun pair =>
    (pair.1.name ++ " - " ++ pair.2.name, pair.1.duration)

section Intervals

variable (timeline : Timeline)

def durationAt (i : Nat) : ℚ := (timeline.points[i]?.map TimePoint.duration).getD 0

def nameAt (i : Nat) : String := (timeline.points[i]?.map TimePoint.name).getD ""

def intervalAt (i : Nat) : String × ℚ :=
  (nameAt timeline i ++ " - " ++ nameAt timeline (i + 1), durationAt timeline i)

variable {timeline}

theorem nameAt_of_getElem? {i : Nat} {timepoint : TimePoint}
    (present : timeline.points[i]? = some timepoint) : nameAt timeline i = timepoint.name := by
  rw [nameAt, present]
  rfl

theorem durationAt_of_getElem? {i : Nat} {timepoint : TimePoint}
    (present : timeline.points[i]? = some timepoint) :
    durationAt timeline i = timepoint.duration := by
  rw [durationAt, present]
  rfl

theorem map_intervalAt : (List.range' 0 (timeline.points.length - 1)).map (intervalAt timeline) =
    intervalsOf timeline := by
  apply List.ext_getElem
  · simp [intervalsOf]
  · intro i bound _
    rw [List.length_map, List.length_range'] at bound
    have here : timeline.points[i]? = some timeline.points[i] := List.getElem?_eq_getElem (by omega)
    have next : timeline.points[i + 1]? = some timeline.points[i + 1] :=
      List.getElem?_eq_getElem (by omega)
    simp [intervalsOf, intervalAt, nameAt_of_getElem? here, nameAt_of_getElem? next,
      durationAt_of_getElem? here]

theorem map_durationAt : (List.range' 0 (timeline.points.length - 1)).map (durationAt timeline) =
    timeline.points.dropLast.map TimePoint.duration := by
  apply List.ext_getElem
  · simp
  · intro i bound _
    rw [List.length_map, List.length_range'] at bound
    have here : timeline.points[i]? = some timeline.points[i] := List.getElem?_eq_getElem (by omega)
    simp [durationAt_of_getElem? here]

theorem leavesOf_append (front back : List Node) :
    leavesOf (front ++ back) = leavesOf front ++ leavesOf back := by
  induction front with
  | nil => rfl
  | cons child front ih => rw [List.cons_append, leavesOf, leavesOf, ih, List.append_assoc]

end Intervals

section Refinement

open Breakdown

variable {timeline : Timeline} {childCount : Nat}

def Builds (timeline : Timeline) (childCount stop : Nat)
    (build : Option ℚ → Option Nat → Option Nat → String → Option Node)
    (next : ℚ → List Nat → List Nat) (parts : List (Breakdown.Part Nat)) : Prop :=
  ∀ first last name, first < last → last ≤ stop →
    .group (List.range' first (last - first)) ∈ parts →
    ∃ child, build (some (load (durationAt timeline) (List.range' first (last - first)) / childCount))
        (some first) (some last) name = some child ∧
      child.leaves = (next (thresholdOf (durationAt timeline) childCount
          (timeline.endpoint.duration / childCount) (List.range' first (last - first)))
        (List.range' first (last - first))).map (intervalAt timeline)

theorem Builds.mono {stop : Nat} {build : Option ℚ → Option Nat → Option Nat → String → Option Node}
    {next : ℚ → List Nat → List Nat} {parts fewer : List (Breakdown.Part Nat)}
    (builds : Builds timeline childCount stop build next parts) (subset : fewer ⊆ parts) :
    Builds timeline childCount stop build next fewer :=
  fun first last name order within listed => builds first last name order within (subset listed)

section Step

variable {build : Option ℚ → Option Nat → Option Nat → String → Option Node} {threshold : ℚ}
  {stop i : Nat} {level : Level} {timepoint nextpoint : TimePoint}
  (here : timeline.points[i]? = some timepoint)

include here

theorem visitTimepoint_open (canGroup : childCount < stop - i + level.children.length)
    (below : ¬threshold ≤ level.duration + timepoint.duration) :
    visitTimepoint timeline childCount build threshold stop level i =
      some { level with duration := level.duration + timepoint.duration } := by
  simp [visitTimepoint, here, canGroup, below]

theorem visitTimepoint_group (next : timeline.points[i + 1]? = some nextpoint)
    (canGroup : childCount < stop - i + level.children.length)
    (reached : threshold ≤ level.duration + timepoint.duration) {first : TimePoint} {child : Node}
    (start : timeline.points[level.groupBegin]? = some first)
    (built : build (some ((level.duration + timepoint.duration) / childCount))
      (some level.groupBegin) (some (i + 1)) (first.name ++ " - " ++ nextpoint.name) = some child) :
    visitTimepoint timeline childCount build threshold stop level i =
      some ⟨level.children ++ [child], 0, i + 1⟩ := by
  simp [visitTimepoint, here, next, canGroup, reached, start, built]

theorem visitTimepoint_leaf (next : timeline.points[i + 1]? = some nextpoint)
    (full : ¬childCount < stop - i + level.children.length) :
    visitTimepoint timeline childCount build threshold stop level i =
      some ⟨level.children ++ [.leaf (timepoint.name ++ " - " ++ nextpoint.name) timepoint.duration],
        0, i + 1⟩ := by
  simp [visitTimepoint, here, next, full]

end Step

theorem range'_sub_concat {first i : Nat} (order : first ≤ i) :
    List.range' first (i - first) ++ [i] = List.range' first (i + 1 - first) := by
  have grown : i + 1 - first = i - first + 1 := by omega
  have place : first + (i - first) = i := by omega
  rw [grown, List.range'_1_concat, place]

theorem foldlM_visitTimepoint {build : Option ℚ → Option Nat → Option Nat → String → Option Node}
    {next : ℚ → List Nat → List Nat} {threshold : ℚ} {stop : Nat}
    (within : stop < timeline.points.length) {i : Nat} (bound : i ≤ stop) (level : Level)
    (behind : level.groupBegin ≤ i)
    (duration : level.duration =
      load (durationAt timeline) (List.range' level.groupBegin (i - level.groupBegin)))
    (builds : Builds timeline childCount stop build next
      (breakUp (durationAt timeline) childCount threshold level.children.length
        (List.range' level.groupBegin (i - level.groupBegin)) (List.range' i (stop - i)))) :
    ∃ last, (List.range' i (stop - i)).foldlM
        (visitTimepoint timeline childCount build threshold stop) level = some last ∧
      leavesOf last.children = leavesOf level.children ++
        ((breakUp (durationAt timeline) childCount threshold level.children.length
          (List.range' level.groupBegin (i - level.groupBegin)) (List.range' i (stop - i))).flatMap
          (expand (durationAt timeline) childCount (timeline.endpoint.duration / childCount)
            next)).map (intervalAt timeline) := by
  obtain ⟨count, rest⟩ : ∃ count, stop - i = count := ⟨_, rfl⟩
  induction count generalizing i level with
  | zero =>
      rw [rest]
      exact ⟨level, rfl, (List.append_nil _).symm⟩
  | succ count ih =>
      have later : stop - (i + 1) = count := by omega
      have here : timeline.points[i]? = some timeline.points[i] := List.getElem?_eq_getElem (by omega)
      have after : timeline.points[i + 1]? = some timeline.points[i + 1] :=
        List.getElem?_eq_getElem (by omega)
      have pending := range'_sub_concat behind
      have total : level.duration + timeline.points[i].duration =
          load (durationAt timeline) (List.range' level.groupBegin (i + 1 - level.groupBegin)) := by
        rw [← pending, load_append, duration]
        simp [load, durationAt_of_getElem? here]
      have remaining : (List.range' (i + 1) count).length + 1 + level.children.length =
          stop - i + level.children.length := by rw [List.length_range', rest]
      rw [rest, List.range'_succ, breakUp] at builds
      rw [rest, List.range'_succ, List.foldlM_cons, breakUp]
      simp only [remaining, pending, ← total] at builds ⊢
      have fresh : List.range' (i + 1) (i + 1 - (i + 1)) = [] := by rw [Nat.sub_self, List.range'_zero]
      -- the rest of the loop after a group that ends here
      have restart : ∀ child, Builds timeline childCount stop build next
            (breakUp (durationAt timeline) childCount threshold (level.children.length + 1) []
              (List.range' (i + 1) count)) →
          ∃ last, (List.range' (i + 1) count).foldlM
              (visitTimepoint timeline childCount build threshold stop)
              ⟨level.children ++ [child], 0, i + 1⟩ = some last ∧
            leavesOf last.children = leavesOf (level.children ++ [child]) ++
              ((breakUp (durationAt timeline) childCount threshold (level.children.length + 1) []
                (List.range' (i + 1) count)).flatMap
                (expand (durationAt timeline) childCount (timeline.endpoint.duration / childCount)
                  next)).map (intervalAt timeline) := by
        intro child onward
        have tail := @ih (i + 1) (by omega) ⟨level.children ++ [child], 0, i + 1⟩ (Nat.le_refl _)
          (by rw [fresh]; rfl)
          (by rw [fresh, later, List.length_append]; exact onward) later
        rwa [fresh, later, List.length_append] at tail
      by_cases canGroup : childCount < stop - i + level.children.length
      · by_cases reached : threshold ≤ level.duration + timeline.points[i].duration
        · rw [if_pos canGroup, if_pos reached] at builds
          have start : timeline.points[level.groupBegin]? = some timeline.points[level.groupBegin] :=
            List.getElem?_eq_getElem (by omega)
          obtain ⟨child, built, leaves⟩ := builds level.groupBegin (i + 1)
            (timeline.points[level.groupBegin].name ++ " - " ++ timeline.points[i + 1].name)
            (by omega) (by omega) List.mem_cons_self
          rw [← total] at built
          rw [visitTimepoint_group here after canGroup reached start built, if_pos canGroup,
            if_pos reached]
          obtain ⟨last, run, flat⟩ := restart child (builds.mono (List.subset_cons_self _ _))
          refine ⟨last, run, ?_⟩
          rw [flat, leavesOf_append, leavesOf, leavesOf, List.append_nil, leaves,
            List.flatMap_cons, List.map_append, List.append_assoc]
          rfl
        · rw [if_pos canGroup, if_neg reached] at builds
          rw [visitTimepoint_open here canGroup reached, if_pos canGroup, if_neg reached]
          have tail := @ih (i + 1) (by omega)
            { level with duration := level.duration + timeline.points[i].duration }
            (by dsimp only; omega) total (by rw [later]; exact builds) later
          rw [later] at tail
          exact tail
      · rw [if_neg canGroup] at builds
        rw [visitTimepoint_leaf here after canGroup, if_neg canGroup]
        obtain ⟨last, run, flat⟩ := restart _ (builds.mono (List.subset_cons_self _ _))
        refine ⟨last, run, ?_⟩
        rw [flat, leavesOf_append, leavesOf, leavesOf, List.append_nil, Node.leaves,
          List.flatMap_cons, List.map_append, List.append_assoc, expand, List.map_singleton,
          intervalAt, nameAt_of_getElem? here, nameAt_of_getElem? after, durationAt_of_getElem? here]

theorem exists_buildTimelineTree (positive : 0 < childCount) {fuel begin stop : Nat}
    (within : stop < timeline.points.length) (order : begin ≤ stop) (some_ : stop ≠ 0)
    (deep : stop - begin < fuel) (threshold : Option ℚ) (name : String) :
    ∃ tree, buildTimelineTree timeline childCount fuel threshold (some begin) (some stop) name =
        some tree ∧
      tree.leaves = (leaves (durationAt timeline) childCount
        (timeline.endpoint.duration / childCount) fuel (thresholdFor timeline childCount threshold)
        (List.range' begin (stop - begin))).map (intervalAt timeline) := by
  induction fuel generalizing begin stop threshold name with
  | zero => omega
  | succ fuel ih =>
      obtain ⟨final, rfl⟩ : ∃ final, stop = final + 1 := ⟨stop - 1, by omega⟩
      have none : List.range' begin (begin - begin) = [] := by rw [Nat.sub_self, List.range'_zero]
      have builds : Builds timeline childCount (final + 1)
          (buildTimelineTree timeline childCount fuel)
          (leaves (durationAt timeline) childCount (timeline.endpoint.duration / childCount) fuel)
          (breakUp (durationAt timeline) childCount (thresholdFor timeline childCount threshold) 0
            (List.range' begin (begin - begin)) (List.range' begin (final + 1 - begin))) := by
        intro first last name before inside listed
        rw [none] at listed
        have shorter := length_group_lt positive listed
        rw [List.length_range', List.length_nil, List.length_range'] at shorter
        exact ih (by omega) before.le (by omega) (by omega) _ name
      obtain ⟨level, run, flat⟩ := foldlM_visitTimepoint within order ⟨[], 0, begin⟩
        (Nat.le_refl begin) (by rw [none]; rfl) builds
      refine ⟨.node name level.children, ?_, ?_⟩
      · rw [buildTimelineTree]
        simp only [Option.getD_some]
        rw [run]
        rfl
      · rw [none] at flat
        exact flat

theorem buildTimelineTree_top (long : 2 ≤ timeline.points.length) (fuel : Nat)
    (threshold : Option ℚ) (name : String) :
    buildTimelineTree timeline childCount fuel threshold none none name =
      buildTimelineTree timeline childCount fuel threshold (some 0)
        (some (timeline.points.length - 1)) name := by
  cases fuel with
  | zero => rfl
  | succ fuel =>
      obtain ⟨final, length⟩ : ∃ final, timeline.points.length - 1 = final + 1 :=
        ⟨timeline.points.length - 2, by omega⟩
      simp only [buildTimelineTree, length, Option.getD_none, Option.getD_some]

theorem durationAt_nonneg (nonneg : ∀ timepoint ∈ timeline.points, 0 ≤ timepoint.duration) (i : Nat) :
    0 ≤ durationAt timeline i := by
  cases present : timeline.points[i]? with
  | none => simp [durationAt, present]
  | some timepoint =>
      rw [durationAt_of_getElem? present]
      exact nonneg timepoint (List.mem_of_getElem? present)

/-- In a timeline whose durations add up to its own there are no such groups. -/
theorem not_exists_groups (positive : 1 ≤ childCount) (takes : 0 < timeline.endpoint.duration)
    (total : (timeline.points.dropLast.map TimePoint.duration).sum = timeline.endpoint.duration) :
    ¬∃ groups, Groups id childCount (timeline.endpoint.duration / childCount)
      (timeline.points.dropLast.map TimePoint.duration) groups := by
  rintro ⟨groups, broken⟩
  have bound := load_flatten_ge broken.reached
  have divisor : (0 : ℚ) < childCount := Nat.cast_pos.mpr positive
  have whole : load id groups.flatten = childCount * (timeline.endpoint.duration / childCount) := by
    rw [broken.flatten, load, List.map_id, total, mul_div_cancel₀ _ divisor.ne']
  rw [whole] at bound
  have few := le_of_mul_le_mul_right bound (div_pos takes divisor)
  exact absurd broken.many (not_lt.mpr (Nat.cast_le.mp few))

/--
The leaves are all intervals of the timeline if there are not more of them than children, if
the timeline takes no time, or if the durations can be split into more groups than children,
none with more intervals than children, each of which reaches its share with its last interval.
-/
theorem leaves_eq_intervals_iff (long : 2 ≤ timeline.points.length)
    (nonneg : ∀ timepoint ∈ timeline.points, 0 ≤ timepoint.duration) (positive : 1 ≤ childCount)
    {fuel : Nat} (deep : timeline.points.length ≤ fuel) :
    ∃ tree, buildTimelineTree timeline childCount fuel none none none "root" = some tree ∧
      (tree.leaves = intervalsOf timeline ↔
        timeline.points.length ≤ childCount + 1 ∨ timeline.endpoint.duration ≤ 0 ∨
          ∃ groups, Groups id childCount (timeline.endpoint.duration / childCount)
            (timeline.points.dropLast.map TimePoint.duration) groups) := by
  rw [buildTimelineTree_top long]
  obtain ⟨tree, built, shown⟩ := @exists_buildTimelineTree timeline childCount positive fuel 0
    (timeline.points.length - 1) (by omega) (Nat.zero_le _) (by omega) (by omega) none "root"
  refine ⟨tree, built, ?_⟩
  have share : timeline.endpoint.duration / childCount ≤ 0 ↔ timeline.endpoint.duration ≤ 0 := by
    have divisor : (0 : ℚ) < childCount := Nat.cast_pos.mpr positive
    rw [div_le_iff₀ divisor, zero_mul]
  have all : tree.leaves = intervalsOf timeline ↔
      leaves (durationAt timeline) childCount (timeline.endpoint.duration / childCount) fuel
        (timeline.endpoint.duration / childCount) (List.range' 0 (timeline.points.length - 1)) =
          List.range' 0 (timeline.points.length - 1) := by
    rw [shown, ← map_intervalAt, Nat.sub_zero]
    constructor
    · intro same
      have lengths := congrArg List.length same
      rw [List.length_map, List.length_map] at lengths
      exact (leaves_sublist _ _ _).eq_of_length lengths
    · exact congrArg _
  rw [all, leaves_eq_self_iff positive (fun i _ => durationAt_nonneg nonneg i)
    (by rw [List.length_range']; omega), ← exists_groups_map_iff, map_durationAt, List.length_range', share]
  exact or_congr_left (Nat.sub_le_iff_le_add)

end Refinement

def pointsFor : ℚ → List ℚ → List TimePoint
  | offset, [] => [⟨"End", offset, 0, [], [], [], none⟩]
  | offset, duration :: durations =>
      ⟨"Probe", offset, duration, [], [], [], none⟩ :: pointsFor (offset + duration) durations

def timelineFor (durations : List ℚ) : Timeline where
  txn := ⟨1, [], ⟨[]⟩⟩
  tsc := 0
  txnId := 1
  points := pointsFor 0 durations
  endpoint := ⟨"end", 0, durations.sum, [], [], [], none⟩
  inception := 0

theorem leaves_eq_intervals_iff_five :
    ∃ tree, buildTimelineTree (timelineFor [24, 1, 25, 25, 25]) 4 6 none none none "root" = some tree ∧
      (tree.leaves = intervalsOf (timelineFor [24, 1, 25, 25, 25]) ↔
        6 ≤ 4 + 1 ∨ (timelineFor [24, 1, 25, 25, 25]).endpoint.duration ≤ 0 ∨
          ∃ groups, Breakdown.Groups id 4
            ((timelineFor [24, 1, 25, 25, 25]).endpoint.duration / (4 : Nat))
            ((timelineFor [24, 1, 25, 25, 25]).points.dropLast.map TimePoint.duration) groups) :=
  leaves_eq_intervals_iff (by decide) (by decide +kernel) (by decide) (by decide)

/-- Of five intervals the first one is lost: it is pending when the other four become leaves. -/
theorem leaves_lose_first :
    (buildTimelineTree (timelineFor [24, 1, 25, 25, 25]) 4 6 none none none "root").map
        (fun tree => tree.leaves.map Prod.snd) = some [1, 25, 25, 25] ∧
      (intervalsOf (timelineFor [24, 1, 25, 25, 25])).map Prod.snd = [24, 1, 25, 25, 25] := by
  constructor
  · decide +kernel
  · decide +kernel

end Xpedite.Timelines
