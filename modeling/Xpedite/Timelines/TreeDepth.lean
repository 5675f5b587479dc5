import Xpedite.Timelines.TimelineTree

/-!
The recursion of `buildTimelineTree`.  A call is for a smaller part of the timeline than the one
it is made by, and the tree is the same for any fuel beyond the size of that part.
-/

namespace Xpedite.Timelines

/-- What a call of `buildTimelineTree` is for; each level has a node of its own. -/
structure TreeCall where
  threshold : Option ℚ
  begin : Option Nat
  stop : Option Nat

namespace TreeCall

variable (timeline : Timeline) (childCount : Nat)

def first (call : TreeCall) : Nat := call.begin.getD 0

def last (call : TreeCall) : Nat :=
  match call.stop with
  | some (last + 1) => last + 1
  | _ => timeline.points.length - 1

def size (call : TreeCall) : Nat := call.last timeline - call.first

def build (fuel : Nat) (call : TreeCall) (name : String) : Option Node :=
  buildTimelineTree timeline childCount fuel call.threshold call.begin call.stop name

def levelAt (fuel : Nat) (call : TreeCall) (i : Nat) : Option Level :=
  (List.range' call.first (i - call.first)).foldlM
    (visitTimepoint timeline childCount (buildTimelineTree timeline childCount fuel)
      (thresholdFor timeline childCount call.threshold) (call.last timeline)) ⟨[], 0, call.first⟩

inductive Makes (caller : TreeCall) : TreeCall → Prop
  | group {fuel i : Nat} {level : Level} {timepoint : TimePoint} (lower : caller.first ≤ i)
      (upper : i < caller.last timeline)
      (reached : caller.levelAt timeline childCount fuel i = some level)
      (here : timeline.points[i]? = some timepoint)
      (canGroup : childCount < caller.last timeline - i + level.children.length)
      (full : thresholdFor timeline childCount caller.threshold ≤
        level.duration + timepoint.duration) :
      Makes caller ⟨some ((level.duration + timepoint.duration) / childCount),
        some level.groupBegin, some (i + 1)⟩

structure Within (callee caller : TreeCall) : Prop where
  lower : caller.first ≤ callee.first
  upper : callee.last timeline ≤ caller.last timeline
  smaller : callee.size timeline < caller.size timeline

end TreeCall

section Loop

variable {timeline : Timeline} {childCount : Nat}
  {build other : Option ℚ → Option Nat → Option Nat → String → Option Node} {threshold : ℚ}
  {stop first i : Nat} {level next : Level}

/-- The group that is open starts in the range, at its first index only as long as there is no child. -/
structure Level.Open (first i : Nat) (level : Level) : Prop where
  lower : first ≤ level.groupBegin
  upper : level.groupBegin ≤ i
  fresh : level.groupBegin = first → level.children = []

theorem visitTimepoint_cases
    (visited : visitTimepoint timeline childCount build threshold stop level i = some next) :
    (next.groupBegin = level.groupBegin ∧ next.children = level.children) ∨
      next.groupBegin = i + 1 := by
  rw [visitTimepoint] at visited
  obtain ⟨timepoint, -, visited⟩ := Option.bind_eq_some_iff.mp visited
  dsimp only at visited
  split at visited
  case isTrue =>
    obtain ⟨after, -, visited⟩ := Option.bind_eq_some_iff.mp visited
    split at visited
    case isTrue =>
      obtain ⟨groupFirst, -, visited⟩ := Option.bind_eq_some_iff.mp visited
      obtain ⟨child, -, visited⟩ := Option.bind_eq_some_iff.mp visited
      cases visited
      exact .inr rfl
    case isFalse =>
      cases visited
      exact .inr rfl
  case isFalse =>
    cases visited
    exact .inl ⟨rfl, rfl⟩

theorem Level.Open.visit (begun : level.Open first i) (inside : first ≤ i)
    (visited : visitTimepoint timeline childCount build threshold stop level i = some next) :
    next.Open first (i + 1) := by
  obtain ⟨lower, upper, fresh⟩ := begun
  rcases visitTimepoint_cases visited with ⟨same, children⟩ | restarted
  · refine ⟨same ▸ lower, by omega, fun atFirst => ?_⟩
    rw [children]
    exact fresh (same ▸ atFirst)
  · exact ⟨by omega, by omega, fun atFirst => by omega⟩

theorem Level.Open.foldlM {count : Nat}
    (reached : (List.range' first count).foldlM
      (visitTimepoint timeline childCount build threshold stop) ⟨[], 0, first⟩ = some level) :
    level.Open first (first + count) := by
  induction count generalizing level with
  | zero =>
      cases reached
      exact ⟨Nat.le_refl _, Nat.le_refl _, fun _ => rfl⟩
  | succ count ih =>
      rw [List.range'_1_concat, List.foldlM_append] at reached
      obtain ⟨before, earlier, visited⟩ := Option.bind_eq_some_iff.mp reached
      rw [List.foldlM_cons] at visited
      obtain ⟨after, visited, done⟩ := Option.bind_eq_some_iff.mp visited
      cases done
      exact (ih earlier).visit (Nat.le_add_right _ _) visited

theorem visitTimepoint_congr
    (same : ∀ timepoint, timeline.points[i]? = some timepoint →
      childCount < stop - i + level.children.length →
      threshold ≤ level.duration + timepoint.duration →
      ∀ name, build (some ((level.duration + timepoint.duration) / childCount))
          (some level.groupBegin) (some (i + 1)) name =
        other (some ((level.duration + timepoint.duration) / childCount))
          (some level.groupBegin) (some (i + 1)) name) :
    visitTimepoint timeline childCount build threshold stop level i =
      visitTimepoint timeline childCount other threshold stop level i := by
  rw [visitTimepoint, visitTimepoint]
  refine Option.bind_congr fun timepoint here => ?_
  by_cases canGroup : childCount < stop - i + level.children.length
  · by_cases full : threshold ≤ level.duration + timepoint.duration
    · simp only [same timepoint here canGroup full]
    · simp only [canGroup, full, not_true_eq_false, or_self, if_false]
  · simp only [canGroup, if_false]

end Loop

namespace TreeCall

variable {timeline : Timeline} {childCount : Nat} {caller callee : TreeCall}

theorem Makes.within (positive : 1 ≤ childCount) (makes : caller.Makes timeline childCount callee) :
    callee.Within timeline caller := by
  cases makes with
  | @group fuel i level timepoint lower upper reached here canGroup full =>
      obtain ⟨after, before, fresh⟩ := Level.Open.foldlM reached
      refine ⟨after, upper, ?_⟩
      -- a group of all points would be the first child, when more than `childCount` are left
      have proper : level.groupBegin = caller.first → i + 1 < caller.last timeline := by
        intro atFirst
        rw [fresh atFirst, List.length_nil] at canGroup
        omega
      have order : caller.first + (i - caller.first) = i := by omega
      rw [order] at before
      change i + 1 - level.groupBegin < caller.last timeline - caller.first
      by_cases atFirst : level.groupBegin = caller.first
      · have shorter := proper atFirst
        omega
      · omega

theorem build_succ (fuel : Nat) (call : TreeCall) (name : String) :
    call.build timeline childCount (fuel + 1) name =
      (call.levelAt timeline childCount fuel (call.last timeline)).map fun level =>
        .node name level.children := by
  rw [Option.map_eq_bind]
  obtain ⟨threshold, begin, stop⟩ := call
  cases stop with
  | none => rfl
  | some stop =>
      cases stop with
      | zero => rfl
      | succ stop => rfl

theorem build_congr {fuel other : Nat}
    (same : ∀ callee, caller.Makes timeline childCount callee → ∀ name,
      callee.build timeline childCount fuel name = callee.build timeline childCount other name)
    (name : String) :
    caller.build timeline childCount (fuel + 1) name =
      caller.build timeline childCount (other + 1) name := by
  have levels : ∀ count, count ≤ caller.last timeline - caller.first →
      caller.levelAt timeline childCount fuel (caller.first + count) =
        caller.levelAt timeline childCount other (caller.first + count) := by
    intro count
    induction count with
    | zero =>
        intro _
        rw [levelAt, levelAt, Nat.add_zero, Nat.sub_self]
        rfl
    | succ count ih =>
        intro inside
        have earlier := ih (by omega)
        rw [levelAt, levelAt, Nat.add_sub_cancel_left] at earlier ⊢
        rw [List.range'_1_concat, List.foldlM_append, List.foldlM_append, ← earlier]
        refine Option.bind_congr fun level reached => ?_
        rw [List.foldlM_cons, List.foldlM_cons, visitTimepoint_congr]
        · rfl
        · intro timepoint here canGroup full name
          have reached' : caller.levelAt timeline childCount fuel (caller.first + count) =
              some level := by
            rw [levelAt, Nat.add_sub_cancel_left]
            exact reached
          exact same _ (.group (Nat.le_add_right _ _) (by omega) reached' here canGroup full) name
  rw [build_succ, build_succ]
  by_cases order : caller.first ≤ caller.last timeline
  · have whole := levels (caller.last timeline - caller.first) (Nat.le_refl _)
    rw [Nat.add_sub_cancel' order] at whole
    rw [whole]
  · have none : caller.last timeline - caller.first = 0 := by omega
    rw [levelAt, levelAt, none]
    rfl

theorem build_of_lt (positive : 1 ≤ childCount) {fuel other : Nat} (call : TreeCall)
    (deep : call.size timeline < fuel) (deep' : call.size timeline < other) (name : String) :
    call.build timeline childCount fuel name = call.build timeline childCount other name := by
  induction fuel generalizing call other name with
  | zero => omega
  | succ fuel ih =>
      obtain ⟨other, rfl⟩ : ∃ less, other = less + 1 := ⟨other - 1, by omega⟩
      refine build_congr (fun callee makes name => ?_) name
      have smaller := (makes.within positive).smaller
      exact ih callee (by omega) (by omega) name

end TreeCall

/--
From any threshold on, the recursion ends with a tree, and each call in it is for a smaller
part of the timeline than its caller.
-/
theorem buildTimelineTree_terminates {timeline : Timeline} {childCount : Nat}
    (long : 2 ≤ timeline.points.length) (positive : 1 ≤ childCount) (threshold : Option ℚ)
    (name : String) :
    (∃ tree, ∀ fuel, timeline.points.length ≤ fuel →
        buildTimelineTree timeline childCount fuel threshold none none name = some tree) ∧
      ∀ caller callee : TreeCall, caller.Makes timeline childCount callee →
        callee.Within timeline caller := by
  refine ⟨?_, fun caller callee makes => makes.within positive⟩
  obtain ⟨tree, built, -⟩ := @exists_buildTimelineTree timeline childCount positive
    timeline.points.length 0 (timeline.points.length - 1) (by omega) (Nat.zero_le _) (by omega)
    (by omega) threshold name
  rw [← buildTimelineTree_top long] at built
  refine ⟨tree, fun fuel deep => ?_⟩
  have size : (TreeCall.mk threshold none none).size timeline = timeline.points.length - 1 := rfl
  rw [← built]
  exact TreeCall.build_of_lt positive ⟨threshold, none, none⟩ (by omega) (by omega) name

theorem buildTimelineTree_terminates_five :
    (∃ tree, ∀ fuel, 6 ≤ fuel →
        buildTimelineTree (timelineFor [24, 1, 25, 25, 25]) 4 fuel (some 0) none none "root" =
          some tree) ∧
      ∀ caller callee : TreeCall, caller.Makes (timelineFor [24, 1, 25, 25, 25]) 4 callee →
        callee.Within (timelineFor [24, 1, 25, 25, 25]) caller :=
  @buildTimelineTree_terminates (timelineFor [24, 1, 25, 25, 25]) 4 (by decide) (by decide) (some 0)
    "root"

end Xpedite.Timelines
