import Mathlib.Algebra.Order.Field.Basic
import Mathlib.Algebra.Order.BigOperators.Group.List
import Mathlib.Data.List.Basic
import Mathlib.Tactic.FieldSimp
import Mathlib.Tactic.Linarith

/-!
Breaking a list of weighted items up into a tree.  A level closes a group when its load
reaches a threshold and there are more items to come than its width leaves room for; the other
items become leaves, and what was pending before such a leaf is lost.
-/

namespace Xpedite.Lib.Breakdown

inductive Part (α : Type*) where
  | group (items : List α)
  | single (item : α)

def Part.items {α : Type*} : Part α → List α
  | .group items => items
  | .single item => [item]

variable {α K : Type*} [Field K] [LinearOrder K] (weight : α → K) (width : Nat)

def load (items : List α) : K := (items.map weight).sum

def breakUp (threshold : K) : Nat → List α → List α → List (Part α)
  | _, _, [] => []
  | taken, pending, item :: rest =>
      if width < rest.length + 1 + taken then
        if threshold ≤ load weight (pending ++ [item]) then
          .group (pending ++ [item]) :: breakUp threshold (taken + 1) [] rest
        else breakUp threshold taken (pending ++ [item]) rest
      else .single item :: breakUp threshold (taken + 1) [] rest

/-- What a group is broken up by; `share` is for a group without load. -/
def thresholdOf (share : K) (group : List α) : K :=
  if load weight group / width = 0 then share else load weight group / width

def expand (share : K) (next : K → List α → List α) : Part α → List α
  | .group group => next (thresholdOf weight width share group) group
  | .single item => [item]

/-- The leaves of the tree, `fuel` bounding its depth. -/
def leaves (share : K) : Nat → K → List α → List α
  | 0, _, _ => []
  | fuel + 1, threshold, items =>
      (breakUp weight width threshold 0 [] items).flatMap
        (expand weight width share (leaves share fuel))

/-- Groups one level can be broken up into without a loss, none of which needs another level. -/
structure Groups (threshold : K) (items : List α) (groups : List (List α)) : Prop where
  flatten : groups.flatten = items
  many : width < groups.length
  narrow : ∀ group ∈ groups, group.length ≤ width
  reached : ∀ group ∈ groups, threshold ≤ load weight group
  minimal : ∀ group ∈ groups, load weight group.dropLast < threshold

section FlatMap

variable {β γ : Type*} {first second : β → List γ}

theorem flatMap_sublist {elements : List β}
    (below : ∀ element ∈ elements, (first element).Sublist (second element)) :
    (elements.flatMap first).Sublist (elements.flatMap second) := by
  induction elements with
  | nil => exact List.Sublist.refl _
  | cons element elements ih =>
      rw [List.flatMap_cons, List.flatMap_cons]
      exact (below element List.mem_cons_self).append
        (ih fun other listed => below other (List.mem_cons_of_mem element listed))

/-- Where nothing is missing altogether, nothing is missing anywhere. -/
theorem eq_of_flatMap_eq {elements : List β}
    (below : ∀ element ∈ elements, (first element).Sublist (second element))
    (same : elements.flatMap first = elements.flatMap second) :
    ∀ element ∈ elements, first element = second element := by
  induction elements with
  | nil => exact fun _ listed => absurd listed List.not_mem_nil
  | cons element elements ih =>
      have front := below element List.mem_cons_self
      have rest : ∀ other ∈ elements, (first other).Sublist (second other) :=
        fun other listed => below other (List.mem_cons_of_mem element listed)
      have lengths := congrArg List.length same
      have frontLength := front.length_le
      have restLength := (flatMap_sublist rest).length_le
      rw [List.flatMap_cons, List.flatMap_cons, List.length_append, List.length_append] at lengths
      have equal : first element = second element := front.eq_of_length (by omega)
      rw [List.flatMap_cons, List.flatMap_cons, equal] at same
      intro other listed
      rcases List.mem_cons.mp listed with rfl | later
      · exact equal
      · exact ih rest (List.append_cancel_left same) other later

end FlatMap

section Level

variable {weight width} {threshold : K}

omit [LinearOrder K] in
theorem load_append (front back : List α) :
    load weight (front ++ back) = load weight front + load weight back := by
  rw [load, List.map_append, List.sum_append, load, load]

theorem breakUp_sublist (taken : Nat) (pending items : List α) :
    ((breakUp weight width threshold taken pending items).flatMap Part.items).Sublist
      (pending ++ items) := by
  induction items generalizing taken pending with
  | nil => exact List.nil_sublist _
  | cons item rest ih =>
      rw [breakUp]
      split
      case isTrue =>
          have shifted : pending ++ item :: rest = pending ++ [item] ++ rest :=
            List.append_cons pending item rest
          rw [shifted]
          split
          case isTrue =>
              rw [List.flatMap_cons]
              exact (ih (taken + 1) []).append_left (pending ++ [item])
          case isFalse => exact ih taken (pending ++ [item])
      case isFalse =>
          rw [List.flatMap_cons]
          exact ((ih (taken + 1) []).cons_cons item).trans (List.sublist_append_right pending _)

theorem breakUp_of_length_le {taken : Nat} {items : List α} (few : items.length + taken ≤ width)
    (pending : List α) :
    breakUp weight width threshold taken pending items = items.map Part.single := by
  induction items generalizing taken pending with
  | nil => rfl
  | cons item rest ih =>
      rw [List.length_cons] at few
      rw [breakUp, if_neg (by omega), ih (by omega), List.map_cons]

theorem length_group_le {taken : Nat} {pending items group : List α}
    (listed : .group group ∈ breakUp weight width threshold taken pending items) :
    group.length ≤ pending.length + items.length := by
  have inside : group.Sublist
      ((breakUp weight width threshold taken pending items).flatMap Part.items) :=
    List.sublist_flatten_of_mem (List.mem_map_of_mem listed)
  have bound := (inside.trans (breakUp_sublist taken pending items)).length_le
  rwa [List.length_append] at bound

theorem length_group_lt {taken : Nat} {pending items group : List α} (room : taken < width)
    (listed : .group group ∈ breakUp weight width threshold taken pending items) :
    group.length < pending.length + items.length := by
  induction items generalizing pending with
  | nil => cases listed
  | cons item rest ih =>
      rw [breakUp] at listed
      rw [List.length_cons]
      split at listed
      case isTrue more =>
          split at listed
          case isTrue =>
              rcases List.mem_cons.mp listed with same | later
              · cases same
                rw [List.length_append, List.length_singleton]
                omega
              · have bound := length_group_le later
                rw [List.length_nil] at bound
                omega
          case isFalse =>
              have bound := ih listed
              rw [List.length_append, List.length_singleton] at bound
              omega
      case isFalse =>
          rcases List.mem_cons.mp listed with same | later
          · cases same
          · have bound := length_group_le later
            rw [List.length_nil] at bound
            omega

/-- A level that has started with more than its width and loses nothing has groups only. -/
theorem exists_groups_of_length_eq {taken : Nat} {pending items : List α}
    (more : width < pending.length + items.length + taken)
    (open_ : load weight pending < threshold) (positive : 0 < threshold)
    (whole : ((breakUp weight width threshold taken pending items).flatMap Part.items).length =
      pending.length + items.length) :
    ∃ groups : List (List α),
      breakUp weight width threshold taken pending items = groups.map Part.group ∧
      groups.flatten = pending ++ items ∧ width < taken + groups.length ∧
      ∀ group ∈ groups, threshold ≤ load weight group ∧ load weight group.dropLast < threshold := by
  induction items generalizing taken pending with
  | nil =>
      have none : pending = [] := by
        apply List.eq_nil_of_length_eq_zero
        exact whole.symm
      subst none
      exact ⟨[], rfl, rfl, by simpa using more, fun _ listed => absurd listed List.not_mem_nil⟩
  | cons item rest ih =>
      rw [List.length_cons] at more whole
      rw [breakUp] at whole ⊢
      split at whole
      case isTrue canGroup =>
          rw [if_pos canGroup]
          split at whole
          case isTrue reached =>
              rw [if_pos reached]
              rw [List.flatMap_cons, List.length_append, Part.items, List.length_append,
                List.length_singleton] at whole
              obtain ⟨groups, parts, flat, many, each⟩ := @ih (taken + 1) []
                (by rw [List.length_nil]; omega) positive (by rw [List.length_nil]; omega)
              refine ⟨(pending ++ [item]) :: groups, by rw [parts, List.map_cons], ?_, ?_, ?_⟩
              · rw [List.flatten_cons, flat, List.nil_append, List.append_assoc]
                rfl
              · rw [List.length_cons]
                omega
              · intro group listed
                rcases List.mem_cons.mp listed with rfl | later
                · rw [List.dropLast_concat]
                  exact ⟨reached, open_⟩
                · exact each group later
          case isFalse short =>
              rw [if_neg short]
              obtain ⟨groups, parts, flat, rest⟩ := @ih taken (pending ++ [item])
                (by rw [List.length_append, List.length_singleton]; omega) (not_le.mp short)
                (by rw [List.length_append, List.length_singleton]; omega)
              refine ⟨groups, parts, ?_, rest⟩
              rw [flat, List.append_assoc]
              rfl
      case isFalse full =>
          -- what is pending is lost here
          have bound : ((breakUp weight width threshold (taken + 1) [] rest).flatMap
              Part.items).length ≤ ([] ++ rest).length := (breakUp_sublist (taken + 1) [] rest).length_le
          rw [List.flatMap_cons, List.length_append, Part.items, List.length_singleton] at whole
          rw [List.nil_append] at bound
          omega

variable [IsStrictOrderedRing K]

theorem load_nonneg {items : List α} (nonneg : ∀ item ∈ items, 0 ≤ weight item) :
    0 ≤ load weight items := by
  apply List.sum_nonneg
  intro value listed
  obtain ⟨item, member, rfl⟩ := List.mem_map.mp listed
  exact nonneg item member

theorem load_flatten_ge {groups : List (List α)}
    (reached : ∀ group ∈ groups, threshold ≤ load weight group) :
    groups.length * threshold ≤ load weight groups.flatten := by
  induction groups with
  | nil => simp [load]
  | cons group groups ih =>
      have first := reached group List.mem_cons_self
      have rest := ih fun other listed => reached other (List.mem_cons_of_mem group listed)
      rw [List.flatten_cons, load_append, List.length_cons, Nat.cast_succ]
      linarith

theorem breakUp_group {taken : Nat} {pending group rest : List α} (some_ : group ≠ [])
    (more : width < rest.length + 1 + taken)
    (nonneg : ∀ item ∈ group, 0 ≤ weight item)
    (reached : threshold ≤ load weight (pending ++ group))
    (minimal : load weight (pending ++ group.dropLast) < threshold) :
    breakUp weight width threshold taken pending (group ++ rest) =
      .group (pending ++ group) :: breakUp weight width threshold (taken + 1) [] rest := by
  induction group generalizing pending with
  | nil => exact absurd rfl some_
  | cons item group ih =>
      have shifted : pending ++ item :: group = pending ++ [item] ++ group :=
        List.append_cons pending item group
      have room : width < (group ++ rest).length + 1 + taken := by
        rw [List.length_append]
        omega
      rw [List.cons_append, breakUp, if_pos room]
      cases group with
      | nil =>
          rw [if_pos reached]
          rfl
      | cons next group =>
          have later : ∀ other ∈ next :: group, 0 ≤ weight other :=
            fun other listed => nonneg other (List.mem_cons_of_mem item listed)
          have front : pending ++ (item :: next :: group).dropLast =
              pending ++ [item] ++ (next :: group).dropLast := by
            rw [List.dropLast_cons_cons, List.append_cons]
          rw [front] at minimal
          have below : load weight (pending ++ [item]) < threshold := by
            have inner : 0 ≤ load weight (next :: group).dropLast :=
              load_nonneg fun other listed => later other (List.dropLast_subset _ listed)
            rw [load_append] at minimal
            linarith
          rw [if_neg (not_le.mpr below), shifted]
          rw [shifted] at reached
          exact ih (List.cons_ne_nil next group) later reached minimal

theorem breakUp_groups {taken : Nat} {groups : List (List α)}
    (many : width < taken + groups.length) (positive : 0 < threshold)
    (nonneg : ∀ group ∈ groups, ∀ item ∈ group, 0 ≤ weight item)
    (reached : ∀ group ∈ groups, threshold ≤ load weight group)
    (minimal : ∀ group ∈ groups, load weight group.dropLast < threshold) :
    breakUp weight width threshold taken [] groups.flatten = groups.map Part.group := by
  have solid : ∀ group ∈ groups, group ≠ [] := by
    rintro group listed rfl
    exact absurd (reached [] listed) (not_le.mpr positive)
  induction groups generalizing taken with
  | nil => rfl
  | cons group groups ih =>
      have longer : groups.length ≤ groups.flatten.length := by
        have counted := List.length_le_sum_of_one_le (groups.map List.length) (by
          intro length listed
          obtain ⟨other, member, rfl⟩ := List.mem_map.mp listed
          exact List.length_pos_iff.mpr (solid other (List.mem_cons_of_mem group member)))
        rwa [List.length_map, ← List.length_flatten] at counted
      rw [List.length_cons] at many
      rw [List.flatten_cons, breakUp_group (solid group List.mem_cons_self) (by omega)
        (nonneg group List.mem_cons_self) (reached group List.mem_cons_self)
        (minimal group List.mem_cons_self), List.nil_append, List.map_cons]
      rw [ih (by omega) (fun other listed => nonneg other (List.mem_cons_of_mem group listed))
        (fun other listed => reached other (List.mem_cons_of_mem group listed))
        (fun other listed => minimal other (List.mem_cons_of_mem group listed))
        (fun other listed => solid other (List.mem_cons_of_mem group listed))]

end Level

section Weights

variable {weight width} {threshold : K}

omit [LinearOrder K] in
theorem load_map (group : List α) : load id (group.map weight) = load weight group := by
  rw [load, List.map_id, load]

omit [Field K] [LinearOrder K] in
theorem exists_map_of_flatten_eq {groups : List (List K)} {items : List α}
    (flat : groups.flatten = items.map weight) :
    ∃ parts : List (List α), parts.flatten = items ∧ parts.map (List.map weight) = groups := by
  induction groups generalizing items with
  | nil =>
      refine ⟨[], ?_, rfl⟩
      exact (List.map_eq_nil_iff.mp flat.symm).symm
  | cons group groups ih =>
      obtain ⟨front, back, rfl, first, rest⟩ := List.map_eq_append_iff.mp flat.symm
      obtain ⟨parts, flat, mapped⟩ := ih rest.symm
      exact ⟨front :: parts, by rw [List.flatten_cons, flat], by rw [List.map_cons, first, mapped]⟩

theorem exists_groups_map_iff {items : List α} :
    (∃ groups, Groups id width threshold (items.map weight) groups) ↔
      ∃ groups, Groups weight width threshold items groups := by
  constructor
  · rintro ⟨groups, broken⟩
    obtain ⟨parts, flat, rfl⟩ := exists_map_of_flatten_eq broken.flatten
    refine ⟨parts, flat, by simpa using broken.many, ?_, ?_, ?_⟩
    · intro part listed
      simpa using broken.narrow _ (List.mem_map_of_mem listed)
    · intro part listed
      rw [← load_map]
      exact broken.reached _ (List.mem_map_of_mem listed)
    · intro part listed
      rw [← load_map, List.map_dropLast]
      exact broken.minimal _ (List.mem_map_of_mem listed)
  · rintro ⟨parts, broken⟩
    refine ⟨parts.map (List.map weight), ?_, by simpa using broken.many, ?_, ?_, ?_⟩
    · rw [← List.map_flatten, broken.flatten]
    · intro group listed
      obtain ⟨part, member, rfl⟩ := List.mem_map.mp listed
      simpa using broken.narrow part member
    · intro group listed
      obtain ⟨part, member, rfl⟩ := List.mem_map.mp listed
      rw [load_map]
      exact broken.reached part member
    · intro group listed
      obtain ⟨part, member, rfl⟩ := List.mem_map.mp listed
      rw [← List.map_dropLast, load_map]
      exact broken.minimal part member

end Weights

section Tree

variable {weight width} {share threshold : K} {items : List α}

theorem leaves_sublist (fuel : Nat) (threshold : K) (items : List α) :
    (leaves weight width share fuel threshold items).Sublist items := by
  induction fuel generalizing threshold items with
  | zero => exact List.nil_sublist items
  | succ fuel ih =>
      refine List.Sublist.trans (flatMap_sublist ?_) (breakUp_sublist 0 [] items)
      intro part _
      cases part with
      | group group => exact ih _ group
      | single item => exact List.Sublist.refl _

theorem leaves_of_length_le (few : items.length ≤ width) (fuel : Nat) (threshold : K) :
    leaves weight width share (fuel + 1) threshold items = items := by
  rw [leaves, breakUp_of_length_le few, List.flatMap_map]
  exact List.flatMap_singleton' items

/-- A level that loses nothing has more groups than its width, and these lose nothing. -/
theorem exists_groups_of_leaves_eq {fuel : Nat} (more : width < items.length)
    (positive : 0 < threshold)
    (whole : leaves weight width share (fuel + 1) threshold items = items) :
    ∃ groups : List (List α), groups.flatten = items ∧ width < groups.length ∧
      (∀ group ∈ groups, threshold ≤ load weight group ∧ load weight group.dropLast < threshold) ∧
      ∀ group ∈ groups,
        leaves weight width share fuel (thresholdOf weight width share group) group = group := by
  have below : ∀ part ∈ breakUp weight width threshold 0 [] items,
      (expand weight width share (leaves weight width share fuel) part).Sublist part.items := by
    intro part _
    cases part with
    | group group => exact leaves_sublist fuel _ group
    | single item => exact List.Sublist.refl _
  have inner := flatMap_sublist below
  have outer : ((breakUp weight width threshold 0 [] items).flatMap Part.items).Sublist
      ([] ++ items) := breakUp_sublist 0 [] items
  rw [leaves] at whole
  rw [whole] at inner
  have lengths : ((breakUp weight width threshold 0 [] items).flatMap Part.items).length =
      items.length := Nat.le_antisymm outer.length_le inner.length_le
  have enough : width < ([] : List α).length + items.length + 0 := by simpa using more
  obtain ⟨groups, parts, flat, many, each⟩ :=
    exists_groups_of_length_eq enough positive positive (by simpa using lengths)
  have all : (breakUp weight width threshold 0 [] items).flatMap Part.items = items := by
    rw [parts, List.flatMap_map]
    exact List.flatMap_id.trans flat
  refine ⟨groups, flat, by omega, each, ?_⟩
  intro group listed
  have member : Part.group group ∈ breakUp weight width threshold 0 [] items := by
    rw [parts]
    exact List.mem_map_of_mem listed
  exact eq_of_flatMap_eq below (whole.trans all.symm) _ member

/-- By a threshold that is not positive each item is a group of its own. -/
theorem leaves_of_nonpos (positive : 0 < width) (nonneg : ∀ item ∈ items, 0 ≤ weight item)
    (low : threshold ≤ 0) (fuel : Nat) :
    leaves weight width share (fuel + 2) threshold items = items := by
  have level : ∀ taken, (breakUp weight width threshold taken [] items).flatMap
      (expand weight width share (leaves weight width share (fuel + 1))) = items := by
    induction items with
    | nil => exact fun _ => rfl
    | cons item rest ih =>
        intro taken
        have later := ih (fun other listed => nonneg other (List.mem_cons_of_mem item listed))
          (taken + 1)
        have reached : threshold ≤ load weight ([] ++ [item]) := by
          have own := nonneg item List.mem_cons_self
          simpa [load] using low.trans own
        rw [breakUp, if_pos reached]
        split
        case isTrue =>
            rw [List.flatMap_cons, later]
            exact congrArg (· ++ rest) (leaves_of_length_le positive fuel _)
        case isFalse =>
            rw [List.flatMap_cons, later]
            rfl
  exact level 0

variable [IsStrictOrderedRing K]

/-- Broken up by its own share, a list with load and more items than the width loses some. -/
theorem leaves_share_ne (positive : 0 < width) (more : width < items.length)
    (loaded : 0 < load weight items) (fuel : Nat) :
    leaves weight width share fuel (load weight items / width) items ≠ items := by
  intro whole
  cases fuel with
  | zero =>
      rw [← whole] at more
      exact Nat.not_lt_zero _ more
  | succ fuel =>
      have divisor : (0 : K) < width := Nat.cast_pos.mpr positive
      have threshold : 0 < load weight items / width := div_pos loaded divisor
      obtain ⟨groups, flat, many, each, -⟩ := exists_groups_of_leaves_eq more threshold whole
      have bound := load_flatten_ge fun group listed => (each group listed).1
      have enough : ((width : K) + 1) ≤ groups.length := by
        rw [← Nat.cast_succ]
        exact Nat.cast_le.mpr many
      have total : width * (load weight items / width) = load weight items :=
        mul_div_cancel₀ _ divisor.ne'
      have scaled := mul_le_mul_of_nonneg_right enough threshold.le
      rw [flat] at bound
      linarith

/-- When the leaves are all items, each one once and in their order. -/
theorem leaves_eq_self_iff {fuel : Nat} (positive : 0 < width)
    (nonneg : ∀ item ∈ items, 0 ≤ weight item) (deep : items.length < fuel) :
    leaves weight width share fuel threshold items = items ↔
      items.length ≤ width ∨ threshold ≤ 0 ∨ ∃ groups, Groups weight width threshold items groups := by
  obtain ⟨fuel, rfl⟩ : ∃ rest, fuel = rest + 1 := ⟨fuel - 1, by omega⟩
  by_cases few : items.length ≤ width
  · exact iff_of_true (leaves_of_length_le few fuel threshold) (.inl few)
  obtain ⟨fuel, rfl⟩ : ∃ rest, fuel = rest + 1 := ⟨fuel - 1, by omega⟩
  by_cases low : threshold ≤ 0
  · exact iff_of_true (leaves_of_nonpos positive nonneg low fuel) (.inr (.inl low))
  have high := not_le.mp low
  rw [or_iff_right few, or_iff_right low]
  constructor
  · intro whole
    obtain ⟨groups, flat, many, each, inner⟩ := exists_groups_of_leaves_eq (not_le.mp few) high whole
    refine ⟨groups, flat, many, ?_, fun group listed => (each group listed).1,
      fun group listed => (each group listed).2⟩
    intro group listed
    by_contra wide
    have loaded : 0 < load weight group := high.trans_le (each group listed).1
    have divided : load weight group / width ≠ 0 :=
      (div_pos loaded (Nat.cast_pos.mpr positive)).ne'
    have again := inner group listed
    rw [thresholdOf, if_neg divided] at again
    exact leaves_share_ne positive (not_le.mp wide) loaded (fuel + 1) again
  · rintro ⟨groups, broken⟩
    have inside : ∀ group ∈ groups, ∀ item ∈ group, 0 ≤ weight item := by
      intro group listed item member
      apply nonneg
      rw [← broken.flatten]
      exact List.mem_flatten_of_mem listed member
    have many : width < 0 + groups.length := (Nat.zero_add groups.length).symm ▸ broken.many
    have parts := breakUp_groups many high inside broken.reached broken.minimal
    rw [broken.flatten] at parts
    rw [leaves, parts, List.flatMap_map]
    have all : groups.flatMap (fun group => expand weight width share
        (leaves weight width share (fuel + 1)) (Part.group group)) = groups.flatMap id :=
      List.flatMap_congr fun group listed => leaves_of_length_le (broken.narrow group listed) fuel _
    rw [all, List.flatMap_id, broken.flatten]

end Tree

end Xpedite.Lib.Breakdown
