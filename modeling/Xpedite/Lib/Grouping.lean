import Mathlib.Data.List.Induction
import Mathlib.Data.List.Nodup

/-!
Grouping the elements of a list in an insertion-ordered dictionary.  The entry of
a key is found by comparing images under a function `image`; the groups are then
those of equal images, in the order of the list.
-/

namespace Xpedite.Lib

variable {Key Element Image : Type} [DecidableEq Image]

def addToGroup (matching : Key → Key → Bool) (groups : List (Key × List Element)) (key : Key)
    (element : Element) : List (Key × List Element) :=
  match groups with
  | [] => [(key, [element])]
  | group :: rest =>
      if matching group.1 key then (group.1, group.2 ++ [element]) :: rest
      else group :: addToGroup matching rest key element

structure GroupedBy (image : Key → Image) (keyOf : Element → Key) (elements : List Element)
    (groups : List (Key × List Element)) : Prop where
  members : ∀ group ∈ groups,
    group.2 = elements.filter fun element => image (keyOf element) = image group.1
  distinct : (groups.map fun group => image group.1).Nodup
  covered : ∀ element ∈ elements, ∃ group ∈ groups, image group.1 = image (keyOf element)

theorem mem_addToGroup_key {matching : Key → Key → Bool} {groups : List (Key × List Element)}
    {key : Key} {element : Element} {group : Key × List Element}
    (member : group ∈ addToGroup matching groups key element) :
    group.1 = key ∨ ∃ old ∈ groups, group.1 = old.1 := by
  induction groups with
  | nil =>
      rw [addToGroup, List.mem_singleton] at member
      exact .inl (by rw [member])
  | cons first rest ih =>
      rw [addToGroup] at member
      split at member
      · rcases List.mem_cons.mp member with rfl | inRest
        · exact .inr ⟨first, List.mem_cons_self, rfl⟩
        · exact .inr ⟨group, List.mem_cons_of_mem _ inRest, rfl⟩
      · rcases List.mem_cons.mp member with rfl | inRest
        · exact .inr ⟨group, List.mem_cons_self, rfl⟩
        · rcases ih inRest with isKey | ⟨old, isOld, same⟩
          · exact .inl isKey
          · exact .inr ⟨old, List.mem_cons_of_mem _ isOld, same⟩

section Matching

variable {matching : Key → Key → Bool} {image : Key → Image}
variable (matches_iff : ∀ first second, matching first second = true ↔ image first = image second)

include matches_iff

theorem map_addToGroup (groups : List (Key × List Element)) (key : Key) (element : Element) :
    (addToGroup matching groups key element).map (fun group => image group.1) =
      if image key ∈ groups.map (fun group => image group.1)
      then groups.map fun group => image group.1
      else groups.map (fun group => image group.1) ++ [image key] := by
  induction groups with
  | nil => rfl
  | cons first rest ih =>
      by_cases found : image first.1 = image key
      · rw [addToGroup, if_pos ((matches_iff _ _).mpr found)]
        simp [found]
      · rw [addToGroup, if_neg (by rwa [matches_iff]), List.map_cons, ih]
        have other : image key ≠ image first.1 := Ne.symm found
        simp only [List.map_cons, List.mem_cons, other, false_or]
        split <;> rfl

theorem members_addToGroup {groups : List (Key × List Element)} {key : Key} {element : Element}
    (distinct : (groups.map fun group => image group.1).Nodup) {group : Key × List Element}
    (member : group ∈ addToGroup matching groups key element) :
    (image group.1 = image key ∧ image key ∉ groups.map (fun group => image group.1) ∧
      group.2 = [element]) ∨
    ∃ old ∈ groups, group.1 = old.1 ∧
      group.2 = old.2 ++ if image old.1 = image key then [element] else [] := by
  induction groups with
  | nil =>
      rw [addToGroup, List.mem_singleton] at member
      subst member
      exact .inl ⟨rfl, by simp, rfl⟩
  | cons first rest ih =>
      rw [List.map_cons, List.nodup_cons] at distinct
      rw [addToGroup] at member
      by_cases found : image first.1 = image key
      · rw [if_pos ((matches_iff _ _).mpr found)] at member
        rcases List.mem_cons.mp member with rfl | inRest
        · exact .inr ⟨first, List.mem_cons_self, rfl, by simp [found]⟩
        · have other : image group.1 ≠ image key := by
            intro same
            exact distinct.1 (List.mem_map.mpr ⟨group, inRest, by rw [same, found]⟩)
          exact .inr ⟨group, List.mem_cons_of_mem _ inRest, rfl, by simp [other]⟩
      · rw [if_neg (by rwa [matches_iff])] at member
        rcases List.mem_cons.mp member with rfl | inRest
        · exact .inr ⟨group, List.mem_cons_self, rfl, by simp [found]⟩
        · rcases ih distinct.2 inRest with ⟨same, absent, only⟩ | ⟨old, isOld, same⟩
          · refine .inl ⟨same, ?_, only⟩
            simp [absent, Ne.symm found]
          · exact .inr ⟨old, List.mem_cons_of_mem _ isOld, same⟩

theorem GroupedBy.add {keyOf : Element → Key} {elements : List Element}
    {groups : List (Key × List Element)} (grouped : GroupedBy image keyOf elements groups)
    (element : Element) :
    GroupedBy image keyOf (elements ++ [element])
      (addToGroup matching groups (keyOf element) element) := by
  have images := map_addToGroup matches_iff groups (keyOf element) element
  constructor
  · intro group member
    rw [List.filter_append]
    rcases members_addToGroup matches_iff grouped.distinct member with
      ⟨same, absent, only⟩ | ⟨old, isOld, sameKey, elementsOf⟩
    · -- a new entry: no earlier element has this image
      have earlier : elements.filter (fun other => image (keyOf other) = image group.1) = [] := by
        rw [List.filter_eq_nil_iff]
        intro other isOther sameImage
        obtain ⟨entry, isEntry, entryImage⟩ := grouped.covered other isOther
        rw [decide_eq_true_eq, same] at sameImage
        exact absent (List.mem_map.mpr ⟨entry, isEntry, entryImage.trans sameImage⟩)
      rw [earlier, only]
      simp [same]
    · rw [elementsOf, sameKey, grouped.members old isOld]
      by_cases same : image old.1 = image (keyOf element)
      · simp [same]
      · simp [same, Ne.symm same]
  · rw [images]
    split
    · exact grouped.distinct
    · rename_i absent
      exact List.nodup_append.mpr ⟨grouped.distinct, by simp, by
        intro first isFirst second isSecond
        rw [List.mem_singleton.mp isSecond]
        rintro rfl
        exact absent isFirst⟩
  · intro other isOther
    have found : image (keyOf other) ∈
        (addToGroup matching groups (keyOf element) element).map fun group => image group.1 := by
      rw [images]
      rcases List.mem_append.mp isOther with old | new
      · obtain ⟨entry, isEntry, entryImage⟩ := grouped.covered other old
        have present : image (keyOf other) ∈ groups.map fun group => image group.1 :=
          List.mem_map.mpr ⟨entry, isEntry, entryImage⟩
        split
        · exact present
        · exact List.mem_append_left _ present
      · rw [List.mem_singleton.mp new]
        split
        · assumption
        · simp
    obtain ⟨entry, isEntry, entryImage⟩ := List.mem_map.mp found
    exact ⟨entry, isEntry, entryImage⟩

theorem groupedBy_foldl (keyOf : Element → Key) (elements : List Element) :
    GroupedBy image keyOf elements
      (elements.foldl (fun groups element => addToGroup matching groups (keyOf element) element)
        []) := by
  induction elements using List.reverseRecOn with
  | nil => exact ⟨by simp, by simp, by simp⟩
  | append_singleton elements element ih =>
      rw [List.foldl_append]
      exact ih.add matches_iff element

end Matching

theorem key_mem_foldl {matching : Key → Key → Bool} (keyOf : Element → Key)
    {elements : List Element} {group : Key × List Element}
    (member : group ∈ elements.foldl
      (fun groups element => addToGroup matching groups (keyOf element) element) []) :
    ∃ element ∈ elements, group.1 = keyOf element := by
  induction elements using List.reverseRecOn generalizing group with
  | nil => simp at member
  | append_singleton elements element ih =>
      rw [List.foldl_append] at member
      rcases mem_addToGroup_key member with isKey | ⟨old, isOld, same⟩
      · exact ⟨element, by simp, isKey⟩
      · obtain ⟨earlier, isEarlier, oldKey⟩ := ih isOld
        exact ⟨earlier, by simp [isEarlier], same.trans oldKey⟩

/-- Keys that all differ split a list among them if each element has its key there. -/
theorem perm_flatMap_filter (keyOf : Element → Image) {keys : List Image} (distinct : keys.Nodup)
    {elements : List Element} (covered : ∀ element ∈ elements, keyOf element ∈ keys) :
    (keys.flatMap fun key => elements.filter fun element => keyOf element = key).Perm elements := by
  induction keys generalizing elements with
  | nil =>
      have empty : elements = [] := by
        refine List.eq_nil_iff_forall_not_mem.mpr fun element member => ?_
        cases covered element member
      rw [empty]
      exact .refl _
  | cons key keys ih =>
      obtain ⟨absent, distinct⟩ := List.nodup_cons.mp distinct
      have others : ∀ element ∈ elements.filter fun element => ¬keyOf element = key,
          keyOf element ∈ keys := by
        intro element member
        obtain ⟨inside, other⟩ := List.mem_filter.mp member
        exact (List.mem_cons.mp (covered element inside)).resolve_left (of_decide_eq_true other)
      have rest : (keys.flatMap fun later => elements.filter fun element => keyOf element = later) =
          keys.flatMap fun later =>
            (elements.filter fun element => ¬keyOf element = key).filter
              fun element => keyOf element = later := by
        refine List.flatMap_congr fun later member => ?_
        rw [List.filter_filter]
        refine List.filter_congr fun element _ => ?_
        by_cases same : keyOf element = later
        · have differ : later ≠ key := fun same => absent (same ▸ member)
          simp [same, differ]
        · simp [same]
      rw [List.flatMap_cons, rest]
      refine ((ih distinct others).append_left _).trans ?_
      have split := List.filter_append_perm (fun element => decide (keyOf element = key)) elements
      simpa only [decide_not] using split

end Xpedite.Lib
