import Mathlib.Data.List.Basic

/-!
`std::upper_bound` on a vector, as the halving search it is.  In a list whose elements above a
value all stand behind the others it finds the first of them.
-/

namespace Xpedite.Lib

variable {α : Type}

/-- The search in the part of that length from a position on; each round makes it shorter. -/
def searchAbove (above : α → Bool) (elements : List α) : Nat → Nat → Nat → Nat
  | 0, first, _ => first
  | rounds + 1, first, length =>
      if length = 0 then first
      else
        let half := length / 2
        if (elements[first + half]?).any above then searchAbove above elements rounds first half
        else searchAbove above elements rounds (first + half + 1) (length - half - 1)

def upperBound (above : α → Bool) (elements : List α) : Nat :=
  searchAbove above elements elements.length 0 elements.length

def emplace (position : Nat) (element : α) (elements : List α) : List α :=
  elements.take position ++ element :: elements.drop position

structure Divides (above : α → Bool) (elements : List α) (position : Nat) : Prop where
  inside : position ≤ elements.length
  below : ∀ index < position, ∀ element, elements[index]? = some element → above element = false
  above : ∀ index, position ≤ index → ∀ element, elements[index]? = some element →
    above element = true

theorem searchAbove_divides {above : α → Bool} {elements : List α}
    (partitioned : elements.Pairwise fun left right => above left → above right)
    {rounds first length : Nat} (enough : length ≤ rounds) (inside : first + length ≤ elements.length)
    (below : ∀ index < first, ∀ element, elements[index]? = some element → above element = false)
    (later : ∀ index, first + length ≤ index → ∀ element, elements[index]? = some element →
      above element = true) :
    Divides above elements (searchAbove above elements rounds first length) := by
  have ordered := List.pairwise_iff_getElem.mp partitioned
  induction rounds generalizing first length with
  | zero =>
      obtain rfl := Nat.le_zero.mp enough
      exact ⟨inside, below, later⟩
  | succ rounds ih =>
      rw [searchAbove]
      by_cases empty : length = 0
      · subst empty
        rw [if_pos rfl]
        exact ⟨inside, below, later⟩
      · have middle : first + length / 2 < elements.length := by omega
        rw [if_neg empty]
        dsimp only
        rw [List.getElem?_eq_getElem middle, Option.any_some]
        by_cases found : above elements[first + length / 2] = true
        · rw [if_pos found]
          refine ih (by omega) (by omega) below fun index behind element here => ?_
          obtain ⟨bound, rfl⟩ := List.getElem?_eq_some_iff.mp here
          rcases Nat.eq_or_lt_of_le behind with rfl | behind
          · exact found
          · exact ordered _ _ middle bound behind found
        · rw [if_neg found]
          refine ih (by omega) (by omega) (fun index before element here => ?_)
            fun index behind element here => later index (by omega) element here
          obtain ⟨bound, rfl⟩ := List.getElem?_eq_some_iff.mp here
          rcases Nat.eq_or_lt_of_le (Nat.le_of_lt_succ before) with rfl | before
          · exact Bool.eq_false_iff.mpr found
          · exact Bool.eq_false_iff.mpr fun earlier =>
              found (ordered _ _ bound middle before earlier)

theorem upperBound_divides {above : α → Bool} {elements : List α}
    (partitioned : elements.Pairwise fun left right => above left → above right) :
    Divides above elements (upperBound above elements) := by
  apply searchAbove_divides partitioned (Nat.le_refl _)
  · exact Nat.le_of_eq (Nat.zero_add _)
  · intro index impossible
    omega
  · intro index behind element here
    obtain ⟨bound, -⟩ := List.getElem?_eq_some_iff.mp here
    omega

theorem searchAbove_map {β : Type} (above : β → Bool) (f : α → β) (elements : List α)
    (rounds first length : Nat) :
    searchAbove above (elements.map f) rounds first length =
      searchAbove (fun element => above (f element)) elements rounds first length := by
  induction rounds generalizing first length with
  | zero => rfl
  | succ rounds ih =>
      rw [searchAbove, searchAbove]
      simp only [List.getElem?_map, Option.any_map, ih]

theorem upperBound_map {β : Type} (above : β → Bool) (f : α → β) (elements : List α) :
    upperBound above (elements.map f) = upperBound (fun element => above (f element)) elements := by
  rw [upperBound, upperBound, List.length_map, searchAbove_map]

theorem map_emplace {β : Type} (f : α → β) (position : Nat) (element : α) (elements : List α) :
    (emplace position element elements).map f = emplace position (f element) (elements.map f) := by
  rw [emplace, emplace, List.map_append, List.map_cons, List.map_take, List.map_drop]

namespace Divides

variable {above : α → Bool} {elements : List α} {position : Nat}

theorem of_mem_take (divides : Divides above elements position) {element : α}
    (member : element ∈ elements.take position) : above element = false := by
  obtain ⟨index, bound, rfl⟩ := List.mem_take_iff_getElem.mp member
  exact divides.below index (by omega) _ (List.getElem?_eq_getElem _)

theorem of_mem_drop (divides : Divides above elements position) {element : α}
    (member : element ∈ elements.drop position) : above element = true := by
  obtain ⟨index, bound, rfl⟩ := List.mem_drop_iff_getElem.mp member
  exact divides.above (position + index) (Nat.le_add_right _ _) _ (List.getElem?_eq_getElem _)

end Divides

theorem getElem?_emplace {position : Nat} {elements : List α} (inside : position ≤ elements.length)
    (element : α) : (emplace position element elements)[position]? = some element := by
  have length : (elements.take position).length = position := List.length_take_of_le inside
  rw [emplace, List.getElem?_append_right (Nat.le_of_eq length), length, Nat.sub_self]
  rfl

theorem mem_emplace {position : Nat} {elements : List α} {element other : α} :
    other ∈ emplace position element elements ↔ other = element ∨ other ∈ elements := by
  rw [emplace, List.mem_append, List.mem_cons, or_left_comm, ← List.mem_append,
    List.take_append_drop]

theorem pairwise_emplace {relation : α → α → Prop} {position : Nat} {elements : List α} {element : α}
    (ordered : elements.Pairwise relation)
    (before : ∀ other ∈ elements.take position, relation other element)
    (behind : ∀ other ∈ elements.drop position, relation element other) :
    (emplace position element elements).Pairwise relation := by
  rw [← List.take_append_drop position elements, List.pairwise_append] at ordered
  rw [emplace, List.pairwise_append, List.pairwise_cons]
  refine ⟨ordered.1, ⟨behind, ordered.2.1⟩, fun left first right second => ?_⟩
  rcases List.mem_cons.mp second with rfl | second
  · exact before left first
  · exact ordered.2.2 left first right second

end Xpedite.Lib
