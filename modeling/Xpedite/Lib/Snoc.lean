import Mathlib.Data.List.Basic
import Mathlib.Data.List.Induction
import Mathlib.Data.List.Nodup

/-!
Lists that are known by their last element: splitting them at an element, looking
an element up, and going from positions to elements.
-/

namespace Xpedite.Lib

variable {α : Type*}

theorem snoc_eq_append_cons {xs before after : List α} {x y : α} :
    xs ++ [x] = before ++ y :: after ↔
      (after = [] ∧ xs = before ∧ x = y) ∨
        ∃ earlier, after = earlier ++ [x] ∧ xs = before ++ y :: earlier := by
  rcases List.eq_nil_or_concat after with rfl | ⟨earlier, final, rfl⟩
  · simp
  · rw [List.concat_eq_append, ← List.cons_append, ← List.append_assoc, List.append_singleton_inj]
    constructor
    · rintro ⟨start, rfl⟩
      exact .inr ⟨earlier, rfl, start⟩
    · rintro (⟨empty, _⟩ | ⟨other, same, start⟩)
      · simp at empty
      · obtain ⟨rfl, rfl⟩ := List.append_singleton_inj.mp same
        exact ⟨start, rfl⟩

theorem getElem?_snoc {xs : List α} {x y : α} {index : Nat} :
    (xs ++ [x])[index]? = some y ↔ xs[index]? = some y ∨ (index = xs.length ∧ x = y) := by
  rw [List.getElem?_append]
  split
  · rename_i old
    have notLast : index ≠ xs.length := by omega
    simp [notLast]
  · rename_i notOld
    have beyond : xs[index]? = none := List.getElem?_eq_none (by omega)
    rw [beyond]
    by_cases last : index = xs.length
    · simp [last]
    · have outside : [x][index - xs.length]? = none := List.getElem?_eq_none (by
        rw [List.length_singleton]
        omega)
      simp [outside, last]

theorem getElem?_snoc_of_ne {xs : List α} {x : α} {index : Nat} (notLast : index ≠ xs.length) :
    (xs ++ [x])[index]? = xs[index]? := by
  ext y
  rw [getElem?_snoc]
  simp [notLast]

/-- An item that comes once says where it comes from. -/
theorem index_eq_of_nodup_flatMap {β : Type*} {f : α → List β} {xs : List α}
    (once : (xs.flatMap f).Nodup) {first second : Nat} {x y : α} {item : β}
    (isFirst : xs[first]? = some x) (isSecond : xs[second]? = some y) (inFirst : item ∈ f x)
    (inSecond : item ∈ f y) : first = second := by
  have apart := List.pairwise_iff_getElem.mp (List.nodup_flatMap.mp once).2
  obtain ⟨boundFirst, rfl⟩ := List.getElem?_eq_some_iff.mp isFirst
  obtain ⟨boundSecond, rfl⟩ := List.getElem?_eq_some_iff.mp isSecond
  by_contra different
  rcases Nat.lt_or_gt_of_ne different with before | after
  · exact apart first second boundFirst boundSecond before inFirst inSecond
  · exact apart second first boundSecond boundFirst after inSecond inFirst

theorem map_findIdxs {β : Type*} {p : α → Bool} {f : Nat → β} {g : α → β} {xs : List α}
    (same : ∀ index x, xs[index]? = some x → f index = g x) :
    (xs.findIdxs p).map f = (xs.filter p).map g := by
  induction xs using List.reverseRecOn with
  | nil => rfl
  | append_singleton xs x ih =>
      have earlier := ih fun index y found => same index y (getElem?_snoc.mpr (.inl found))
      have final := same xs.length x (getElem?_snoc.mpr (.inr ⟨rfl, rfl⟩))
      rw [List.findIdxs_append, List.map_append, earlier, List.filter_append, List.map_append]
      cases holds : p x <;> simp [holds, final]

theorem getLastD_append {xs ys : List α} {x : α} :
    (xs ++ ys).getLastD x = ys.getLastD (xs.getLastD x) := by
  induction xs generalizing x with
  | nil => rfl
  | cons y xs ih => rw [List.cons_append, List.getLastD_cons, ih, List.getLastD_cons]

theorem eq_or_rel_getLastD {r : α → α → Prop} {xs : List α} {x y : α}
    (ordered : (x :: xs).Pairwise r) (listed : y ∈ x :: xs) :
    y = xs.getLastD x ∨ r y (xs.getLastD x) := by
  induction xs generalizing x with
  | nil => exact .inl (List.mem_singleton.mp listed)
  | cons first rest ih =>
      obtain ⟨before, others⟩ := List.pairwise_cons.mp ordered
      rw [List.getLastD_cons]
      rcases List.mem_cons.mp listed with rfl | later
      · exact .inr (before _ List.getLastD_mem_cons)
      · exact ih others later

end Xpedite.Lib
