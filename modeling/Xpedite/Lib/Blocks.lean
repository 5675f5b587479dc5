import Mathlib.Data.List.Basic

/-!
Blocks of one width laid out one after the other, and reading one of them back.
-/

namespace Xpedite.Lib

variable {α : Type}

theorem length_flatten_blocks {blocks : List (List α)} {width : Nat}
    (sized : ∀ block ∈ blocks, block.length = width) :
    blocks.flatten.length = width * blocks.length := by
  induction blocks with
  | nil => rfl
  | cons block blocks ih =>
      have first := sized block List.mem_cons_self
      have others := ih fun other listed => sized other (List.mem_cons_of_mem block listed)
      rw [List.flatten_cons, List.length_append, first, others, List.length_cons, Nat.mul_succ,
        Nat.add_comm]

theorem take_drop_flatten {blocks : List (List α)} {width index : Nat} {block : List α}
    (sized : ∀ block ∈ blocks, block.length = width) (listed : blocks[index]? = some block)
    (rest : List α) :
    ((blocks.flatten ++ rest).drop (width * index)).take width = block := by
  induction blocks generalizing index with
  | nil => cases listed
  | cons first blocks ih =>
      have length := sized first List.mem_cons_self
      rw [List.flatten_cons, List.append_assoc]
      cases index with
      | zero =>
          obtain rfl : first = block := Option.some_inj.mp listed
          rw [Nat.mul_zero, List.drop_zero, List.take_left' length]
      | succ index =>
          have others : ∀ block ∈ blocks, block.length = width :=
            fun other inside => sized other (List.mem_cons_of_mem first inside)
          have shift : width * (index + 1) = first.length + width * index := by
            rw [length, Nat.mul_succ, Nat.add_comm]
          rw [shift, List.drop_length_add_append]
          exact ih others listed

theorem take_drop_blocks {front rest : List α} {blocks : List (List α)} {start width index : Nat}
    {block : List α} (before : front.length = start)
    (sized : ∀ block ∈ blocks, block.length = width) (listed : blocks[index]? = some block) :
    ((front ++ (blocks.flatten ++ rest)).drop (start + width * index)).take width = block := by
  rw [← before, List.drop_length_add_append]
  exact take_drop_flatten sized listed rest

theorem getD_of_take_drop {elements block : List α} {start width offset : Nat} (default : α)
    (read : (elements.drop start).take width = block) (inside : offset < width) :
    elements.getD (start + offset) default = block.getD offset default := by
  rw [← read, List.getD_eq_getElem?_getD, List.getD_eq_getElem?_getD,
    List.getElem?_take_of_lt inside, List.getElem?_drop]

theorem mapM_eq_some_map {β : Type} {f : α → Option β} {g : α → β} {elements : List α}
    (each : ∀ element ∈ elements, f element = some (g element)) :
    elements.mapM f = some (elements.map g) := by
  induction elements with
  | nil => rfl
  | cons element elements ih =>
      have first := each element List.mem_cons_self
      have others := ih fun other listed => each other (List.mem_cons_of_mem element listed)
      rw [List.mapM_cons, first, others]
      rfl

theorem mapM_congr_of_mem {β : Type} {f g : α → Option β} {elements : List α}
    (same : ∀ element ∈ elements, f element = g element) : elements.mapM f = elements.mapM g := by
  induction elements with
  | nil => rfl
  | cons element elements ih =>
      have others := ih fun other listed => same other (List.mem_cons_of_mem element listed)
      rw [List.mapM_cons, List.mapM_cons, same element List.mem_cons_self, others]

theorem mapM_id_map_some (elements : List α) : (elements.map some).mapM id = some elements := by
  induction elements with
  | nil => rfl
  | cons element elements ih =>
      rw [List.map_cons, List.mapM_cons, ih]
      rfl

theorem isSome_mapM_iff {β : Type} (f : α → Option β) (elements : List α) :
    (elements.mapM f).isSome = true ↔ ∀ element ∈ elements, (f element).isSome = true := by
  induction elements with
  | nil => simp
  | cons element elements ih =>
      rw [List.mapM_cons, List.forall_mem_cons, ← ih]
      cases first : f element with
      | none => simp
      | some value =>
          cases rest : elements.mapM f with
          | none => simp
          | some values => simp

end Xpedite.Lib
