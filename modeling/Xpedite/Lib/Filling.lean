import Mathlib.Algebra.Ring.Nat
import Mathlib.Data.List.Basic

/-!
Items of different sizes are put one behind the other for as long as the next one starts
within some room.  The last of them may end beyond it.
-/

namespace Xpedite.Lib

variable {α : Type} (size : α → Nat)

def total (items : List α) : Nat := (items.map size).sum

def Packs : Nat → List α → Prop
  | _, [] => True
  | room, item :: rest => 0 < room ∧ Packs (room - size item) rest

def places : Nat → List α → List Nat
  | _, [] => []
  | start, item :: rest => start :: places (start + size item) rest

variable {size} {room start : Nat} {items : List α}

@[simp] theorem total_nil : total size [] = 0 := rfl

@[simp] theorem total_cons (item : α) (rest : List α) :
    total size (item :: rest) = size item + total size rest := by
  rw [total, List.map_cons, List.sum_cons, total]

@[simp] theorem total_append (front back : List α) :
    total size (front ++ back) = total size front + total size back := by
  rw [total, List.map_append, List.sum_append, total, total]

theorem packs_snoc (item : α) :
    Packs size room (items ++ [item]) ↔ Packs size room items ∧ total size items < room := by
  induction items generalizing room with
  | nil => simp [Packs]
  | cons first rest ih =>
      rw [List.cons_append, Packs, Packs, ih, total_cons]
      constructor
      · rintro ⟨room, packs, less⟩
        exact ⟨⟨room, packs⟩, by omega⟩
      · rintro ⟨⟨room, packs⟩, less⟩
        exact ⟨room, packs, by omega⟩

/-- Only the last item can lead out of the room. -/
theorem Packs.total_lt {most : Nat} (small : ∀ item, size item ≤ most) (positive : 0 < room + most)
    (packs : Packs size room items) : total size items < room + most := by
  induction items generalizing room with
  | nil => rwa [total_nil]
  | cons first rest ih =>
      obtain ⟨inside, packs⟩ := packs
      have bound := small first
      rw [total_cons]
      cases rest with
      | nil =>
          rw [total_nil]
          omega
      | cons second others =>
          have later := ih (by omega) packs
          have room := packs.1
          omega

theorem lt_of_mem_places (packs : Packs size room items) {place : Nat}
    (listed : place ∈ places size start items) : place < start + room := by
  induction items generalizing room start with
  | nil => cases listed
  | cons first rest ih =>
      obtain ⟨inside, packs⟩ := packs
      rcases List.mem_cons.mp listed with rfl | later
      · omega
      · cases rest with
        | nil => cases later
        | cons second others =>
            have bound := ih packs later
            have room := packs.1
            omega

end Xpedite.Lib
