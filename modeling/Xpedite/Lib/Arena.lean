import Mathlib.Logic.Function.Basic

/-!
An arena of mutable objects.  References are natural numbers handed out in order
of creation; `size` is the next reference.  The arena models object identity:
two references are the same object exactly when they are equal.
-/

namespace Xpedite.Lib

structure Arena (α : Type) where
  cell : Nat → α
  size : Nat

namespace Arena

variable {α : Type}

def empty (value : α) : Arena α := ⟨fun _ => value, 0⟩

def alloc (arena : Arena α) (value : α) : Arena α :=
  ⟨Function.update arena.cell arena.size value, arena.size + 1⟩

def modify (arena : Arena α) (ref : Nat) (change : α → α) : Arena α :=
  ⟨Function.update arena.cell ref (change (arena.cell ref)), arena.size⟩

@[simp] theorem size_alloc (arena : Arena α) (value : α) :
    (arena.alloc value).size = arena.size + 1 := rfl

@[simp] theorem size_modify (arena : Arena α) (ref : Nat) (change : α → α) :
    (arena.modify ref change).size = arena.size := rfl

@[simp] theorem cell_alloc_fresh (arena : Arena α) (value : α) :
    (arena.alloc value).cell arena.size = value := by
  simp [alloc]

theorem cell_alloc_of_ne (arena : Arena α) (value : α) {ref : Nat} (old : ref ≠ arena.size) :
    (arena.alloc value).cell ref = arena.cell ref := by
  simp [alloc, old]

theorem cell_alloc_of_lt (arena : Arena α) (value : α) {ref : Nat} (old : ref < arena.size) :
    (arena.alloc value).cell ref = arena.cell ref :=
  cell_alloc_of_ne arena value (by omega)

@[simp] theorem cell_modify_self (arena : Arena α) (ref : Nat) (change : α → α) :
    (arena.modify ref change).cell ref = change (arena.cell ref) := by
  simp [modify]

theorem cell_modify_of_ne (arena : Arena α) {ref other : Nat} (change : α → α)
    (different : other ≠ ref) : (arena.modify ref change).cell other = arena.cell other := by
  simp [modify, different]

theorem modify_id (arena : Arena α) (ref : Nat) (change : α → α)
    (fixed : change (arena.cell ref) = arena.cell ref) : arena.modify ref change = arena := by
  simp [modify, fixed]

theorem modify_modify (arena : Arena α) (ref : Nat) (first second : α → α) :
    (arena.modify ref first).modify ref second = arena.modify ref fun value => second (first value) := by
  simp [modify]

end Arena

end Xpedite.Lib
