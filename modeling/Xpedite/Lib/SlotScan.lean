import Mathlib.Data.Finset.Card
import Mathlib.Logic.Function.Basic

/-!
Processes that look for a free slot from the first slot on.  A process takes the slot it looks
at if that one is free, and goes on to the next one otherwise.  Whatever the order of their
moves, a process never gets past as many slots as there are processes.
-/

namespace Xpedite.Lib

inductive Place where
  | outside
  | trying (slot : Nat)
  | holding (slot : Nat)
  deriving DecidableEq

namespace Place

def reaches : Place → Nat → Bool
  | outside, _ => false
  | trying slot, level => level ≤ slot
  | holding slot, level => level ≤ slot

@[simp] theorem not_reaches_outside (level : Nat) : ¬outside.reaches level = true :=
  Bool.false_ne_true

@[simp] theorem reaches_trying (slot level : Nat) :
    (trying slot).reaches level = true ↔ level ≤ slot :=
  decide_eq_true_iff

@[simp] theorem reaches_holding (slot level : Nat) :
    (holding slot).reaches level = true ↔ level ≤ slot :=
  decide_eq_true_iff

end Place

open Place

variable {Process : Type}

inductive Move (places : Process → Place) (process : Process) : Place → Prop
  | enter : places process = outside → Move places process (trying 0)
  | pass {slot : Nat} {other : Process} : places process = trying slot →
      places other = holding slot → Move places process (trying (slot + 1))
  | take {slot : Nat} : places process = trying slot → (∀ other, places other ≠ holding slot) →
      Move places process (holding slot)
  | leave {slot : Nat} : places process = holding slot → Move places process outside

def reaching (participants : Finset Process) (places : Process → Place) (level : Nat) :
    Finset Process :=
  participants.filter fun process => (places process).reaches level

structure Orderly (participants : Finset Process) (places : Process → Place) : Prop where
  participating : ∀ process, places process ≠ outside → process ∈ participants
  exclusive : ∀ first second slot, places first = holding slot → places second = holding slot →
    first = second
  crowd : ∀ level, (reaching participants places level).card ≤ participants.card - level

theorem orderly_outside (participants : Finset Process) :
    Orderly participants fun _ => outside where
  participating := fun _ moved => absurd rfl moved
  exclusive := fun _ _ _ held => by cases held
  crowd := fun level => by simp [reaching, reaches]

theorem Orderly.lt_card {participants : Finset Process} {places : Process → Place}
    (orderly : Orderly participants places) {process : Process} {slot : Nat}
    (reached : (places process).reaches slot = true) : slot < participants.card := by
  have moved : places process ≠ outside := by
    intro isOutside
    rw [isOutside] at reached
    cases reached
  have member : process ∈ reaching participants places slot :=
    Finset.mem_filter.mpr ⟨orderly.participating process moved, reached⟩
  have positive := Finset.card_pos.mpr ⟨process, member⟩
  have few := orderly.crowd slot
  omega

section Update

variable [DecidableEq Process] {participants : Finset Process} {places : Process → Place}
  {process : Process} {place : Place}

theorem reaching_update_subset {level : Nat}
    (kept : place.reaches level = true → (places process).reaches level = true) :
    reaching participants (Function.update places process place) level ⊆
      reaching participants places level := by
  intro other member
  obtain ⟨participates, reached⟩ := Finset.mem_filter.mp member
  refine Finset.mem_filter.mpr ⟨participates, ?_⟩
  by_cases own : other = process
  · subst own
    rw [Function.update_self] at reached
    exact kept reached
  · rwa [Function.update_of_ne own] at reached

/-- The process that passes leaves behind the one that holds the slot. -/
theorem reaching_pass_subset {other : Process} {slot : Nat} (tries : places process = trying slot)
    (held : places other = holding slot) :
    reaching participants (Function.update places process (trying (slot + 1))) (slot + 1) ⊆
      (reaching participants places slot).erase other := by
  intro third member
  obtain ⟨participates, reached⟩ := Finset.mem_filter.mp member
  have differ : third ≠ other := by
    rintro rfl
    have notProcess : third ≠ process := by
      rintro rfl
      rw [tries] at held
      cases held
    rw [Function.update_of_ne notProcess, held, reaches_holding] at reached
    omega
  refine Finset.mem_erase.mpr ⟨differ, Finset.mem_filter.mpr ⟨participates, ?_⟩⟩
  by_cases own : third = process
  · rw [own, tries, reaches_trying]
  · rw [Function.update_of_ne own] at reached
    cases position : places third <;> rw [position] at reached <;> simp at reached ⊢
    all_goals omega

theorem Orderly.crowd_move (orderly : Orderly participants places)
    (moves : Move places process place) (level : Nat) :
    (reaching participants (Function.update places process place) level).card ≤
      participants.card - level := by
  cases moves with
  | enter =>
      cases level with
      | zero => exact Finset.card_le_card (Finset.filter_subset _ _)
      | succ level =>
          refine (Finset.card_le_card (reaching_update_subset ?_)).trans (orderly.crowd _)
          intro reached
          rw [reaches_trying] at reached
          omega
  | @pass slot other tries held =>
      by_cases next : level = slot + 1
      · subst next
        have present : other ∈ reaching participants places slot := by
          refine Finset.mem_filter.mpr ⟨orderly.participating other ?_, ?_⟩ <;> simp [held]
        have fewer := Finset.card_le_card
          (@reaching_pass_subset _ _ participants _ _ _ _ tries held)
        have few := orderly.crowd slot
        rw [Finset.card_erase_of_mem present] at fewer
        omega
      · refine (Finset.card_le_card (reaching_update_subset ?_)).trans (orderly.crowd _)
        intro reached
        rw [reaches_trying] at reached
        rw [tries, reaches_trying]
        omega
  | take tries =>
      refine (Finset.card_le_card (reaching_update_subset ?_)).trans (orderly.crowd _)
      rw [tries]
      exact id
  | leave =>
      refine (Finset.card_le_card (reaching_update_subset ?_)).trans (orderly.crowd _)
      intro reached
      cases reached

theorem Orderly.exclusive_move (orderly : Orderly participants places)
    (moves : Move places process place) (first second : Process) (slot : Nat)
    (holdsFirst : Function.update places process place first = holding slot)
    (holdsSecond : Function.update places process place second = holding slot) :
    first = second := by
  have unheld : place = holding slot → ∀ other, places other ≠ holding slot := by
    rintro rfl
    cases moves with
    | take _ free => exact free
  by_cases ownFirst : first = process
  · by_cases ownSecond : second = process
    · rw [ownFirst, ownSecond]
    · rw [ownFirst, Function.update_self] at holdsFirst
      rw [Function.update_of_ne ownSecond] at holdsSecond
      exact absurd holdsSecond (unheld holdsFirst second)
  · rw [Function.update_of_ne ownFirst] at holdsFirst
    by_cases ownSecond : second = process
    · rw [ownSecond, Function.update_self] at holdsSecond
      exact absurd holdsFirst (unheld holdsSecond first)
    · rw [Function.update_of_ne ownSecond] at holdsSecond
      exact orderly.exclusive first second slot holdsFirst holdsSecond

theorem Orderly.move (orderly : Orderly participants places) (member : process ∈ participants)
    (moves : Move places process place) :
    Orderly participants (Function.update places process place) where
  participating := by
    intro other moved
    by_cases own : other = process
    · rwa [own]
    · rw [Function.update_of_ne own] at moved
      exact orderly.participating other moved
  exclusive := orderly.exclusive_move moves
  crowd := orderly.crowd_move moves

end Update

end Xpedite.Lib
