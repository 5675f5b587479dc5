import Mathlib.Data.List.Induction
import Xpedite.Lib.Arena
import Xpedite.Profiler.Allocation

/-!
The register allocator with its sets as objects.  An `Allocatable` holds a deep copy of
its constraint, which `discard` changes in place; requests for the same event share
the set of that event.
-/

namespace Xpedite.Profiler

open Lib

/-- Set objects, each as the list of its elements in the order in which they are iterated. -/
abbrev Sets : Type := Arena (List Nat)

structure AllocatableObject where
  index : Nat
  «constraint» : Nat

structure AllocatorObject where
  sets : Sets
  allocatables : List AllocatableObject
  slots : List (Option Nat)
  allocation : List (Option Nat)

namespace AllocatorObject

def addAllocatable (made : Sets × List AllocatableObject) (entry : Nat × Nat) :
    Sets × List AllocatableObject :=
  (made.1.alloc (made.1.cell entry.1), made.2 ++ [⟨entry.2, made.1.size⟩])

def new (sets : Sets) (constraints : List Nat) : Option AllocatorObject :=
  let (copied, allocatables) := constraints.zipIdx.foldl addAllocatable (sets, [])
  (constraints.mapM fun ref => (copied.cell ref).max?).bind fun greatest =>
    greatest.max?.map fun maxIndex =>
      { sets := copied
        allocatables := allocatables
        slots := List.replicate (maxIndex + 1) none
        allocation := List.replicate constraints.length none }

def slotCount (allocator : AllocatorObject) : Nat := allocator.slots.length

/-- The first part is what the sets are like afterwards. -/
def allocate : Nat → AllocatorObject → Sets × Option (List (Option Nat))
  | 0, allocator => (allocator.sets, none)
  | remaining + 1, allocator =>
      let sets := allocator.sets
      let sorted := allocator.allocatables.insertionSort fun first second =>
        (sets.cell second.constraint).length ≤ (sets.cell first.constraint).length
      match sorted.getLast? with
      | none => (sets, none)
      | some allocatable =>
          match (sets.cell allocatable.constraint).find? fun cn => allocator.slots[cn]? == some none with
          | none => (sets, none)
          | some cn =>
              let slots := allocator.slots.set cn (some allocatable.index)
              let allocation := allocator.allocation.set allocatable.index (some cn)
              match sorted.dropLast with
              | [] => (sets, some allocation)
              | first :: others =>
                  let discarded := sets.modify first.constraint fun indices => indices.erase cn
                  allocate remaining ⟨discarded, first :: others, slots, allocation⟩

end AllocatorObject

/-- A generic request; `validPmc` is the set object of its event. -/
structure RequestObject where
  request : GenericPmuRequest
  validPmc : Nat

namespace RequestObject

def isSorted (sets : Sets) (requests : List RequestObject) : Bool :=
  requests.zipIdx.all fun (request, index) => (sets.cell request.validPmc).contains index

def place (requests : List RequestObject) (allocation : List (Option Nat)) :
    List (Option RequestObject) :=
  (requests.zip allocation).foldl
    (fun sorted (request, slot) => sorted.set (slot.getD (requests.length - 1)) (some request))
    (List.replicate requests.length none)

def sort (sets : Sets) (requests : List RequestObject) :
    Except PmuError (Sets × Option (List (Option RequestObject))) :=
  if isSorted sets requests then .ok (sets, some (requests.map some))
  else
    match AllocatorObject.new sets (requests.map RequestObject.validPmc) with
    | none => .error .noValidPmc
    | some allocator =>
        if allocator.slotCount = requests.length then
          let (left, allocation) := allocator.allocate requests.length
          .ok (left, allocation.map (place requests))
        else .ok (allocator.sets, none)

end RequestObject

namespace AllocatorObject

def value (sets : Sets) (allocatable : AllocatableObject) : Allocatable :=
  ⟨allocatable.index, sets.cell allocatable.constraint⟩

def read (allocator : AllocatorObject) : Allocator where
  allocatables := allocator.allocatables.map (value allocator.sets)
  slots := allocator.slots
  allocation := allocator.allocation

structure Own (before : Nat) (allocatables : List AllocatableObject) : Prop where
  distinct : (allocatables.map AllocatableObject.constraint).Nodup
  fresh : ∀ allocatable ∈ allocatables, before ≤ allocatable.constraint

theorem Own.perm {before : Nat} {allocatables others : List AllocatableObject}
    (own : Own before allocatables) (perm : others.Perm allocatables) : Own before others where
  distinct := (perm.map AllocatableObject.constraint).nodup_iff.mpr own.distinct
  fresh := fun allocatable member => own.fresh allocatable (perm.mem_iff.mp member)

theorem Own.sublist {before : Nat} {allocatables others : List AllocatableObject}
    (own : Own before allocatables) (sublist : others.Sublist allocatables) : Own before others where
  distinct := own.distinct.sublist (sublist.map AllocatableObject.constraint)
  fresh := fun allocatable member => own.fresh allocatable (sublist.subset member)

theorem map_value_modify {before : Nat} {first : AllocatableObject}
    {others : List AllocatableObject} (own : Own before (first :: others)) (sets : Sets) (cn : Nat) :
    (first :: others).map (value (sets.modify first.constraint fun indices => indices.erase cn)) =
      Allocator.narrow cn ((first :: others).map (value sets)) := by
  have apart := (List.nodup_cons.mp own.distinct).1
  rw [List.map_cons, List.map_cons, Allocator.narrow]
  congr 1
  · simp [value]
  · apply List.map_congr_left
    intro other member
    have different : other.constraint ≠ first.constraint :=
      fun same => apart (List.mem_map.mpr ⟨other, member, same⟩)
    rw [value, Arena.cell_modify_of_ne _ _ different, value]

def sorted (allocator : AllocatorObject) : List AllocatableObject :=
  allocator.allocatables.insertionSort fun first second =>
    (allocator.sets.cell second.constraint).length ≤ (allocator.sets.cell first.constraint).length

theorem sorted_read (allocator : AllocatorObject) :
    allocator.read.sorted = allocator.sorted.map (value allocator.sets) := by
  symm
  apply List.map_insertionSort
  exact fun _ _ _ _ => Iff.rfl

theorem allocate_succ (allocator : AllocatorObject) (remaining : Nat) :
    allocator.allocate (remaining + 1) =
      match allocator.sorted.getLast? with
      | none => (allocator.sets, none)
      | some allocatable =>
          match (allocator.sets.cell allocatable.constraint).find? (Allocator.isFree allocator.slots) with
          | none => (allocator.sets, none)
          | some cn =>
              match allocator.sorted.dropLast with
              | [] => (allocator.sets, some (allocator.allocation.set allocatable.index (some cn)))
              | first :: others =>
                  allocate remaining ⟨allocator.sets.modify first.constraint fun indices => indices.erase cn,
                    first :: others, allocator.slots.set cn (some allocatable.index),
                    allocator.allocation.set allocatable.index (some cn)⟩ := rfl

theorem allocate_read {before remaining : Nat} {allocator : AllocatorObject}
    (own : Own before allocator.allocatables) :
    (allocator.allocate remaining).2 = allocator.read.allocate remaining ∧
      ∀ ref < before, (allocator.allocate remaining).1.cell ref = allocator.sets.cell ref := by
  induction remaining generalizing allocator with
  | zero => exact ⟨rfl, fun _ _ => rfl⟩
  | succ remaining ih =>
      have ownSorted : Own before allocator.sorted := own.perm (List.perm_insertionSort _ _)
      rw [allocate_succ, Allocator.allocate_succ, Allocator.pick, sorted_read, List.getLast?_map]
      cases allocator.sorted.getLast? with
      | none => exact ⟨rfl, fun _ _ => rfl⟩
      | some allocatable =>
          have sameFind : (value allocator.sets allocatable).constraint.find?
              (Allocator.isFree allocator.read.slots) =
                (allocator.sets.cell allocatable.constraint).find? (Allocator.isFree allocator.slots) := rfl
          rw [Option.map_some, Option.bind_some, sameFind]
          dsimp only
          cases (allocator.sets.cell allocatable.constraint).find? (Allocator.isFree allocator.slots) with
          | none => exact ⟨rfl, fun _ _ => rfl⟩
          | some cn =>
              rw [Option.map_some, Option.bind_some]
              dsimp only
              simp only [Allocator.rest, sorted_read, ← List.map_dropLast]
              cases dropped : allocator.sorted.dropLast with
              | nil => exact ⟨rfl, fun _ _ => rfl⟩
              | cons first others =>
                  have ownRest : Own before (first :: others) :=
                    ownSorted.sublist (dropped ▸ List.dropLast_sublist _)
                  have narrowed := map_value_modify ownRest allocator.sets cn
                  obtain ⟨same, frame⟩ := @ih ⟨allocator.sets.modify first.constraint
                    fun indices => indices.erase cn, first :: others,
                    allocator.slots.set cn (some allocatable.index),
                    allocator.allocation.set allocatable.index (some cn)⟩ ownRest
                  constructor
                  · rw [same, read, narrowed]
                    rfl
                  · intro ref old
                    have different : ref ≠ first.constraint := by
                      have fresh := ownRest.fresh first List.mem_cons_self
                      omega
                    rw [frame ref old, Arena.cell_modify_of_ne _ _ different]

structure Copies (sets : Sets) (entries : List (Nat × Nat)) (made : Sets × List AllocatableObject) :
    Prop where
  grown : sets.size ≤ made.1.size
  kept : ∀ ref < sets.size, made.1.cell ref = sets.cell ref
  own : Own sets.size made.2
  copied : ∀ allocatable ∈ made.2, allocatable.constraint < made.1.size
  values : made.2.map (value made.1) = entries.map fun entry => ⟨entry.2, sets.cell entry.1⟩

theorem Copies.addAllocatable {sets : Sets} {entries : List (Nat × Nat)}
    {made : Sets × List AllocatableObject} (copies : Copies sets entries made) {entry : Nat × Nat}
    (allocated : entry.1 < sets.size) :
    Copies sets (entries ++ [entry]) (AllocatorObject.addAllocatable made entry) := by
  have grown := copies.grown
  constructor
  · exact grown.trans (Nat.le_succ _)
  · intro ref old
    rw [AllocatorObject.addAllocatable, Arena.cell_alloc_of_lt _ _ (by omega)]
    exact copies.kept ref old
  · constructor
    · simp only [AllocatorObject.addAllocatable, List.map_append, List.map_singleton]
      refine List.nodup_append.mpr ⟨copies.own.distinct, List.nodup_singleton _, ?_⟩
      rintro ref listed _ isNew rfl
      obtain ⟨allocatable, member, rfl⟩ := List.mem_map.mp listed
      have bound := copies.copied allocatable member
      rw [List.mem_singleton] at isNew
      omega
    · intro allocatable member
      rcases List.mem_append.mp member with old | isNew
      · exact copies.own.fresh allocatable old
      · rw [List.mem_singleton] at isNew
        exact isNew ▸ grown
  · intro allocatable member
    rw [AllocatorObject.addAllocatable, Arena.size_alloc]
    rcases List.mem_append.mp member with old | isNew
    · exact Nat.lt_succ_of_lt (copies.copied allocatable old)
    · rw [List.mem_singleton] at isNew
      exact isNew ▸ Nat.lt_succ_self _
  · simp only [AllocatorObject.addAllocatable, List.map_append, List.map_singleton]
    rw [← copies.values]
    congr 1
    · apply List.map_congr_left
      intro allocatable member
      rw [value, Arena.cell_alloc_of_lt _ _ (copies.copied allocatable member), value]
    · rw [value, Arena.cell_alloc_fresh, copies.kept _ allocated]

theorem copies_foldl (sets : Sets) (entries : List (Nat × Nat))
    (allocated : ∀ entry ∈ entries, entry.1 < sets.size) :
    Copies sets entries (entries.foldl AllocatorObject.addAllocatable (sets, [])) := by
  induction entries using List.reverseRecOn with
  | nil => exact ⟨Nat.le_refl _, fun _ _ => rfl, ⟨List.nodup_nil, by simp⟩, by simp, rfl⟩
  | append_singleton entries entry ih =>
      rw [List.foldl_append]
      exact (ih fun other member => allocated other (List.mem_append_left _ member)).addAllocatable
        (allocated entry (by simp))

theorem new_read {sets : Sets} {constraints : List Nat} {allocator : AllocatorObject}
    (allocated : ∀ ref ∈ constraints, ref < sets.size)
    (made : AllocatorObject.new sets constraints = some allocator) :
    Allocator.new (constraints.map sets.cell) = some allocator.read ∧
      Own sets.size allocator.allocatables ∧
      ∀ ref < sets.size, allocator.sets.cell ref = sets.cell ref := by
  have inRange : ∀ entry ∈ constraints.zipIdx, entry.1 < sets.size := by
    intro entry member
    exact allocated _ (List.mem_of_getElem? (List.mem_zipIdx_iff_getElem?.mp member))
  have copies := copies_foldl sets constraints.zipIdx inRange
  have sameMax : (constraints.mapM fun ref =>
      ((constraints.zipIdx.foldl addAllocatable (sets, [])).1.cell ref).max?) =
        (constraints.map sets.cell).mapM List.max? := by
    rw [List.mapM_map]
    apply mapM_congr_of_mem
    intro ref member
    rw [copies.kept ref (allocated ref member), Function.comp]
  simp only [AllocatorObject.new] at made
  rw [sameMax] at made
  simp only [Option.bind_eq_some_iff, Option.map_eq_some_iff] at made
  obtain ⟨greatest, found, maxIndex, isMax, rfl⟩ := made
  refine ⟨?_, copies.own, copies.kept⟩
  rw [Allocator.new, found, Option.bind_some, isMax, Option.map_some, Option.some.injEq, read]
  congr 1
  · rw [copies.values, List.zipIdx_map, List.map_map]
    rfl
  · rw [List.length_map]

end AllocatorObject

namespace RequestObject

theorem place_eq (requests : List RequestObject) (indices : List Nat) :
    place requests (indices.map some) =
      putAll (requests.zip indices) (List.replicate requests.length none) := by
  rw [place, putAll, List.zip_map_right, List.foldl_map]
  rfl

variable {sets : Sets}

theorem allocate_sound {constraints : List Nat} {allocator : AllocatorObject} {remaining : Nat}
    {left : Sets} {allocation : List (Option Nat)} (allocated : ∀ ref ∈ constraints, ref < sets.size)
    (made : AllocatorObject.new sets constraints = some allocator)
    (called : allocator.allocate remaining = (left, some allocation)) :
    (∃ indices, allocation = indices.map some ∧
      Allocator.Allocates (constraints.map sets.cell) allocator.slotCount indices) ∧
      ∀ ref < sets.size, left.cell ref = sets.cell ref := by
  obtain ⟨isNew, own, kept⟩ := AllocatorObject.new_read allocated made
  obtain ⟨same, frame⟩ := @AllocatorObject.allocate_read _ remaining _ own
  rw [called] at same frame
  refine ⟨Allocator.allocate_sound (Allocator.inv_new isNew) same.symm, ?_⟩
  intro ref old
  rw [frame ref old, kept ref old]

theorem sort_sound {requests : List RequestObject} {left : Sets}
    {sorted : List (Option RequestObject)}
    (allocated : ∀ request ∈ requests, request.validPmc < sets.size)
    (called : sort sets requests = .ok (left, some sorted)) :
    (∃ ordering : List RequestObject, sorted = ordering.map some ∧ ordering.Perm requests ∧
      ∀ (index : Nat) (request : RequestObject), ordering[index]? = some request →
        index ∈ sets.cell request.validPmc) ∧
      ∀ ref < sets.size, left.cell ref = sets.cell ref := by
  rw [sort] at called
  split at called
  · rename_i already
    rw [Except.ok.injEq, Prod.mk.injEq, Option.some.injEq] at called
    obtain ⟨rfl, rfl⟩ := called
    refine ⟨⟨requests, rfl, .refl _, ?_⟩, fun _ _ => rfl⟩
    intro index request found
    simp only [isSorted, List.all_eq_true, List.contains_iff_mem, Prod.forall,
      List.mem_zipIdx_iff_getElem?] at already
    exact already request index found
  · split at called
    · cases called
    · rename_i allocator made
      have inRange : ∀ ref ∈ requests.map RequestObject.validPmc, ref < sets.size := by
        intro ref member
        obtain ⟨request, isRequest, rfl⟩ := List.mem_map.mp member
        exact allocated request isRequest
      split at called
      · rename_i fits
        rw [Except.ok.injEq, Prod.mk.injEq, Option.map_eq_some_iff] at called
        obtain ⟨rfl, allocation, found, rfl⟩ := called
        obtain ⟨⟨indices, rfl, allocates⟩, kept⟩ :=
          allocate_sound inRange made (Prod.ext rfl found)
        rw [fits, List.map_map] at allocates
        refine ⟨?_, kept⟩
        rw [place_eq]
        exact putAll_allocates (sets.cell ∘ RequestObject.validPmc) requests allocates
      · cases called

/-- An allocation takes the counters out of the constraints and none twice, a sorted list permutes
the requests so that each can use the counter at its index, and neither changes a set. -/
theorem registers_sound (sets : Sets) :
    (∀ (constraints : List Nat) (allocator : AllocatorObject) (remaining : Nat) (left : Sets)
        (allocation : List (Option Nat)), (∀ ref ∈ constraints, ref < sets.size) →
      AllocatorObject.new sets constraints = some allocator →
      allocator.allocate remaining = (left, some allocation) →
      (∃ indices, allocation = indices.map some ∧
        Allocator.Allocates (constraints.map sets.cell) allocator.slotCount indices) ∧
        ∀ ref < sets.size, left.cell ref = sets.cell ref) ∧
    ∀ (requests : List RequestObject) (left : Sets) (sorted : List (Option RequestObject)),
      (∀ request ∈ requests, request.validPmc < sets.size) →
      sort sets requests = .ok (left, some sorted) →
      (∃ ordering : List RequestObject, sorted = ordering.map some ∧ ordering.Perm requests ∧
        ∀ (index : Nat) (request : RequestObject), ordering[index]? = some request →
          index ∈ sets.cell request.validPmc) ∧
        ∀ ref < sets.size, left.cell ref = sets.cell ref :=
  ⟨fun _ _ _ _ _ allocated made called => allocate_sound allocated made called,
    fun _ _ _ allocated called => sort_sound allocated called⟩

def twoSets : Sets := ((Arena.empty []).alloc [0, 1, 2]).alloc [0]

/-- Two requests share their set, the third can use counter 0 only. -/
def sharing : List RequestObject :=
  [⟨RequestSorter.requestOn [], 0⟩, ⟨RequestSorter.requestOn [], 0⟩,
    ⟨RequestSorter.requestOn [], 1⟩]

theorem registers_sound_sharing :
    (∃ (allocator : AllocatorObject) (left : Sets),
      AllocatorObject.new twoSets [0, 0, 1] = some allocator ∧
        allocator.allocate 3 = (left, some [some 1, some 2, some 0]) ∧
        ∀ ref < twoSets.size, left.cell ref = twoSets.cell ref) ∧
    ∃ (left : Sets) (ordering : List RequestObject),
      sort twoSets sharing = .ok (left, some (ordering.map some)) ∧ ordering.Perm sharing ∧
        ∀ ref < twoSets.size, left.cell ref = twoSets.cell ref := by
  obtain ⟨allocations, sortings⟩ := registers_sound twoSets
  constructor
  · have evaluated : (AllocatorObject.new twoSets [0, 0, 1]).map
        (fun allocator => (allocator.allocate 3).2) = some (some [some 1, some 2, some 0]) := by decide
    obtain ⟨allocator, made, called⟩ := Option.map_eq_some_iff.mp evaluated
    have kept := (allocations [0, 0, 1] allocator 3 (allocator.allocate 3).1 _ (by decide) made
      (Prod.ext rfl called)).2
    exact ⟨allocator, _, made, Prod.ext rfl called, kept⟩
  · obtain ⟨left, sorted, called⟩ : ∃ left sorted, sort twoSets sharing = .ok (left, some sorted) :=
      ⟨_, _, rfl⟩
    obtain ⟨⟨ordering, rfl, perm, _⟩, kept⟩ := sortings sharing left sorted (by decide) called
    exact ⟨left, ordering, called, perm, kept⟩

end RequestObject

end Xpedite.Profiler
