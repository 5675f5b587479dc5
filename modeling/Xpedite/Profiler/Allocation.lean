import Mathlib.Data.List.NodupEquivFin
import Mathlib.Data.List.Perm.Basic
import Xpedite.Lib.Blocks
import Xpedite.Profiler.PmuRequestCore

/-!
What the register allocator guarantees when it returns.  It picks counters for the most
constrained events first and never takes a pick back.
-/

namespace Xpedite.Profiler

open Lib

namespace Allocator

def isFree (slots : List (Option Nat)) (cn : Nat) : Bool := slots[cn]? == some none

def sorted (allocator : Allocator) : List Allocatable :=
  allocator.allocatables.insertionSort
    fun first second => second.constraint.length ≤ first.constraint.length

/-- The event with the fewest counters to choose from, and the first of them that is free. -/
def pick (allocator : Allocator) : Option (Allocatable × Nat) :=
  allocator.sorted.getLast?.bind fun allocatable =>
    (allocatable.constraint.find? (isFree allocator.slots)).map fun cn => (allocatable, cn)

def narrow (cn : Nat) : List Allocatable → List Allocatable
  | [] => []
  | first :: others => { first with «constraint» := first.constraint.erase cn } :: others

def rest (allocator : Allocator) (allocatable : Allocatable) (cn : Nat) : Allocator where
  allocatables := narrow cn allocator.sorted.dropLast
  slots := allocator.slots.set cn (some allocatable.index)
  allocation := allocator.allocation.set allocatable.index (some cn)

theorem allocate_succ (allocator : Allocator) (remaining : Nat) :
    allocator.allocate (remaining + 1) =
      allocator.pick.bind fun (allocatable, cn) =>
        match (allocator.rest allocatable cn).allocatables with
        | [] => some (allocator.rest allocatable cn).allocation
        | _ :: _ => (allocator.rest allocatable cn).allocate remaining := by
  simp only [allocate, pick, rest, sorted]
  generalize allocator.allocatables.insertionSort
    (fun first second => second.constraint.length ≤ first.constraint.length) = ordered
  cases ordered.getLast? with
  | none => rfl
  | some allocatable =>
      simp only [Option.bind_some]
      have sameFree : (fun cn => allocator.slots[cn]? == some none) = isFree allocator.slots := rfl
      rw [sameFree]
      cases allocatable.constraint.find? (isFree allocator.slots) with
      | none => rfl
      | some cn => cases ordered.dropLast <;> rfl

theorem mem_narrow {cn : Nat} {allocatables : List Allocatable} {allocatable : Allocatable}
    (member : allocatable ∈ narrow cn allocatables) :
    ∃ wider ∈ allocatables, allocatable = wider ∨
      allocatable = { wider with «constraint» := wider.constraint.erase cn } := by
  cases allocatables with
  | nil => simp [narrow] at member
  | cons first others =>
      rcases List.mem_cons.mp member with rfl | isOther
      · exact ⟨first, List.mem_cons_self, .inr rfl⟩
      · exact ⟨allocatable, List.mem_cons_of_mem _ isOther, .inl rfl⟩

theorem map_index_narrow (cn : Nat) (allocatables : List Allocatable) :
    (narrow cn allocatables).map Allocatable.index = allocatables.map Allocatable.index := by
  cases allocatables <;> rfl

theorem sorted_perm (allocator : Allocator) : allocator.sorted.Perm allocator.allocatables :=
  List.perm_insertionSort _ _

structure Picks (allocator : Allocator) (allocatable : Allocatable) (cn : Nat) : Prop where
  last : allocator.sorted.dropLast ++ [allocatable] = allocator.sorted
  listed : cn ∈ allocatable.constraint
  free : allocator.slots[cn]? = some none

theorem pick_eq_some {allocator : Allocator} {allocatable : Allocatable} {cn : Nat}
    (picked : allocator.pick = some (allocatable, cn)) : Picks allocator allocatable cn := by
  simp only [pick, Option.bind_eq_some_iff, Option.map_eq_some_iff, Prod.mk.injEq] at picked
  obtain ⟨last, isLast, found, isFound, rfl, rfl⟩ := picked
  have ends : allocator.sorted.dropLast ++ [last] = allocator.sorted :=
    List.dropLast_append_getLast? last isLast
  exact ⟨ends, List.mem_of_find?_eq_some isFound, by simpa [isFree] using List.find?_some isFound⟩

theorem Picks.split {allocator : Allocator} {allocatable : Allocatable} {cn : Nat}
    (picks : Picks allocator allocatable cn) :
    (allocatable :: allocator.sorted.dropLast).Perm allocator.allocatables := by
  have perm := allocator.sorted_perm
  rw [← picks.last] at perm
  exact List.perm_append_comm.trans perm

theorem exists_pick {allocator : Allocator} (nonempty : allocator.allocatables ≠ [])
    (available : ∀ allocatable ∈ allocator.allocatables, ∃ cn ∈ allocatable.constraint,
      allocator.slots[cn]? = some none) :
    ∃ allocatable cn, allocator.pick = some (allocatable, cn) := by
  have sortedNonempty : allocator.sorted ≠ [] := by
    intro empty
    have perm := allocator.sorted_perm
    rw [empty] at perm
    exact nonempty (List.nil_perm.mp perm)
  have member := allocator.sorted_perm.mem_iff.mp (List.getLast_mem sortedNonempty)
  obtain ⟨cn, listed, free⟩ := available _ member
  have found : ((allocator.sorted.getLast sortedNonempty).constraint.find?
      (isFree allocator.slots)).isSome := by
    rw [List.find?_isSome]
    exact ⟨cn, listed, by simp [isFree, free]⟩
  obtain ⟨first, isFirst⟩ := Option.isSome_iff_exists.mp found
  refine ⟨allocator.sorted.getLast sortedNonempty, first, ?_⟩
  rw [pick, List.getLast?_eq_some_getLast sortedNonempty, Option.bind_some, isFirst, Option.map_some]

/-- Every event that has been dealt with holds a counter of its own, out of its constraint; those
left choose from their constraints. -/
structure Inv (constraints : List (List Nat)) (allocator : Allocator) : Prop where
  distinct : (allocator.allocatables.map Allocatable.index).Nodup
  within : ∀ allocatable ∈ allocator.allocatables, ∃ original,
    constraints[allocatable.index]? = some original ∧ allocatable.constraint ⊆ original
  length : allocator.allocation.length = constraints.length
  placed : ∀ (index : Nat) (original : List Nat), constraints[index]? = some original →
    index ∉ allocator.allocatables.map Allocatable.index →
    ∃ cn ∈ original, allocator.allocation[index]? = some (some cn) ∧
      allocator.slots[cn]? = some (some index)

variable {constraints : List (List Nat)} {allocator : Allocator}

theorem Picks.indices {allocatable : Allocatable} {cn : Nat}
    (picks : Picks allocator allocatable cn) :
    (allocatable.index :: (allocator.rest allocatable cn).allocatables.map Allocatable.index).Perm
      (allocator.allocatables.map Allocatable.index) := by
  rw [rest, map_index_narrow, ← List.map_cons]
  exact picks.split.map Allocatable.index

theorem Inv.rest {allocatable : Allocatable} {cn : Nat} (inv : Inv constraints allocator)
    (picks : Picks allocator allocatable cn) : Inv constraints (allocator.rest allocatable cn) := by
  have indices := picks.indices
  have distinct := indices.nodup_iff.mpr inv.distinct
  have isAllocatable := picks.split.mem_iff.mp List.mem_cons_self
  obtain ⟨bound, _⟩ := List.getElem?_eq_some_iff.mp picks.free
  constructor
  · exact (List.nodup_cons.mp distinct).2
  · intro other member
    obtain ⟨wider, isWider, same⟩ := mem_narrow member
    obtain ⟨original, found, subset⟩ :=
      inv.within wider (picks.split.mem_iff.mp (List.mem_cons_of_mem _ isWider))
    rcases same with rfl | rfl
    · exact ⟨original, found, subset⟩
    · exact ⟨original, found, List.Subset.trans List.erase_subset subset⟩
  · rw [Allocator.rest, List.length_set]
    exact inv.length
  · intro index original found settled
    obtain ⟨own, isOwn, subset⟩ := inv.within allocatable isAllocatable
    by_cases same : index = allocatable.index
    · subst same
      rw [isOwn, Option.some.injEq] at found
      have inside : allocatable.index < allocator.allocation.length := by
        rw [inv.length]
        exact (List.getElem?_eq_some_iff.mp isOwn).1
      exact ⟨cn, found ▸ subset picks.listed, List.getElem?_set_self inside,
        List.getElem?_set_self bound⟩
    · have before : index ∉ allocator.allocatables.map Allocatable.index := by
        rw [← indices.mem_iff, List.mem_cons, not_or]
        exact ⟨same, settled⟩
      obtain ⟨held, isListed, allocated, slot⟩ := inv.placed index original found before
      have other : held ≠ cn := by
        rintro rfl
        rw [picks.free] at slot
        cases slot
      refine ⟨held, isListed, ?_, ?_⟩
      · rw [Allocator.rest, List.getElem?_set_ne (Ne.symm same)]
        exact allocated
      · rw [Allocator.rest, List.getElem?_set_ne (Ne.symm other)]
        exact slot

/-- The indices of an allocation: each out of its constraint, none twice. -/
structure Allocates (constraints : List (List Nat)) (slots : Nat) (indices : List Nat) : Prop where
  length : indices.length = constraints.length
  within : ∀ (k : Nat) (original : List Nat) (cn : Nat), constraints[k]? = some original →
    indices[k]? = some cn → cn ∈ original
  distinct : indices.Nodup
  bound : ∀ cn ∈ indices, cn < slots

theorem Inv.allocates (inv : Inv constraints allocator) (done : allocator.allocatables = []) :
    ∃ indices, allocator.allocation = indices.map some ∧
      Allocates constraints allocator.slotCount indices := by
  have placed : ∀ (k : Nat) (entry : Option Nat), allocator.allocation[k]? = some entry →
      ∃ cn, entry = some cn ∧
      (∀ original, constraints[k]? = some original → cn ∈ original) ∧
      allocator.slots[cn]? = some (some k) := by
    intro k entry found
    have bound := (List.getElem?_eq_some_iff.mp found).1
    rw [inv.length] at bound
    obtain ⟨cn, listed, allocated, slot⟩ := inv.placed k constraints[k]
      (List.getElem?_eq_getElem bound) (by simp [done])
    rw [found, Option.some.injEq] at allocated
    refine ⟨cn, allocated, ?_, slot⟩
    intro original isOriginal
    rw [List.getElem?_eq_getElem bound, Option.some.injEq] at isOriginal
    exact isOriginal ▸ listed
  have entries : allocator.allocation =
      (allocator.allocation.map fun entry => entry.getD 0).map some := by
    rw [List.map_map]
    refine (List.map_id _).symm.trans (List.map_congr_left ?_)
    intro entry member
    obtain ⟨k, found⟩ := List.getElem?_of_mem member
    obtain ⟨cn, rfl, _⟩ := placed k entry found
    rfl
  have slotOf (k cn : Nat) (found : (allocator.allocation.map fun entry => entry.getD 0)[k]? = some cn) :
      (∀ original, constraints[k]? = some original → cn ∈ original) ∧
        allocator.slots[cn]? = some (some k) := by
    rw [List.getElem?_map, Option.map_eq_some_iff] at found
    obtain ⟨entry, isEntry, rfl⟩ := found
    obtain ⟨cn, rfl, facts⟩ := placed k entry isEntry
    exact facts
  refine ⟨_, entries, ?_, ?_, ?_, ?_⟩
  · rw [List.length_map, inv.length]
  · exact fun k original cn isOriginal found => (slotOf k cn found).1 original isOriginal
  · rw [List.nodup_iff_getElem?_ne_getElem?]
    intro first second less bound same
    obtain ⟨cn, found⟩ : ∃ cn, (allocator.allocation.map fun entry => entry.getD 0)[second]? = some cn :=
      ⟨_, List.getElem?_eq_getElem bound⟩
    have slotFirst := (slotOf first cn (same.trans found)).2
    have slotSecond := (slotOf second cn found).2
    rw [slotFirst, Option.some.injEq, Option.some.injEq] at slotSecond
    omega
  · intro cn member
    obtain ⟨k, found⟩ := List.getElem?_of_mem member
    exact (List.getElem?_eq_some_iff.mp (slotOf k cn found).2).1

theorem allocate_sound {remaining : Nat} (inv : Inv constraints allocator)
    {allocation : List (Option Nat)} (called : allocator.allocate remaining = some allocation) :
    ∃ indices, allocation = indices.map some ∧
      Allocates constraints allocator.slotCount indices := by
  induction remaining generalizing allocator with
  | zero => cases called
  | succ remaining ih =>
      rw [allocate_succ, Option.bind_eq_some_iff] at called
      obtain ⟨⟨allocatable, cn⟩, picked, called⟩ := called
      simp only at called
      have restInv := inv.rest (pick_eq_some picked)
      have sameSlots : (allocator.rest allocatable cn).slotCount = allocator.slotCount := by
        simp [slotCount, rest]
      rw [← sameSlots]
      split at called
      · rename_i done
        rw [Option.some.injEq] at called
        exact called ▸ restInv.allocates done
      · exact ih restInv called

theorem inv_new (made : Allocator.new constraints = some allocator) : Inv constraints allocator := by
  simp only [Allocator.new, Option.bind_eq_some_iff, Option.map_eq_some_iff] at made
  obtain ⟨greatest, _, maxIndex, _, rfl⟩ := made
  have indices : (constraints.zipIdx.map fun entry => (⟨entry.2, entry.1⟩ : Allocatable)).map
      Allocatable.index = List.range constraints.length := by
    rw [List.map_map, List.range_eq_range', ← List.zipIdx_map_snd]
    rfl
  constructor
  · rw [indices]
    exact List.nodup_range
  · intro allocatable member
    obtain ⟨⟨original, index⟩, isEntry, rfl⟩ := List.mem_map.mp member
    exact ⟨original, List.mem_zipIdx_iff_getElem?.mp isEntry, List.Subset.refl _⟩
  · simp
  · intro index original found unplaced
    rw [indices, List.mem_range] at unplaced
    exact absurd (List.getElem?_eq_some_iff.mp found).1 unplaced

theorem length_rest {allocatable : Allocatable} {cn : Nat}
    (picks : Picks allocator allocatable cn) :
    allocator.allocatables.length = (allocator.rest allocatable cn).allocatables.length + 1 := by
  have lengths := picks.indices.length_eq
  rw [List.length_cons, List.length_map, List.length_map] at lengths
  exact lengths.symm

theorem exists_greatest {indices : List Nat} (nonempty : indices ≠ []) :
    ∃ greatest ∈ indices, indices.max? = some greatest ∧ ∀ cn ∈ indices, cn ≤ greatest := by
  obtain ⟨greatest, isMax⟩ : ∃ greatest, indices.max? = some greatest :=
    Option.isSome_iff_exists.mp (List.isSome_max?_of_ne_nil nonempty)
  obtain ⟨member, above⟩ := List.max?_eq_some_iff.mp isMax
  exact ⟨greatest, member, isMax, above⟩

theorem exists_new (nonempty : constraints ≠ []) (each : ∀ indices ∈ constraints, indices ≠ []) :
    ∃ allocator maxIndex, Allocator.new constraints = some allocator ∧
      allocator.allocatables = constraints.zipIdx.map (fun (indices, index) => ⟨index, indices⟩) ∧
      allocator.slots = List.replicate (maxIndex + 1) none ∧
      (∀ indices ∈ constraints, ∀ cn ∈ indices, cn ≤ maxIndex) ∧
      ∃ indices ∈ constraints, maxIndex ∈ indices := by
  have greatest : constraints.mapM List.max? =
      some (constraints.map fun indices => indices.max?.getD 0) := by
    apply mapM_eq_some_map
    intro indices member
    obtain ⟨_, _, isMax, _⟩ := exists_greatest (each indices member)
    rw [isMax, Option.getD_some]
  obtain ⟨maxIndex, isGreatest, isMax, above⟩ := exists_greatest
    (show constraints.map (fun indices => indices.max?.getD 0) ≠ [] by simpa using nonempty)
  refine ⟨_, maxIndex, by rw [Allocator.new, greatest, Option.bind_some, isMax]; rfl, rfl, rfl, ?_, ?_⟩
  · intro indices member cn listed
    obtain ⟨most, _, most?, bound⟩ := exists_greatest (each indices member)
    have below := above most (List.mem_map.mpr ⟨indices, member, by rw [most?, Option.getD_some]⟩)
    exact (bound cn listed).trans below
  · obtain ⟨indices, member, same⟩ := List.mem_map.mp isGreatest
    obtain ⟨most, listed, most?, _⟩ := exists_greatest (each indices member)
    rw [most?, Option.getD_some] at same
    exact ⟨indices, member, same ▸ listed⟩

end Allocator

section Place

variable {ρ : Type} {entries : List (ρ × Nat)} {sorted : List (Option ρ)}

def putAll (entries : List (ρ × Nat)) (sorted : List (Option ρ)) : List (Option ρ) :=
  entries.foldl (fun sorted entry => sorted.set entry.2 (some entry.1)) sorted

theorem length_putAll (entries : List (ρ × Nat)) (sorted : List (Option ρ)) :
    (putAll entries sorted).length = sorted.length := by
  induction entries generalizing sorted with
  | nil => rfl
  | cons entry rest ih =>
      rw [putAll, List.foldl_cons]
      exact (ih _).trans List.length_set

theorem putAll_of_not_mem {index : Nat} (outside : index ∉ entries.map Prod.snd) :
    (putAll entries sorted)[index]? = sorted[index]? := by
  induction entries generalizing sorted with
  | nil => rfl
  | cons entry rest ih =>
      rw [List.map_cons, List.mem_cons, not_or] at outside
      rw [putAll, List.foldl_cons]
      exact (ih outside.2).trans (List.getElem?_set_ne (Ne.symm outside.1))

theorem putAll_of_mem (distinct : (entries.map Prod.snd).Nodup)
    (bound : ∀ entry ∈ entries, entry.2 < sorted.length) {entry : ρ × Nat}
    (member : entry ∈ entries) : (putAll entries sorted)[entry.2]? = some (some entry.1) := by
  induction entries generalizing sorted with
  | nil => simp at member
  | cons first rest ih =>
      rw [List.map_cons, List.nodup_cons] at distinct
      rw [putAll, List.foldl_cons]
      rcases List.mem_cons.mp member with rfl | isRest
      · have inside := bound entry List.mem_cons_self
        exact (putAll_of_not_mem distinct.1).trans (List.getElem?_set_self inside)
      · refine ih distinct.2 ?_ isRest
        intro other isOther
        rw [List.length_set]
        exact bound other (List.mem_cons_of_mem _ isOther)

theorem putAll_perm (requests : List ρ) {indices : List Nat}
    (perm : indices.Perm (List.range requests.length)) :
    ∃ placed : List ρ, putAll (requests.zip indices) (List.replicate requests.length none) =
        placed.map some ∧ placed.Perm requests ∧
      ∀ (k : Nat) (request : ρ) (index : Nat), requests[k]? = some request → indices[k]? = some index →
        placed[index]? = some request := by
  have lengths : indices.length = requests.length := by simpa using perm.length_eq
  have slots : (requests.zip indices).map Prod.snd = indices := List.map_snd_zip lengths.le
  have distinct : ((requests.zip indices).map Prod.snd).Nodup := by
    rw [slots]
    exact perm.nodup_iff.mpr List.nodup_range
  have bound : ∀ entry ∈ requests.zip indices,
      entry.2 < (List.replicate requests.length (none : Option ρ)).length := by
    intro entry member
    rw [List.length_replicate, ← List.mem_range, ← perm.mem_iff, ← slots]
    exact List.mem_map_of_mem member
  set sorted := putAll (requests.zip indices) (List.replicate requests.length none) with isSorted
  have length : sorted.length = requests.length := by simp [isSorted, length_putAll]
  have found {entry : ρ × Nat} (member : entry ∈ requests.zip indices) :
      sorted[entry.2]? = some (some entry.1) := putAll_of_mem distinct bound member
  have permuted : (sorted.map some).Perm ((requests.map some).map some) := by
    have read : sorted.map some = (List.range requests.length).map fun index => sorted[index]? := by
      refine List.ext_getElem? fun index => ?_
      rw [List.getElem?_map, List.getElem?_map]
      rcases Nat.lt_or_ge index requests.length with less | more
      · simp [less, length]
      · simp [more, length]
    have requested : (requests.zip indices).map (fun entry => sorted[entry.2]?) =
        (requests.map some).map some := calc
      _ = (requests.zip indices).map fun entry => some (some entry.1) :=
        List.map_congr_left fun entry member => found member
      _ = ((requests.zip indices).map Prod.fst).map fun request => some (some request) := by
        rw [List.map_map]
        rfl
      _ = (requests.map some).map some := by
        rw [List.map_fst_zip lengths.ge, List.map_map]
        rfl
    have mapped : (requests.zip indices).map (fun entry => sorted[entry.2]?) =
        indices.map fun index => sorted[index]? := calc
      _ = ((requests.zip indices).map Prod.snd).map fun index => sorted[index]? := by
        rw [List.map_map]
        rfl
      _ = indices.map fun index => sorted[index]? := by rw [slots]
    rw [read, ← requested, mapped]
    exact (perm.map _).symm
  have permSome := (List.map_perm_map_iff (Option.some_injective _)).mp permuted
  obtain ⟨placed, isPlaced, placedPerm⟩ :
      Relation.Comp (fun left right => left = List.map some right) List.Perm sorted requests := by
    rw [List.eq_map_comp_perm]
    exact permSome
  refine ⟨placed, isPlaced, placedPerm, ?_⟩
  intro k request index isRequest isIndex
  have member : (request, index) ∈ requests.zip indices := by
    refine List.mem_of_getElem? (i := k) ?_
    rw [List.getElem?_zip_eq_some]
    exact ⟨isRequest, isIndex⟩
  have place := found member
  rw [isPlaced, List.getElem?_map, Option.map_eq_some_iff] at place
  obtain ⟨other, isPlace, same⟩ := place
  rw [Option.some.injEq] at same
  rw [isPlace, same]

theorem putAll_allocates (constraintOf : ρ → List Nat) (requests : List ρ) {indices : List Nat}
    (allocates : Allocator.Allocates (requests.map constraintOf) requests.length indices) :
    ∃ ordering : List ρ, putAll (requests.zip indices) (List.replicate requests.length none) =
        ordering.map some ∧ ordering.Perm requests ∧
      ∀ (index : Nat) (request : ρ), ordering[index]? = some request →
        index ∈ constraintOf request := by
  have lengths : indices.length = requests.length := by simpa using allocates.length
  have perm : indices.Perm (List.range requests.length) := by
    refine (List.subperm_of_subset allocates.distinct fun cn member => ?_).perm_of_length_le
      (by simp [lengths])
    exact List.mem_range.mpr (allocates.bound cn member)
  obtain ⟨ordering, placed, permuted, atPlace⟩ := putAll_perm requests perm
  refine ⟨ordering, placed, permuted, ?_⟩
  intro index request found
  have bound : index < requests.length := by
    rw [← permuted.length_eq]
    exact (List.getElem?_eq_some_iff.mp found).1
  obtain ⟨k, isIndex⟩ := List.getElem?_of_mem (perm.mem_iff.mpr (List.mem_range.mpr bound))
  have inside : k < requests.length := lengths ▸ (List.getElem?_eq_some_iff.mp isIndex).1
  have here := atPlace k requests[k] index (List.getElem?_eq_getElem inside) isIndex
  rw [found, Option.some.injEq] at here
  refine allocates.within k _ index ?_ isIndex
  rw [List.getElem?_map, List.getElem?_eq_getElem inside, ← here]
  rfl

end Place

/-- Each request is at the index of a counter that its event can use. -/
def IsOrdering (requests ordering : List GenericPmuRequest) : Prop :=
  ordering.Perm requests ∧ ∀ (index : Nat) (request : GenericPmuRequest),
    ordering[index]? = some request → index ∈ request.event.validPmc

namespace RequestSorter

variable {requests : List GenericPmuRequest}

abbrev constraintsOf (requests : List GenericPmuRequest) : List (List Nat) :=
  requests.map fun request => request.event.validPmc

theorem isSorted_iff : isSorted requests = true ↔ IsOrdering requests requests := by
  simp only [isSorted, List.all_eq_true, List.contains_iff_mem, IsOrdering, Prod.forall,
    List.mem_zipIdx_iff_getElem?]
  constructor
  · exact fun usable => ⟨.refl _, fun index request found => usable request index found⟩
  · exact fun ordering request index found => ordering.2 index request found

theorem place_eq (indices : List Nat) :
    place requests (indices.map some) =
      putAll (requests.zip indices) (List.replicate requests.length none) := by
  rw [place, putAll, List.zip_map_right, List.foldl_map]
  rfl

theorem place_allocates {indices : List Nat}
    (allocates : Allocator.Allocates (constraintsOf requests) requests.length indices) :
    ∃ ordering, place requests (indices.map some) = ordering.map some ∧
      IsOrdering requests ordering := by
  rw [place_eq]
  exact putAll_allocates (fun request => request.event.validPmc) requests allocates

theorem sort_sound {sorted : List (Option GenericPmuRequest)}
    (called : sort requests = .ok (some sorted)) :
    ∃ ordering, sorted = ordering.map some ∧ IsOrdering requests ordering := by
  rw [sort] at called
  split at called
  · rename_i already
    rw [Except.ok.injEq, Option.some.injEq] at called
    exact ⟨requests, called.symm, isSorted_iff.mp already⟩
  · split at called
    · cases called
    · rename_i allocator made
      split at called
      · rename_i fits
        rw [Except.ok.injEq, Option.map_eq_some_iff] at called
        obtain ⟨allocation, allocated, rfl⟩ := called
        obtain ⟨indices, rfl, allocates⟩ :=
          Allocator.allocate_sound (Allocator.inv_new made) allocated
        rw [fits] at allocates
        exact place_allocates allocates
      · cases called

/-- Some ordering is found, and the registers are allocated with it. -/
def Finds (requests : List GenericPmuRequest) : Prop :=
  ∃ ordering, sort requests = .ok (some (ordering.map some)) ∧ IsOrdering requests ordering ∧
    ∀ eventSet : EventSet, eventSet.genericRequests = requests →
      PMUCtrl.allocateEvents eventSet = .ok { eventSet with genericRequests := ordering }

theorem finds_of_sort (nonempty : requests ≠ []) {sorted : List (Option GenericPmuRequest)}
    (called : sort requests = .ok (some sorted)) : Finds requests := by
  obtain ⟨ordering, rfl, isOrdering⟩ := sort_sound called
  refine ⟨ordering, called, isOrdering, ?_⟩
  rintro eventSet rfl
  have sameLength := isOrdering.1.length_eq
  simp only [PMUCtrl.allocateEvents, nonempty, ↓reduceIte, called, bind, Except.bind,
    Option.bind_some, mapM_id_map_some, sameLength]

def requestOn (validPmc : List Nat) : GenericPmuRequest where
  name := ['e']
  uarchName := ['e']
  event := ⟨['e'], 0, 0, 0, false, false, 0, 0, validPmc⟩
  user := true
  kernel := true

end RequestSorter

end Xpedite.Profiler
