import Mathlib.Data.Finset.Card
import Mathlib.Data.Finset.Range
import Xpedite.Lib.StableSort
import Xpedite.Profiler.Allocation

/-!
When the register allocator finds a placement.  A request comes too late only if others
take all of its counters before; which requests may come before it can be told from
the constraints, although those of the requests that wait are narrowed on the way.
-/

namespace Xpedite.Profiler

open Lib

namespace Allocator

def constraintAt (constraints : List (List Nat)) (k : Nat) : List Nat := constraints.getD k []

/-- A counter that is the only one of some request goes to such a request. -/
def CanTake (constraints : List (List Nat)) (k cn : Nat) : Prop :=
  cn ∈ constraintAt constraints k ∧ (constraintAt constraints k = [cn] ∨ [cn] ∉ constraints)

instance (constraints : List (List Nat)) (k cn : Nat) : Decidable (CanTake constraints k cn) :=
  inferInstanceAs (Decidable (_ ∧ _))

def Competes (constraints : List (List Nat)) (k j : Nat) : Prop :=
  ∃ cn ∈ constraintAt constraints j, CanTake constraints k cn

instance (constraints : List (List Nat)) (k j : Nat) : Decidable (Competes constraints k j) :=
  inferInstanceAs (Decidable (∃ cn ∈ _, _))

def rivals (constraints : List (List Nat)) (i j : Nat) : Nat :=
  ((Finset.range constraints.length).filter fun k =>
    k ≠ i ∧ k ≠ j ∧ Competes constraints k j).card

/-- Requests with fewer counters come first; others lose counters to their rivals. -/
def MayPrecede (constraints : List (List Nat)) (j i : Nat) : Prop :=
  (constraintAt constraints j).length ≤ (constraintAt constraints i).length ∨
    (constraintAt constraints j).length <
      (constraintAt constraints i).length + rivals constraints i j

/-- Each counter of `i` can go to another request that may precede it, no two to one request. -/
def Contested (constraints : List (List Nat)) (i : Nat) : Prop :=
  ∃ holder : Nat → Nat,
    (∀ cn ∈ constraintAt constraints i, holder cn ≠ i ∧ CanTake constraints (holder cn) cn ∧
      MayPrecede constraints (holder cn) i) ∧
    ∀ cn ∈ constraintAt constraints i, ∀ other ∈ constraintAt constraints i,
      holder cn = holder other → cn = other

variable {constraints : List (List Nat)} {allocator : Allocator}

/-- Among requests with equally many counters left, those that lost some stand before the others. -/
def Ahead (constraints : List (List Nat)) (first second : Allocatable) : Prop :=
  second.constraint.length < (constraintAt constraints second.index).length →
    first.constraint.length < (constraintAt constraints first.index).length ∨
      second.constraint.length < first.constraint.length

def servedRivals (constraints : List (List Nat)) (allocator : Allocator) (i : Nat) : Finset Nat :=
  (Finset.range constraints.length).filter fun k =>
    k ∉ allocator.allocatables.map Allocatable.index ∧ Competes constraints k i

/-- What the counters that are taken tell about the order in which they were. -/
structure History (constraints : List (List Nat)) (allocator : Allocator) : Prop where
  listed : ∀ waiting ∈ allocator.allocatables, ∀ cn ∈ constraintAt constraints waiting.index,
    allocator.slots[cn]? = some none → cn ∈ waiting.constraint
  narrower : ∀ waiting ∈ allocator.allocatables,
    waiting.constraint.length ≤ (constraintAt constraints waiting.index).length
  narrowed : ∀ waiting ∈ allocator.allocatables,
    (constraintAt constraints waiting.index).length ≤
      waiting.constraint.length + (servedRivals constraints allocator waiting.index).card
  ahead : allocator.allocatables.Pairwise (Ahead constraints)
  taken : ∀ cn k : Nat, allocator.slots[cn]? = some (some k) → CanTake constraints k cn
  precedes : ∀ cn k : Nat, allocator.slots[cn]? = some (some k) → ∀ waiting ∈ allocator.allocatables,
    waiting.index ≠ k ∧ MayPrecede constraints k waiting.index
  once : ∀ cn other k : Nat, allocator.slots[cn]? = some (some k) →
    allocator.slots[other]? = some (some k) → cn = other

theorem ahead_sorted (history : History constraints allocator) :
    allocator.sorted.Pairwise (Ahead constraints) := by
  refine pairwise_insertionSort_of_pairwise history.ahead ?_
  intro first second less _
  exact .inr (by omega)

theorem sorted_pairwise (allocator : Allocator) :
    allocator.sorted.Pairwise fun first second =>
      second.constraint.length ≤ first.constraint.length := by
  have total : Std.Total fun first second : Allocatable =>
      second.constraint.length ≤ first.constraint.length :=
    ⟨fun first second => Nat.le_total second.constraint.length first.constraint.length⟩
  have transitive : IsTrans Allocatable fun first second =>
      second.constraint.length ≤ first.constraint.length :=
    ⟨fun _ _ _ one two => two.trans one⟩
  exact List.pairwise_insertionSort _ _

section Pick

variable {allocatable : Allocatable} {cn : Nat}

theorem Picks.mem (picks : Picks allocator allocatable cn) :
    allocatable ∈ allocator.allocatables := picks.split.mem_iff.mp List.mem_cons_self

theorem Picks.mem_of_waits (picks : Picks allocator allocatable cn) {waiting : Allocatable}
    (waits : waiting ∈ allocator.sorted.dropLast) : waiting ∈ allocator.allocatables :=
  picks.split.mem_iff.mp (List.mem_cons_of_mem _ waits)

theorem Inv.index_ne (inv : Inv constraints allocator) (picks : Picks allocator allocatable cn)
    {waiting : Allocatable} (waits : waiting ∈ allocator.sorted.dropLast) :
    waiting.index ≠ allocatable.index := by
  have distinct := (picks.split.map Allocatable.index).nodup_iff.mpr inv.distinct
  rw [List.map_cons, List.nodup_cons] at distinct
  intro same
  exact distinct.1 (same ▸ List.mem_map_of_mem waits)

theorem Inv.constraintAt_eq (inv : Inv constraints allocator) {waiting : Allocatable}
    (waits : waiting ∈ allocator.allocatables) :
    constraints[waiting.index]? = some (constraintAt constraints waiting.index) ∧
      waiting.constraint ⊆ constraintAt constraints waiting.index := by
  obtain ⟨original, found, subset⟩ := inv.within waiting waits
  have same : constraintAt constraints waiting.index = original := by
    rw [constraintAt, List.getD_eq_getElem?_getD, found, Option.getD_some]
  exact ⟨same ▸ found, same ▸ subset⟩

theorem History.few (history : History constraints allocator)
    (picks : Picks allocator allocatable cn) {waiting : Allocatable}
    (waits : waiting ∈ allocator.sorted.dropLast) :
    (constraintAt constraints allocatable.index).length ≤
        (constraintAt constraints waiting.index).length ∨
      allocatable.constraint.length < (constraintAt constraints waiting.index).length := by
  have sorted := allocator.sorted_pairwise
  have ahead := ahead_sorted history
  rw [← picks.last, List.pairwise_append] at sorted ahead
  have fewer := sorted.2.2 waiting waits allocatable List.mem_cons_self
  have before := ahead.2.2 waiting waits allocatable List.mem_cons_self
  have narrower := history.narrower waiting (picks.mem_of_waits waits)
  by_cases lost : allocatable.constraint.length <
      (constraintAt constraints allocatable.index).length
  · rcases before lost with alsoLost | strictly
    · exact .inr (fewer.trans_lt alsoLost)
    · exact .inr (strictly.trans_le narrower)
  · exact .inl ((not_lt.mp lost).trans (fewer.trans narrower))

theorem History.mayPrecede (history : History constraints allocator)
    (picks : Picks allocator allocatable cn)
    {waiting : Allocatable} (waits : waiting ∈ allocator.sorted.dropLast) :
    MayPrecede constraints allocatable.index waiting.index := by
  rcases history.few picks waits with few | lost
  · exact .inl few
  · right
    have fewer : (servedRivals constraints allocator allocatable.index).card ≤
        rivals constraints waiting.index allocatable.index := by
      refine Finset.card_le_card fun k member => ?_
      simp only [servedRivals, Finset.mem_filter, Finset.mem_range] at member ⊢
      obtain ⟨bound, served, competes⟩ := member
      refine ⟨bound, ?_, ?_, competes⟩
      · rintro rfl
        exact served (List.mem_map_of_mem (picks.mem_of_waits waits))
      · rintro rfl
        exact served (List.mem_map_of_mem picks.mem)
    have narrowed := history.narrowed allocatable picks.mem
    omega

theorem History.single (history : History constraints allocator)
    (picks : Picks allocator allocatable cn) {waiting : Allocatable}
    (waits : waiting ∈ allocator.sorted.dropLast)
    (single : (constraintAt constraints waiting.index).length = 1) :
    (constraintAt constraints allocatable.index).length ≤ 1 := by
  rcases history.few picks waits with few | lost
  · omega
  · have some := List.length_pos_of_mem picks.listed
    omega

theorem History.canTake (history : History constraints allocator)
    (inv : Inv constraints allocator) (picks : Picks allocator allocatable cn) :
    CanTake constraints allocatable.index cn := by
  obtain ⟨_, subset⟩ := inv.constraintAt_eq picks.mem
  have listed := subset picks.listed
  refine ⟨listed, ?_⟩
  by_cases single : (constraintAt constraints allocatable.index).length ≤ 1
  · left
    obtain ⟨only, isOnly⟩ := List.length_eq_one_iff.mp
      (le_antisymm single (List.length_pos_of_mem listed))
    rw [isOnly, List.mem_singleton] at listed
    rw [isOnly, listed]
  · right
    intro member
    obtain ⟨k, found⟩ := List.getElem?_of_mem member
    have isSingle : constraintAt constraints k = [cn] := by
      rw [constraintAt, List.getD_eq_getElem?_getD, found, Option.getD_some]
    by_cases waits : k ∈ allocator.allocatables.map Allocatable.index
    · obtain ⟨waiting, isWaiting, rfl⟩ := List.mem_map.mp waits
      rcases List.mem_cons.mp (picks.split.mem_iff.mpr isWaiting) with rfl | behind
      · exact single (by simp [isSingle])
      · exact single (history.single picks behind (by simp [isSingle]))
    · obtain ⟨held, isListed, _, slot⟩ := inv.placed k [cn] found waits
      rw [List.mem_singleton] at isListed
      rw [isListed, picks.free] at slot
      cases slot

theorem Picks.slot_rest (picks : Picks allocator allocatable cn) (counter : Nat) :
    (allocator.rest allocatable cn).slots[counter]? =
      if counter = cn then some (some allocatable.index) else allocator.slots[counter]? := by
  obtain ⟨bound, _⟩ := List.getElem?_eq_some_iff.mp picks.free
  rw [rest, List.getElem?_set]
  grind

theorem ahead_narrow {allocatables : List Allocatable}
    (ahead : allocatables.Pairwise (Ahead constraints))
    (narrower : ∀ waiting ∈ allocatables,
      waiting.constraint.length ≤ (constraintAt constraints waiting.index).length) :
    (narrow cn allocatables).Pairwise (Ahead constraints) := by
  cases allocatables with
  | nil => exact List.Pairwise.nil
  | cons first others =>
      obtain ⟨before, kept⟩ := List.pairwise_cons.mp ahead
      refine List.pairwise_cons.mpr ⟨fun other member => ?_, kept⟩
      by_cases listed : cn ∈ first.constraint
      · intro _
        left
        have less := List.length_erase_of_mem listed
        have some := List.length_pos_of_mem listed
        have bound := narrower first List.mem_cons_self
        simp only
        omega
      · rw [List.erase_of_not_mem listed]
        exact before other member

theorem servedRivals_rest (picks : Picks allocator allocatable cn) (i : Nat) :
    servedRivals constraints allocator i ⊆
      servedRivals constraints (allocator.rest allocatable cn) i := by
  intro k member
  simp only [servedRivals, Finset.mem_filter] at member ⊢
  refine ⟨member.1, fun waits => member.2.1 ?_, member.2.2⟩
  exact picks.indices.mem_iff.mp (List.mem_cons_of_mem _ waits)

/-- A request from which the picked one could take a counter has one more served rival. -/
theorem card_servedRivals_rest (inv : Inv constraints allocator)
    (picks : Picks allocator allocatable cn) {i : Nat}
    (competes : Competes constraints allocatable.index i) :
    (servedRivals constraints allocator i).card + 1 ≤
      (servedRivals constraints (allocator.rest allocatable cn) i).card := by
  refine Finset.card_lt_card (Finset.ssubset_iff_subset_ne.mpr ⟨servedRivals_rest picks i, ?_⟩)
  intro same
  have bound := (List.getElem?_eq_some_iff.mp (inv.constraintAt_eq picks.mem).1).1
  have distinct := picks.indices.nodup_iff.mpr inv.distinct
  have served : allocatable.index ∈ servedRivals constraints (allocator.rest allocatable cn) i := by
    simp only [servedRivals, Finset.mem_filter, Finset.mem_range]
    exact ⟨bound, (List.nodup_cons.mp distinct).1, competes⟩
  rw [← same, servedRivals, Finset.mem_filter] at served
  exact served.2.1 (List.mem_map_of_mem picks.mem)

theorem History.rest (history : History constraints allocator) (inv : Inv constraints allocator)
    (picks : Picks allocator allocatable cn) :
    History constraints (allocator.rest allocatable cn) := by
  have slot := picks.slot_rest
  have canTake := history.canTake inv picks
  constructor
  case listed =>
    intro narrower member counter isListed free
    rw [slot] at free
    obtain ⟨waiting, waits, same⟩ := mem_narrow member
    have other : counter ≠ cn := by
      rintro rfl
      simp at free
    rw [if_neg other] at free
    rcases same with rfl | rfl
    · exact history.listed _ (picks.mem_of_waits waits) counter isListed free
    · rw [List.mem_erase_of_ne other]
      exact history.listed _ (picks.mem_of_waits waits) counter isListed free
  case narrower =>
    intro narrower member
    obtain ⟨waiting, waits, same⟩ := mem_narrow member
    have bound := history.narrower waiting (picks.mem_of_waits waits)
    rcases same with rfl | rfl
    · exact bound
    · exact List.length_erase_le.trans bound
  case narrowed =>
    intro narrower member
    obtain ⟨waiting, waits, same⟩ := mem_narrow member
    have bound := history.narrowed waiting (picks.mem_of_waits waits)
    have more := Finset.card_le_card (@servedRivals_rest constraints _ _ _ picks waiting.index)
    rcases same with rfl | rfl
    · omega
    · by_cases listed : cn ∈ waiting.constraint
      · have competes : Competes constraints allocatable.index waiting.index :=
          ⟨cn, (inv.constraintAt_eq (picks.mem_of_waits waits)).2 listed, canTake⟩
        have oneMore := card_servedRivals_rest inv picks competes
        have less := List.length_erase_of_mem listed
        have some := List.length_pos_of_mem listed
        simp only
        omega
      · rw [List.erase_of_not_mem listed]
        exact bound.trans (Nat.add_le_add_left more _)
  case ahead =>
    have sorted := ahead_sorted history
    rw [← picks.last, List.pairwise_append] at sorted
    exact ahead_narrow sorted.1 fun waiting waits =>
      history.narrower waiting (picks.mem_of_waits waits)
  case taken =>
    intro counter k held
    rw [slot] at held
    split at held
    · rename_i same
      rw [Option.some.injEq, Option.some.injEq] at held
      exact held ▸ same ▸ canTake
    · exact history.taken counter k held
  case precedes =>
    intro counter k held narrower member
    rw [slot] at held
    obtain ⟨waiting, waits, same⟩ := mem_narrow member
    have sameIndex : narrower.index = waiting.index := by
      rcases same with rfl | rfl <;> rfl
    rw [sameIndex]
    split at held
    · rw [Option.some.injEq, Option.some.injEq] at held
      exact held ▸ ⟨inv.index_ne picks waits, history.mayPrecede picks waits⟩
    · exact history.precedes counter k held waiting (picks.mem_of_waits waits)
  case once =>
    intro counter other k held alsoHeld
    rw [slot] at held alsoHeld
    have unheld (counter : Nat) : allocator.slots[counter]? ≠ some (some allocatable.index) :=
      fun held => (history.precedes counter _ held allocatable picks.mem).1 rfl
    split at held <;> split at alsoHeld
    · simp_all
    · rw [Option.some.injEq, Option.some.injEq] at held
      exact absurd (held ▸ alsoHeld) (unheld other)
    · rw [Option.some.injEq, Option.some.injEq] at alsoHeld
      exact absurd (alsoHeld ▸ held) (unheld counter)
    · exact history.once counter other k held alsoHeld

end Pick

/-- A request whose counters are all taken is contested. -/
theorem History.contested (history : History constraints allocator) {waiting : Allocatable}
    (waits : waiting ∈ allocator.allocatables)
    (bounded : ∀ cn ∈ constraintAt constraints waiting.index, cn < allocator.slotCount)
    (unavailable : ∀ cn ∈ waiting.constraint, allocator.slots[cn]? ≠ some none) :
    Contested constraints waiting.index := by
  have held : ∀ cn ∈ constraintAt constraints waiting.index,
      ∃ k, allocator.slots[cn]? = some (some k) := by
    intro cn listed
    have inside : cn < allocator.slots.length := bounded cn listed
    rw [List.getElem?_eq_getElem inside]
    cases slot : allocator.slots[cn] with
    | some k => exact ⟨k, rfl⟩
    | none =>
        have free : allocator.slots[cn]? = some none := by rw [List.getElem?_eq_getElem inside, slot]
        exact absurd free (unavailable cn (history.listed waiting waits cn listed free))
  refine ⟨fun cn => (allocator.slots[cn]?.join).getD 0, ?_, ?_⟩
  · intro cn listed
    obtain ⟨k, slot⟩ := held cn listed
    obtain ⟨other, mayPrecede⟩ := history.precedes cn k slot waiting waits
    simp only [slot, Option.join_some, Option.getD_some]
    exact ⟨other.symm, history.taken cn k slot, mayPrecede⟩
  · intro cn listed other alsoListed same
    obtain ⟨k, slot⟩ := held cn listed
    obtain ⟨k', slot'⟩ := held other alsoListed
    simp only [slot, slot', Option.join_some, Option.getD_some] at same
    exact history.once cn other k slot (same ▸ slot')

theorem exists_allocate_of_uncontested {remaining : Nat} (history : History constraints allocator)
    (inv : Inv constraints allocator)
    (bounded : ∀ k, ∀ cn ∈ constraintAt constraints k, cn < allocator.slotCount)
    (uncontested : ∀ k < constraints.length, ¬ Contested constraints k)
    (nonempty : allocator.allocatables ≠ []) (enough : allocator.allocatables.length ≤ remaining) :
    ∃ allocation, allocator.allocate remaining = some allocation := by
  induction remaining generalizing allocator with
  | zero => exact absurd (List.length_eq_zero_iff.mp (Nat.le_zero.mp enough)) nonempty
  | succ remaining ih =>
      have available : ∀ waiting ∈ allocator.allocatables, ∃ cn ∈ waiting.constraint,
          allocator.slots[cn]? = some none := by
        intro waiting waits
        by_contra! unavailable
        have bound := (List.getElem?_eq_some_iff.mp (inv.constraintAt_eq waits).1).1
        exact uncontested _ bound (history.contested waits (bounded _) unavailable)
      obtain ⟨allocatable, cn, picked⟩ := exists_pick nonempty available
      have picks := pick_eq_some picked
      have lengths := length_rest picks
      rw [allocate_succ, picked, Option.bind_some]
      simp only
      split
      · exact ⟨_, rfl⟩
      · rename_i left
        refine ih (history.rest inv picks) (inv.rest picks) ?_ (by simp [left]) (by omega)
        simpa [slotCount, rest] using bounded

theorem constraintAt_mem {k cn : Nat} (listed : cn ∈ constraintAt constraints k) :
    constraintAt constraints k ∈ constraints := by
  rw [constraintAt, List.getD_eq_getElem?_getD] at listed ⊢
  cases found : constraints[k]? with
  | none => simp [found] at listed
  | some original => exact List.mem_of_getElem? found

theorem history_new {slots : Nat}
    (allocatables : allocator.allocatables =
      constraints.zipIdx.map fun (indices, index) => ⟨index, indices⟩)
    (free : allocator.slots = List.replicate slots none) : History constraints allocator := by
  have untaken (cn k : Nat) : allocator.slots[cn]? ≠ some (some k) := by
    intro held
    have member := List.mem_of_getElem? held
    rw [free] at member
    cases List.eq_of_mem_replicate member
  have full : ∀ waiting ∈ allocator.allocatables,
      constraintAt constraints waiting.index = waiting.constraint := by
    intro waiting waits
    rw [allocatables] at waits
    obtain ⟨⟨original, index⟩, isEntry, rfl⟩ := List.mem_map.mp waits
    rw [List.mem_zipIdx_iff_getElem?] at isEntry
    rw [constraintAt, List.getD_eq_getElem?_getD, isEntry, Option.getD_some]
  constructor
  · exact fun waiting waits cn listed _ => full waiting waits ▸ listed
  · exact fun waiting waits => (congrArg List.length (full waiting waits)).ge
  · exact fun waiting waits =>
      (congrArg List.length (full waiting waits)).le.trans (Nat.le_add_right _ _)
  · refine List.pairwise_of_forall_mem_list fun first _ second isSecond => ?_
    intro lost
    rw [full second isSecond] at lost
    exact absurd lost (lt_irrefl _)
  · exact fun cn k held => absurd held (untaken cn k)
  · exact fun cn k held => absurd held (untaken cn k)
  · exact fun cn _ k held => absurd held (untaken cn k)

end Allocator

namespace RequestSorter

variable {requests : List GenericPmuRequest}

/-- The slots are as many as the requests where no counter index is beyond them. -/
theorem slotCount_eq_iff (nonempty : requests ≠ [])
    (placeable : ∃ ordering, IsOrdering requests ordering) {maxIndex : Nat}
    (within : ∀ indices ∈ constraintsOf requests, ∀ cn ∈ indices, cn ≤ maxIndex)
    (reached : ∃ indices ∈ constraintsOf requests, maxIndex ∈ indices) :
    maxIndex + 1 = requests.length ↔
      ∀ request ∈ requests, ∀ cn ∈ request.event.validPmc, cn < requests.length := by
  obtain ⟨ordering, isOrdering⟩ := placeable
  have count : 0 < requests.length := List.length_pos_of_ne_nil nonempty
  -- the last counter is used by the request at the last place of the ordering
  have lastUsed : requests.length ≤ maxIndex + 1 := by
    have bound : requests.length - 1 < ordering.length := by
      rw [isOrdering.1.length_eq]
      omega
    have usable := isOrdering.2 _ _ (List.getElem?_eq_getElem bound)
    have isRequest := isOrdering.1.mem_iff.mp (List.getElem_mem bound)
    have below := within _ (List.mem_map_of_mem isRequest) _ usable
    omega
  constructor
  · intro fits request isRequest cn listed
    have below := within _ (List.mem_map_of_mem isRequest) cn listed
    omega
  · intro bounded
    obtain ⟨_, isConstraint, isIndex⟩ := reached
    obtain ⟨request, isRequest, rfl⟩ := List.mem_map.mp isConstraint
    have below := bounded request isRequest maxIndex isIndex
    omega

theorem finds_of_uncontested (nonempty : requests ≠ [])
    (each : ∀ request ∈ requests, request.event.validPmc ≠ [])
    (placeable : ∃ ordering, IsOrdering requests ordering) :
    (IsOrdering requests requests ∨
        (∀ request ∈ requests, ∀ cn ∈ request.event.validPmc, cn < requests.length) ∧
          (∀ k < requests.length, ¬ Allocator.Contested (constraintsOf requests) k) →
      Finds requests) ∧
    (Finds requests → IsOrdering requests requests ∨
      ∀ request ∈ requests, ∀ cn ∈ request.event.validPmc, cn < requests.length) := by
  have eachConstraint : ∀ indices ∈ constraintsOf requests, indices ≠ [] := by
    intro indices member
    obtain ⟨request, isRequest, rfl⟩ := List.mem_map.mp member
    exact each request isRequest
  obtain ⟨allocator, maxIndex, made, allocatables, slots, within, reached⟩ :=
    Allocator.exists_new (by simpa using nonempty) eachConstraint
  have slotCount : allocator.slotCount = maxIndex + 1 := by simp [Allocator.slotCount, slots]
  have inRange := slotCount_eq_iff nonempty placeable within reached
  rw [← slotCount] at inRange
  constructor
  · rintro (already | ⟨bounded, uncontested⟩)
    · refine @finds_of_sort requests nonempty (requests.map some) ?_
      rw [sort, if_pos (isSorted_iff.mpr already)]
    · have fits := inRange.mpr bounded
      obtain ⟨allocation, allocated⟩ := Allocator.exists_allocate_of_uncontested
        (Allocator.history_new allocatables slots) (Allocator.inv_new made) (by
          intro k cn listed
          rw [slotCount, Nat.lt_succ_iff]
          exact within _ (Allocator.constraintAt_mem listed) cn listed)
        (by simpa using uncontested) (by simpa [allocatables] using nonempty)
        (by simp [allocatables] : _ ≤ requests.length)
      by_cases already : isSorted requests = true
      · refine @finds_of_sort requests nonempty (requests.map some) ?_
        rw [sort, if_pos already]
      · refine @finds_of_sort requests nonempty (place requests allocation) ?_
        simp only [sort, already, Bool.false_eq_true, ↓reduceIte, made, fits, allocated,
          Option.map_some]
  · rintro ⟨found, called, _⟩
    rw [sort, made] at called
    simp only at called
    split at called
    · rename_i already
      exact .inl (isSorted_iff.mp already)
    · right
      split at called
      · exact inRange.mp ‹_›
      · cases called

theorem finds_of_uncontested_three :
    Finds [requestOn [0, 1, 2], requestOn [0, 1, 2], requestOn [0]] := by
  have isOrdering : IsOrdering [requestOn [0, 1, 2], requestOn [0, 1, 2], requestOn [0]]
      [requestOn [0], requestOn [0, 1, 2], requestOn [0, 1, 2]] := by
    refine ⟨@List.perm_append_comm _ [_] [_, _], ?_⟩
    rintro (_ | _ | _ | _) request found <;> simp at found <;> simp [← found, requestOn]
  have wide : ∀ k cn : Nat, cn ≠ 0 →
      Allocator.CanTake [[0, 1, 2], [0, 1, 2], [0]] k cn → k = 0 ∨ k = 1 := by
    rintro (_ | _ | _ | k) cn positive ⟨listed, _⟩ <;> simp_all [Allocator.constraintAt]
  have narrow : ∀ k : Nat, Allocator.CanTake [[0, 1, 2], [0, 1, 2], [0]] k 0 → k = 2 := by
    rintro (_ | _ | _ | k) ⟨listed, single⟩ <;> simp_all [Allocator.constraintAt]
  refine (finds_of_uncontested (by simp) (by simp [requestOn]) ⟨_, isOrdering⟩).1 (.inr ⟨?_, ?_⟩)
  · simp [requestOn]
  · rintro k bound ⟨holder, others, distinct⟩
    have cases : k = 0 ∨ k = 1 ∨ k = 2 := by
      simp only [List.length_cons, List.length_nil] at bound
      omega
    rcases cases with rfl | rfl | rfl
    -- the counters 1 and 2 can only go to the other of the first two requests
    · obtain ⟨one, oneTaken, _⟩ := others 1 (by decide)
      obtain ⟨two, twoTaken, _⟩ := others 2 (by decide)
      have oneHolder := (wide _ _ (by decide) oneTaken).resolve_left one
      have twoHolder := (wide _ _ (by decide) twoTaken).resolve_left two
      exact absurd (distinct 1 (by decide) 2 (by decide) (oneHolder.trans twoHolder.symm)) (by decide)
    · obtain ⟨one, oneTaken, _⟩ := others 1 (by decide)
      obtain ⟨two, twoTaken, _⟩ := others 2 (by decide)
      have oneHolder := (wide _ _ (by decide) oneTaken).resolve_right one
      have twoHolder := (wide _ _ (by decide) twoTaken).resolve_right two
      exact absurd (distinct 1 (by decide) 2 (by decide) (oneHolder.trans twoHolder.symm)) (by decide)
    · obtain ⟨other, taken, _⟩ := others 0 (by decide)
      exact other (narrow _ taken)

/-- A counter index beyond the number of requests, and a pick that takes a counter the last
request needs. -/
theorem not_found_placeable :
    (IsOrdering [requestOn [0, 1, 2, 3], requestOn [0]] [requestOn [0], requestOn [0, 1, 2, 3]] ∧
      sort [requestOn [0, 1, 2, 3], requestOn [0]] = .ok none) ∧
    (IsOrdering [requestOn [0], requestOn [1], requestOn [0, 2, 3], requestOn [0, 1, 2]]
        [requestOn [0], requestOn [1], requestOn [0, 1, 2], requestOn [0, 2, 3]] ∧
      sort [requestOn [0], requestOn [1], requestOn [0, 2, 3], requestOn [0, 1, 2]] = .ok none) := by
  refine ⟨⟨⟨.swap _ _ _, ?_⟩, rfl⟩, ⟨.cons _ (.cons _ (.swap _ _ _)), ?_⟩, rfl⟩
  · rintro (_ | _ | _) request found <;> simp at found <;> simp [← found, requestOn]
  · rintro (_ | _ | _ | _ | _) request found <;> simp at found <;> simp [← found, requestOn]

end RequestSorter

end Xpedite.Profiler
