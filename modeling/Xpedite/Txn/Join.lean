import Xpedite.Lib.Leaves
import Xpedite.Txn.TxnCore

/-!
What `TxnFragments.join` produces: one transaction for each leaf of the tree of
fragments below a root, with the counters along the way to the leaf, numbered in
the order they are produced.
-/

namespace Xpedite.Txn

open Xpedite.Lib

theorem sortByTsc_perm (counters : List Counter) : (Transaction.sortByTsc counters).Perm counters :=
  List.perm_insertionSort _ _

/-- The counters after `txn.join(fragment.txn)`; `own` gives the counters of a transaction. -/
def merge (fragments : TxnFragments) (own : Nat → List Counter) (counters : List Counter)
    (ref : Nat) : List Counter :=
  Transaction.sortByTsc (counters ++ own (fragments.txnOf ref))

/-- From `state` to `state'` the objects in `touched` and new objects were changed, and the
transactions `new` were appended with these counters. -/
structure Produces (state state' : JoinState) (touched : Nat → Prop) (new : List Nat)
    (counters : List (List Counter)) : Prop where
  size : state.heap.size ≤ state'.heap.size
  frame : ∀ ref < state.heap.size, ¬touched ref → state'.heap.cell ref = state.heap.cell ref
  grows : ∀ ref < state.heap.size, (state.heap.cell ref).counters ⊆ (state'.heap.cell ref).counters
  txns : state'.txns = state.txns ++ new
  nextTxnId : state'.nextTxnId = state.nextTxnId + new.length
  members : ∀ txn ∈ new, (touched txn ∨ state.heap.size ≤ txn) ∧ txn < state'.heap.size
  produced : ∀ ref < state.heap.size, touched ref → ref ∈ new
  nodup : new.Nodup
  counters : new.map (fun txn => (state'.heap.cell txn).counters) = counters
  txnIds : new.map (fun txn => (state'.heap.cell txn).txnId) =
    (List.range' (state.nextTxnId + 1) new.length).map TxnId.int

namespace Produces

variable {first second third : JoinState} {touched touched' : Nat → Prop} {new new' : List Nat}
variable {counters counters' : List (List Counter)}

theorem append {state : JoinState} {txn : Nat} (allocated : txn < state.heap.size) :
    Produces state (state.append txn) (· = txn) [txn] [(state.heap.cell txn).counters] where
  size := by simp [JoinState.append]
  frame := by
    intro ref _ untouched
    simp [JoinState.append, Arena.cell_modify_of_ne _ _ untouched]
  grows := by
    intro ref _ counter held
    by_cases same : ref = txn
    · subst same
      simpa [JoinState.append] using held
    · simpa [JoinState.append, Arena.cell_modify_of_ne _ _ same] using held
  txns := rfl
  nextTxnId := rfl
  members := by simpa [JoinState.append] using allocated
  produced := by simp
  nodup := by simp
  counters := by simp [JoinState.append]
  txnIds := by simp [JoinState.append]

theorem before (run : Produces second third touched new counters)
    (sizes : first.heap.size ≤ second.heap.size) (sameTxns : second.txns = first.txns)
    (sameId : second.nextTxnId = first.nextTxnId)
    (frame : ∀ ref < first.heap.size, ¬touched' ref → second.heap.cell ref = first.heap.cell ref)
    (grows : ∀ ref < first.heap.size,
      (first.heap.cell ref).counters ⊆ (second.heap.cell ref).counters)
    (same : ∀ ref < first.heap.size, touched ref ↔ touched' ref) :
    Produces first third touched' new counters where
  size := sizes.trans run.size
  frame := by
    intro ref old untouched
    rw [run.frame ref (by omega) (by rwa [same ref old]), frame ref old untouched]
  grows := by
    intro ref old
    exact List.Subset.trans (grows ref old) (run.grows ref (by omega))
  txns := by rw [run.txns, sameTxns]
  nextTxnId := by rw [run.nextTxnId, sameId]
  members := by
    intro txn member
    obtain ⟨place, bound⟩ := run.members txn member
    refine ⟨?_, bound⟩
    by_cases old : txn < first.heap.size
    · exact .inl ((same txn old).mp (place.resolve_right (by omega)))
    · exact .inr (by omega)
  produced := by
    intro ref old isTouched
    exact run.produced ref (by omega) ((same ref old).mpr isTouched)
  nodup := run.nodup
  counters := run.counters
  txnIds := by rw [run.txnIds, sameId]

theorem trans {both : Nat → Prop} (run : Produces first second touched new counters)
    (next : Produces second third touched' new' counters')
    (apart : ∀ txn ∈ new, ¬touched' txn)
    (union : ∀ ref < first.heap.size, both ref ↔ touched ref ∨ touched' ref) :
    Produces first third both (new ++ new') (counters ++ counters') where
  size := run.size.trans next.size
  frame := by
    intro ref old untouched
    rw [union ref old, not_or] at untouched
    have sizes := run.size
    rw [next.frame ref (by omega) untouched.2, run.frame ref old untouched.1]
  grows := by
    intro ref old
    have sizes := run.size
    exact List.Subset.trans (run.grows ref old) (next.grows ref (by omega))
  txns := by rw [next.txns, run.txns, List.append_assoc]
  nextTxnId := by rw [next.nextTxnId, run.nextTxnId, List.length_append, Nat.add_assoc]
  members := by
    intro txn member
    have sizes := run.size
    have sizes' := next.size
    rcases List.mem_append.mp member with early | late
    · obtain ⟨place, bound⟩ := run.members txn early
      refine ⟨?_, by omega⟩
      by_cases old : txn < first.heap.size
      · exact .inl ((union txn old).mpr (.inl (place.resolve_right (by omega))))
      · exact .inr (by omega)
    · obtain ⟨place, bound⟩ := next.members txn late
      refine ⟨?_, bound⟩
      by_cases old : txn < first.heap.size
      · exact .inl ((union txn old).mpr (.inr (place.resolve_right (by omega))))
      · exact .inr (by omega)
  produced := by
    intro ref old isTouched
    have sizes := run.size
    rcases (union ref old).mp isTouched with early | late
    · exact List.mem_append_left _ (run.produced ref old early)
    · exact List.mem_append_right _ (next.produced ref (by omega) late)
  nodup := by
    refine List.nodup_append.mpr ⟨run.nodup, next.nodup, ?_⟩
    rintro txn early other late rfl
    obtain ⟨_, bound⟩ := run.members txn early
    rcases (next.members txn late).1 with isTouched | isNew
    · exact apart txn early isTouched
    · omega
  counters := by
    rw [List.map_append, next.counters, ← run.counters]
    congr 1
    apply List.map_congr_left
    intro txn member
    rw [next.frame txn (run.members txn member).2 (apart txn member)]
  txnIds := by
    have kept : new.map (fun txn => (third.heap.cell txn).txnId) =
        new.map fun txn => (second.heap.cell txn).txnId := by
      apply List.map_congr_left
      intro txn member
      rw [next.frame txn (run.members txn member).2 (apart txn member)]
    rw [List.map_append, kept, run.txnIds, next.txnIds, run.nextTxnId, ← List.map_append,
      List.length_append, ← List.range'_append_1]
    congr 3
    omega

end Produces

section Fragments

variable (fragments : TxnFragments) (kept : Nat → Prop) (own : Nat → List Counter)

/-- The transactions of resumed fragments are `kept`: the join reads them and leaves them as
they are. -/
structure JoinInput (state : JoinState) (txn : Nat) : Prop where
  allocated : txn < state.heap.size
  apart : ¬kept txn
  cells : ∀ ref, kept ref → ref < state.heap.size ∧ (state.heap.cell ref).counters = own ref

variable {fragments kept own} {state state' : JoinState} {txn : Nat}

theorem JoinInput.join (input : JoinInput kept own state txn) (other : Nat) :
    JoinInput kept own (state.join txn other) txn where
  allocated := input.allocated
  apart := input.apart
  cells := by
    intro ref isKept
    have other : ref ≠ txn := fun same => input.apart (same ▸ isKept)
    simpa [JoinState.join, Arena.cell_modify_of_ne _ _ other] using input.cells ref isKept

theorem JoinInput.after {new : List Nat} {counters : List (List Counter)} {next : Nat}
    (input : JoinInput kept own state txn) (run : Produces state state' (· = txn) new counters)
    (allocated : next < state'.heap.size) (apart : ¬kept next) :
    JoinInput kept own state' next where
  allocated := allocated
  apart := apart
  cells := by
    intro ref isKept
    obtain ⟨bound, cell⟩ := input.cells ref isKept
    have sizes := run.size
    rw [run.frame ref bound fun same => input.apart (same ▸ isKept)]
    exact ⟨by omega, cell⟩

theorem JoinInput.deepcopy (input : JoinInput kept own state txn) (clone : Nat) :
    JoinInput kept own (state.deepcopy clone) state.heap.size where
  allocated := by simp [JoinState.deepcopy]
  apart := fun isKept => Nat.lt_irrefl _ (input.cells _ isKept).1
  cells := by
    intro ref isKept
    obtain ⟨bound, cell⟩ := input.cells ref isKept
    simp only [JoinState.deepcopy, Arena.size_alloc, Arena.cell_alloc_of_lt _ _ bound]
    exact ⟨by omega, cell⟩

theorem join_counters (input : JoinInput kept own state txn) {ref : Nat}
    (isKept : kept (fragments.txnOf ref)) :
    ((state.join txn (fragments.txnOf ref)).heap.cell txn).counters =
      merge fragments own (state.heap.cell txn).counters ref := by
  simp [JoinState.join, Transaction.join, merge, (input.cells _ isKept).2]

theorem Produces.joined {new : List Nat} {counters : List (List Counter)} {other : Nat}
    (run : Produces (state.join txn other) state' (· = txn) new counters) :
    Produces state state' (· = txn) new counters := by
  refine run.before (by simp [JoinState.join]) rfl rfl ?_ ?_ (fun _ _ => Iff.rfl)
  · intro ref _ untouched
    simp [JoinState.join, Arena.cell_modify_of_ne _ _ untouched]
  · intro ref _ counter held
    by_cases same : ref = txn
    · subst same
      simp only [JoinState.join, Arena.cell_modify_self, Transaction.join,
        (sortByTsc_perm _).mem_iff, List.mem_append]
      exact .inl held
    · simpa [JoinState.join, Arena.cell_modify_of_ne _ _ same] using held

variable (fragments kept own) in
def JoinSpec (fuel : Nat) (recur : JoinState → Nat → List Nat → Option JoinState) : Prop :=
  ∀ state txn refs state', recur state txn refs = some state' → JoinInput kept own state txn →
    (∀ ref ∈ refs, kept (fragments.txnOf ref)) →
    ∃ new, Produces state state' (· = txn) new
      (leaves fragments.children (merge fragments own) fuel (state.heap.cell txn).counters refs)

variable (closed : ∀ ref, ∀ child ∈ fragments.children ref, kept (fragments.txnOf child))

include closed

theorem JoinSpec.round {fuel : Nat} {recur : JoinState → Nat → List Nat → Option JoinState}
    (spec : JoinSpec fragments kept own fuel recur) {ref : Nat}
    (called : recur (state.join txn (fragments.txnOf ref)) txn (fragments.children ref) = some state')
    (input : JoinInput kept own state txn) (isKept : kept (fragments.txnOf ref)) :
    ∃ new, Produces state state' (· = txn) new
      (leaves fragments.children (merge fragments own) fuel
        (merge fragments own (state.heap.cell txn).counters ref) (fragments.children ref)) := by
  obtain ⟨new, run⟩ := spec _ _ _ _ called (input.join _) (closed ref)
  rw [join_counters input isKept] at run
  exact ⟨new, run.joined⟩

theorem JoinSpec.each {fuel : Nat} {recur : JoinState → Nat → List Nat → Option JoinState}
    (spec : JoinSpec fragments kept own fuel recur) {clone : Nat} (cloneApart : ¬kept clone)
    {ref : Nat} {rest : List Nat}
    (called : joinEach fragments recur clone state txn (ref :: rest) = some state')
    (input : JoinInput kept own state txn)
    (allKept : ∀ other ∈ ref :: rest, kept (fragments.txnOf other))
    (cloned : rest ≠ [] → txn ≠ clone ∧ clone < state.heap.size ∧
      (state.heap.cell clone).counters = (state.heap.cell txn).counters) :
    ∃ new, Produces state state' (fun r => r = txn ∨ (rest ≠ [] ∧ r = clone)) new
      ((ref :: rest).flatMap fun other => leaves fragments.children (merge fragments own) fuel
        (merge fragments own (state.heap.cell txn).counters other) (fragments.children other)) := by
  induction rest generalizing state txn ref with
  | nil =>
      rw [joinEach] at called
      split at called
      · cases called
      · rename_i joined recurred
        simp only [joinEach, Option.some.injEq] at called
        subst called
        obtain ⟨new, run⟩ := spec.round closed recurred input (allKept ref (by simp))
        refine ⟨new, ?_⟩
        simpa using run
  | cons next rest ih =>
      obtain ⟨apart, cloneBound, sameCounters⟩ := cloned (by simp)
      rw [joinEach] at called
      split at called
      · cases called
      · rename_i joined recurred
        obtain ⟨new, run⟩ := spec.round closed recurred input (allKept ref (by simp))
        have sizes := run.size
        have cloneCell : joined.heap.cell clone = state.heap.cell clone :=
          run.frame clone cloneBound (Ne.symm apart)
        have cloneFresh : ∀ made ∈ new, made ≠ clone := by
          rintro made member rfl
          rcases (run.members made member).1 with isTxn | isNew
          · exact apart isTxn.symm
          · omega
        have restKept : ∀ other ∈ next :: rest, kept (fragments.txnOf other) :=
          fun other member => allKept other (by simp [member])
        rw [List.flatMap_cons]
        cases rest with
        | nil =>
            have cloneInput : JoinInput kept own joined clone := input.after run (by omega) cloneApart
            obtain ⟨new', run'⟩ := ih called cloneInput restKept (by simp)
            rw [cloneCell, sameCounters] at run'
            refine ⟨new ++ new', run.trans run' ?_ ?_⟩
            · simpa using cloneFresh
            · simp
        | cons later rest =>
            have cloneInput : JoinInput kept own joined clone := input.after run (by omega) cloneApart
            have copied := cloneInput.deepcopy clone
            have copyCell : ((joined.deepcopy clone).heap.cell joined.heap.size) =
                joined.heap.cell clone := by simp [JoinState.deepcopy]
            have keptCell : ((joined.deepcopy clone).heap.cell clone) = joined.heap.cell clone :=
              Arena.cell_alloc_of_lt _ _ (by omega)
            obtain ⟨new', run'⟩ := ih called copied restKept (by
              intro _
              refine ⟨by omega, ?_, by rw [copyCell, keptCell]⟩
              simp only [JoinState.deepcopy, Arena.size_alloc]
              omega)
            rw [copyCell, cloneCell, sameCounters] at run'
            have run'' : Produces joined state' (· = clone) new' _ := run'.before
              (by simp [JoinState.deepcopy]) rfl rfl
              (fun r old _ => Arena.cell_alloc_of_lt _ _ old)
              (fun r old => by simp [JoinState.deepcopy, Arena.cell_alloc_of_lt _ _ old])
              (by
                intro r old
                have older : r ≠ joined.heap.size := by omega
                simp [older])
            refine ⟨new ++ new', run.trans run'' cloneFresh ?_⟩
            simp

theorem joinFragments_spec (fuel : Nat) :
    JoinSpec fragments kept own fuel (joinFragments fragments fuel) := by
  induction fuel with
  | zero =>
      intro state txn refs state' called
      simp [joinFragments] at called
  | succ fuel ih =>
      intro state txn refs state' called input allKept
      match refs with
      | [] =>
          simp only [joinFragments, Option.some.injEq] at called
          subst called
          exact ⟨[txn], .append input.allocated⟩
      | [ref] =>
          obtain ⟨new, run⟩ := ih.round closed called input (allKept ref (by simp))
          refine ⟨new, ?_⟩
          simpa [leaves] using run
      | first :: second :: rest =>
          have cloneCell : (state.deepcopy txn).heap.cell state.heap.size = state.heap.cell txn := by
            simp [JoinState.deepcopy]
          have keptCell : (state.deepcopy txn).heap.cell txn = state.heap.cell txn :=
            Arena.cell_alloc_of_lt _ _ input.allocated
          have copied : JoinInput kept own (state.deepcopy txn) txn :=
            { input.deepcopy txn with
              allocated := by
                simp only [JoinState.deepcopy, Arena.size_alloc]
                exact Nat.lt_succ_of_lt input.allocated
              apart := input.apart }
          obtain ⟨new, run⟩ := ih.each closed (input.deepcopy txn).apart called copied allKept (by
            intro _
            refine ⟨Nat.ne_of_lt input.allocated, ?_, by rw [cloneCell, keptCell]⟩
            simp [JoinState.deepcopy])
          rw [keptCell] at run
          refine ⟨new, run.before (by simp [JoinState.deepcopy]) rfl rfl ?_ ?_ ?_⟩
          · exact fun r old _ => Arena.cell_alloc_of_lt _ _ old
          · exact fun r old => by simp [JoinState.deepcopy, Arena.cell_alloc_of_lt _ _ old]
          · intro r old
            have older : r ≠ state.heap.size := by omega
            simp [older]

end Fragments

section Termination

variable (fragments : TxnFragments)

theorem joinEach_isSome {fuel : Nat} {recur : JoinState → Nat → List Nat → Option JoinState}
    (recurs : ∀ state txn refs,
      (recur state txn refs).isSome ↔ Fits fragments.children fuel refs)
    (clone : Nat) (state : JoinState) (txn : Nat) (refs : List Nat) :
    (joinEach fragments recur clone state txn refs).isSome ↔
      ∀ ref ∈ refs, Fits fragments.children fuel (fragments.children ref) := by
  induction refs generalizing state txn with
  | nil => simp [joinEach]
  | cons ref rest ih =>
      rw [joinEach, List.forall_mem_cons, ← recurs (state.join txn (fragments.txnOf ref)) txn]
      split
      · rename_i stuck
        simp [stuck]
      · rename_i joined done
        simp only [done, Option.isSome_some, true_and]
        split <;> exact ih _ _

theorem joinFragments_isSome (fuel : Nat) (state : JoinState) (txn : Nat) (refs : List Nat) :
    (joinFragments fragments fuel state txn refs).isSome ↔ Fits fragments.children fuel refs := by
  induction fuel generalizing state txn refs with
  | zero => simp [joinFragments, Fits]
  | succ fuel ih =>
      cases refs with
      | nil => simp [joinFragments, Fits]
      | cons first others =>
          cases others with
          | nil => simp [joinFragments, Fits, ih]
          | cons second rest =>
              rw [joinFragments, joinEach_isSome fragments ih]
              rfl

theorem joinRoots_isSome (fuel : Nat) (state : JoinState) (roots : List Nat) :
    (joinRoots fragments fuel state roots).isSome ↔
      ∀ root ∈ roots, Fits fragments.children fuel (fragments.children root) := by
  induction roots generalizing state with
  | nil => simp [joinRoots]
  | cons root rest ih =>
      rw [joinRoots, List.forall_mem_cons,
        ← joinFragments_isSome fragments fuel state (fragments.txnOf root)]
      split
      · rename_i stuck
        simp [stuck]
      · rename_i joined done
        simp only [done, Option.isSome_some, true_and]
        exact ih _

/-- No chain of links from a root fragment goes on forever. -/
def TxnFragments.LinksFinite (fragments : TxnFragments) : Prop :=
  ∀ root ∈ fragments.rootFragments,
    Acc (fun child parent => child ∈ fragments.children parent) root

theorem exists_join_iff (heap : Arena Transaction) (nextTxnId : Nat) :
    (∃ fuel joined, fragments.join fuel heap nextTxnId = some joined) ↔ fragments.LinksFinite := by
  rw [TxnFragments.LinksFinite, ← exists_fits_iff_acc]
  simp only [← Option.isSome_iff_exists, TxnFragments.join, joinRoots_isSome]
  constructor
  · rintro ⟨fuel, fits⟩
    exact ⟨fuel + 1, fits⟩
  · rintro ⟨fuel, fits⟩
    cases fuel with
    | zero => exact absurd fits id
    | succ fuel => exact ⟨fuel, fits⟩

end Termination

section Roots

variable {fragments : TxnFragments} {kept : Nat → Prop} {own : Nat → List Counter}
variable (closed : ∀ ref, ∀ child ∈ fragments.children ref, kept (fragments.txnOf child))

include closed

theorem joinRoots_spec {fuel : Nat} {state state' : JoinState} {roots : List Nat}
    (called : joinRoots fragments fuel state roots = some state')
    (inputs : ∀ root ∈ roots, JoinInput kept own state (fragments.txnOf root))
    (cells : ∀ root ∈ roots,
      (state.heap.cell (fragments.txnOf root)).counters = own (fragments.txnOf root))
    (distinct : (roots.map fragments.txnOf).Nodup) :
    ∃ new, Produces state state' (· ∈ roots.map fragments.txnOf) new
      (roots.flatMap fun root => leaves fragments.children (merge fragments own) fuel
        (own (fragments.txnOf root)) (fragments.children root)) := by
  induction roots generalizing state with
  | nil =>
      simp only [joinRoots, Option.some.injEq] at called
      subst called
      exact ⟨[], by constructor <;> simp⟩
  | cons root rest ih =>
      rw [joinRoots] at called
      split at called
      · cases called
      · rename_i joined done
        have input := inputs root (by simp)
        obtain ⟨new, run⟩ := joinFragments_spec closed fuel _ _ _ _ done input (closed root)
        rw [cells root (by simp)] at run
        rw [List.map_cons, List.nodup_cons] at distinct
        have others : ∀ other ∈ rest, fragments.txnOf other ≠ fragments.txnOf root := by
          intro other member same
          exact distinct.1 (List.mem_map.mpr ⟨other, member, same⟩)
        have sizes := run.size
        obtain ⟨new', run'⟩ := ih called
          (by
            intro other member
            have otherInput := inputs other (by simp [member])
            have bound := otherInput.allocated
            exact input.after run (by omega) otherInput.apart)
          (by
            intro other member
            rw [run.frame _ (inputs other (by simp [member])).allocated (others other member)]
            exact cells other (by simp [member]))
          distinct.2
        refine ⟨new ++ new', run.trans run' ?_ ?_⟩
        · intro txn member inRest
          obtain ⟨other, isOther, rfl⟩ := List.mem_map.mp inRest
          have bound := (inputs other (by simp [isOther])).allocated
          rcases (run.members _ member).1 with isRoot | isNew
          · exact others other isOther isRoot
          · omega
        · intro ref _
          simp

omit closed in
theorem mem_merge (counters : List Counter) (ref : Nat) (counter : Counter) :
    counter ∈ merge fragments own counters ref ↔
      counter ∈ counters ∨ counter ∈ own (fragments.txnOf ref) := by
  rw [merge, (sortByTsc_perm _).mem_iff, List.mem_append]

structure Gathers (fragments : TxnFragments) (own : Nat → List Counter) (allowed : Counter → Prop)
    (state state' : JoinState) (roots new : List Nat) : Prop where
  size : state.heap.size ≤ state'.heap.size
  frame : ∀ ref < state.heap.size, ref ∉ roots.map fragments.txnOf →
    state'.heap.cell ref = state.heap.cell ref
  grows : ∀ ref < state.heap.size, (state.heap.cell ref).counters ⊆ (state'.heap.cell ref).counters
  txns : state'.txns = state.txns ++ new
  members : ∀ txn ∈ new, (txn ∈ roots.map fragments.txnOf ∨ state.heap.size ≤ txn) ∧
    txn < state'.heap.size
  sublist : (roots.map fragments.txnOf).Sublist new
  only : ∀ txn ∈ new ++ roots.map fragments.txnOf,
    ∀ counter ∈ (state'.heap.cell txn).counters, allowed counter
  rooted : ∀ root ∈ roots, ∀ counter ∈ (state.heap.cell (fragments.txnOf root)).counters,
    ∃ txn ∈ new, counter ∈ (state'.heap.cell txn).counters
  below : ∀ root ∈ roots, ∀ ref, Below fragments.children (fragments.children root) ref →
    ∀ counter ∈ own (fragments.txnOf ref), ∃ txn ∈ new, counter ∈ (state'.heap.cell txn).counters

omit closed in
theorem Gathers.nil (allowed : Counter → Prop) (state : JoinState) :
    Gathers fragments own allowed state state [] [] := by
  constructor <;> simp

section FirstRoot

variable {fuel root : Nat} {state joined : JoinState} {new : List Nat}
variable (run : Produces state joined (· = fragments.txnOf root) new
  (leaves fragments.children (merge fragments own) fuel
    (state.heap.cell (fragments.txnOf root)).counters (fragments.children root)))

include run

omit closed in
theorem Produces.only {allowed : Counter → Prop}
    (rootAllowed : ∀ counter ∈ (state.heap.cell (fragments.txnOf root)).counters, allowed counter)
    (belowAllowed : ∀ ref, Below fragments.children (fragments.children root) ref →
      ∀ counter ∈ own (fragments.txnOf ref), allowed counter) :
    ∀ txn ∈ new, ∀ counter ∈ (joined.heap.cell txn).counters, allowed counter := by
  intro txn member counter held
  have isLeaf : (joined.heap.cell txn).counters ∈ leaves fragments.children
      (merge fragments own) fuel (state.heap.cell (fragments.txnOf root)).counters
      (fragments.children root) := by
    rw [← run.counters]
    exact List.mem_map.mpr ⟨txn, member, rfl⟩
  rcases leaf_holds_only (fun counters counter => counter ∈ counters) mem_merge isLeaf held with
    inRoot | ⟨ref, isBelow, isOwn⟩
  · exact rootAllowed counter inRoot
  · exact belowAllowed ref isBelow counter isOwn

omit closed in
theorem Produces.below (fits : Fits fragments.children fuel (fragments.children root)) :
    ∀ ref, Below fragments.children (fragments.children root) ref →
      ∀ counter ∈ own (fragments.txnOf ref),
        ∃ txn ∈ new, counter ∈ (joined.heap.cell txn).counters := by
  intro ref isBelow counter isOwn
  obtain ⟨leaf, inLeaves, held⟩ := leaf_holds_below
    (fun counters counter => counter ∈ counters) mem_merge fits
    (state.heap.cell (fragments.txnOf root)).counters isBelow isOwn
  rw [← run.counters, List.mem_map] at inLeaves
  obtain ⟨txn, isNew, rfl⟩ := inLeaves
  exact ⟨txn, isNew, held⟩

omit closed in
theorem Gathers.cons {allowed : Counter → Prop} {state' : JoinState} {rest new' : List Nat}
    (gathers : Gathers fragments own allowed joined state' rest new')
    (allocated : ∀ other ∈ root :: rest, fragments.txnOf other < state.heap.size)
    (fits : Fits fragments.children fuel (fragments.children root))
    (newAllowed : ∀ txn ∈ new, ∀ counter ∈ (joined.heap.cell txn).counters, allowed counter) :
    Gathers fragments own allowed state state' (root :: rest) (new ++ new') := by
  have sizes := run.size
  have sizes' := gathers.size
  have rootBound := allocated root List.mem_cons_self
  have rootProduced : fragments.txnOf root ∈ new := run.produced _ rootBound rfl
  constructor
  · omega
  · intro ref old outside
    rw [List.map_cons, List.mem_cons, not_or] at outside
    rw [gathers.frame ref (by omega) outside.2, run.frame ref old outside.1]
  · intro ref old
    exact List.Subset.trans (run.grows ref old) (gathers.grows ref (by omega))
  · rw [gathers.txns, run.txns, List.append_assoc]
  · intro txn member
    rw [List.map_cons, List.mem_cons]
    rcases List.mem_append.mp member with early | late
    · obtain ⟨place, bound⟩ := run.members txn early
      exact ⟨place.imp_left .inl, by omega⟩
    · obtain ⟨place, bound⟩ := gathers.members txn late
      refine ⟨?_, bound⟩
      rcases place with inRest | isNew
      · exact .inl (.inr inRest)
      · exact .inr (by omega)
  · have head : [fragments.txnOf root].Sublist new := List.singleton_sublist.mpr rootProduced
    exact head.append gathers.sublist
  · intro txn member counter held
    by_cases late : txn ∈ new' ++ rest.map fragments.txnOf
    · exact gathers.only txn late counter held
    · have early : txn ∈ new := by
        simp only [List.map_cons, List.mem_append, List.mem_cons] at member late
        rcases member with (isEarly | isLate) | isRoot | inRest
        · exact isEarly
        · exact absurd (.inl isLate) late
        · exact isRoot ▸ rootProduced
        · exact absurd (.inr inRest) late
      rw [List.mem_append, not_or] at late
      rw [gathers.frame txn (run.members txn early).2 late.2] at held
      exact newAllowed txn early counter held
  · intro other member counter held
    rcases List.mem_cons.mp member with rfl | inRest
    · refine ⟨_, List.mem_append_left _ rootProduced, ?_⟩
      exact gathers.grows _ (by omega) (run.grows _ rootBound held)
    · obtain ⟨txn, isNew, found⟩ := gathers.rooted other inRest counter
        (run.grows _ (allocated other member) held)
      exact ⟨txn, List.mem_append_right _ isNew, found⟩
  · intro other member ref isBelow counter isOwn
    rcases List.mem_cons.mp member with rfl | inRest
    · obtain ⟨txn, isNew, held⟩ := run.below fits ref isBelow counter isOwn
      exact ⟨txn, List.mem_append_left _ isNew, gathers.grows txn (run.members txn isNew).2 held⟩
    · obtain ⟨txn, isNew, found⟩ := gathers.below other inRest ref isBelow counter isOwn
      exact ⟨txn, List.mem_append_right _ isNew, found⟩

end FirstRoot

theorem joinRoots_gathers {fuel : Nat} {state state' : JoinState} {roots : List Nat}
    (allowed : Counter → Prop)
    (called : joinRoots fragments fuel state roots = some state')
    (inputs : ∀ root ∈ roots, JoinInput kept own state (fragments.txnOf root))
    (rootsAllowed : ∀ root ∈ roots,
      ∀ counter ∈ (state.heap.cell (fragments.txnOf root)).counters, allowed counter)
    (belowAllowed : ∀ root ∈ roots, ∀ ref, Below fragments.children (fragments.children root) ref →
      ∀ counter ∈ own (fragments.txnOf ref), allowed counter) :
    ∃ new, Gathers fragments own allowed state state' roots new := by
  induction roots generalizing state with
  | nil =>
      simp only [joinRoots, Option.some.injEq] at called
      subst called
      exact ⟨[], .nil allowed state⟩
  | cons root rest ih =>
      have fits := (joinRoots_isSome fragments fuel state (root :: rest)).mp (by simp [called])
      rw [joinRoots] at called
      split at called
      · cases called
      · rename_i joined done
        have input := inputs root (by simp)
        obtain ⟨new, run⟩ := joinFragments_spec closed fuel _ _ _ _ done input (closed root)
        have newAllowed := run.only (rootsAllowed root (by simp)) (belowAllowed root (by simp))
        have sizes := run.size
        obtain ⟨new', gathers⟩ := ih called
          (by
            intro other member
            have otherInput := inputs other (by simp [member])
            have bound := otherInput.allocated
            exact input.after run (by omega) otherInput.apart)
          (by
            -- a root may share its transaction with the one that has just been joined
            intro other member counter held
            by_cases same : fragments.txnOf other = fragments.txnOf root
            · exact newAllowed _ (run.produced _ input.allocated rfl) counter (same ▸ held)
            · rw [run.frame _ (inputs other (by simp [member])).allocated same] at held
              exact rootsAllowed other (by simp [member]) counter held)
          (fun other member => belowAllowed other (by simp [member]))
        have allocated : ∀ other ∈ root :: rest, fragments.txnOf other < state.heap.size :=
          fun other member => (inputs other member).allocated
        exact ⟨new ++ new', gathers.cons run allocated (fits root (by simp)) newAllowed⟩

end Roots

end Xpedite.Txn
