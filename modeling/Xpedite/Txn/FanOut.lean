import Xpedite.Lib.StableSort
import Xpedite.Lib.Walks
import Xpedite.Txn.Links

/-!
`TxnFragments.join` for every store that its two ways of adding a fragment lead to:
one transaction for each path from a root fragment to a fragment that nothing
resumes.
-/

namespace Xpedite.Txn

open Xpedite.Lib

def Piece.suspend (linkId : Str) (piece : Piece) : Piece :=
  { piece with suspendIds := piece.suspendIds ++ [linkId] }

/-- The stores that calls of `addResumeFragment` and `addSuspendFragment` lead to, with what each
fragment object stands for. -/
inductive Built : TxnFragments → List Piece → Prop
  | new : Built .new []
  | resume {fragments : TxnFragments} {pieces : List Piece} (built : Built fragments pieces)
      (linkId : Str) (txn : Nat) :
      Built (fragments.addResumeFragment linkId txn).1 (pieces ++ [⟨txn, some linkId, []⟩])
  | suspendRoot {fragments : TxnFragments} {pieces : List Piece} (built : Built fragments pieces)
      (linkId : Str) (txn : Nat) :
      Built (fragments.addSuspendFragment linkId txn none) (pieces ++ [⟨txn, none, [linkId]⟩])
  | suspend {fragments : TxnFragments} {before after : List Piece} {piece : Piece}
      (built : Built fragments (before ++ piece :: after)) (linkId : Str) (txn : Nat) :
      Built (fragments.addSuspendFragment linkId txn (some before.length))
        (before ++ piece.suspend linkId :: after)

theorem getElem?_middle {before after : List Piece} {piece : Piece} :
    (before ++ piece :: after)[before.length]? = some piece := by simp

theorem getElem?_middle_of_ne {before after : List Piece} (piece other : Piece) {index : Nat}
    (different : index ≠ before.length) :
    (before ++ piece :: after)[index]? = (before ++ other :: after)[index]? := by
  rcases Nat.lt_or_gt_of_ne different with less | more
  · rw [List.getElem?_append_left less, List.getElem?_append_left less]
  · rw [List.getElem?_append_right more.le, List.getElem?_append_right more.le]
    obtain ⟨offset, isSucc⟩ : ∃ offset, index - before.length = offset + 1 :=
      ⟨index - before.length - 1, by omega⟩
    rw [isSucc, List.getElem?_cons_succ, List.getElem?_cons_succ]

theorem Shape.suspend {fragments : TxnFragments} {before after : List Piece} {piece : Piece}
    (shape : Shape fragments (before ++ piece :: after)) (linkId : Str) (txn : Nat) :
    Shape (fragments.addSuspendFragment linkId txn (some before.length))
      (before ++ piece.suspend linkId :: after) := by
  have registered : Shape { fragments with
      suspending := Function.update fragments.suspending linkId (some before.length) }
      (before ++ piece.suspend linkId :: after) := by
    refine ⟨by simpa using shape.size, ?_, ?_, ?_⟩
    · intro ref other found
      by_cases same : ref = before.length
      · subst same
        rw [getElem?_middle, Option.some.injEq] at found
        exact found ▸ shape.cells before.length piece getElem?_middle
      · rw [getElem?_middle_of_ne _ piece same] at found
        exact shape.cells ref other found
    · simpa [List.findIdxs_append, List.findIdxs_cons, Piece.suspend] using shape.roots
    · intro other
      simpa [List.findIdxs_append, List.findIdxs_cons, Piece.suspend] using shape.resuming other
  exact registered.link before.length linkId

theorem Built.shape {fragments : TxnFragments} {pieces : List Piece}
    (built : Built fragments pieces) : Shape fragments pieces := by
  induction built with
  | new => exact .new
  | resume _ linkId txn ih => exact (ih.addResumeFragment linkId txn).1
  | suspendRoot _ linkId txn ih => exact ih.addRootFragment linkId txn
  | suspend _ linkId txn ih => exact ih.suspend linkId txn

section Suspend

variable {before after : List Piece} {piece : Piece} {linkId : Str}

theorem suspendIds_of_suspend (unique : Unique (before ++ piece.suspend linkId :: after)) :
    piece.suspendIds = [] := by
  have once := unique.once (piece.suspend linkId) (by simp)
  rw [Piece.suspend, List.length_append, List.length_singleton] at once
  exact List.length_eq_zero_iff.mp (by omega)

theorem Unique.of_suspend (unique : Unique (before ++ piece.suspend linkId :: after)) :
    Unique (before ++ piece :: after) := by
  have none := suspendIds_of_suspend unique
  constructor
  · refine unique.linkIds.sublist ?_
    rw [List.flatMap_append, List.flatMap_append, List.flatMap_cons, List.flatMap_cons, none]
    exact (List.Sublist.refl _).append (List.sublist_append_right _ _)
  · intro other member
    rcases List.mem_append.mp member with early | late
    · exact unique.once other (by simp [early])
    · rcases List.mem_cons.mp late with rfl | behind
      · simp [none]
      · exact unique.once other (by simp [behind])

theorem Links.suspendMiddle {fragments : TxnFragments}
    (links : Links fragments (before ++ piece :: after))
    (unique : Unique (before ++ piece.suspend linkId :: after)) :
    Links (fragments.suspendAt linkId before.length) (before ++ piece.suspend linkId :: after) := by
  have none := suspendIds_of_suspend unique
  have single : (piece.suspend linkId).suspendIds = [linkId] := by simp [Piece.suspend, none]
  refine links.suspend before.length ?_ ?_ ⟨_, getElem?_middle, single⟩
    (fun other different => getElem?_middle_of_ne _ _ different) ?_
  · intro other holder found member
    by_cases same : other = before.length
    · subst same
      rw [getElem?_middle, Option.some.injEq] at found
      simp [← found, none] at member
    · rw [getElem?_middle_of_ne _ (piece.suspend linkId) same] at found
      exact same (unique.ref_eq found getElem?_middle member (by simp [single]))
  · intro holder found
    rw [getElem?_middle, Option.some.injEq] at found
    exact found ▸ none
  · by_contra linked
    obtain ⟨other, isNext⟩ := Option.ne_none_iff_exists'.mp linked
    have member := ((links.next _ _ getElem?_middle other).mp isNext).1
    simp [none] at member

end Suspend

namespace Built

variable {fragments : TxnFragments} {pieces : List Piece}

theorem links (built : Built fragments pieces) (unique : Unique pieces) :
    Links fragments pieces := by
  induction built with
  | new => exact .new
  | resume built linkId txn ih =>
      have earlier := unique.of_append
      exact (ih earlier).addResumeFragment built.shape earlier linkId txn
  | suspendRoot built linkId txn ih =>
      exact (ih unique.of_append).addRootFragment built.shape unique
  | suspend _ linkId txn ih => exact (ih unique.of_suspend).suspendMiddle unique

theorem next_of_ge (built : Built fragments pieces) (unique : Unique pieces) {ref : Nat}
    (beyond : pieces.length ≤ ref) : (fragments.fragment.cell ref).next = none := by
  induction built with
  | new => rfl
  | @resume fragments pieces built linkId txn ih =>
      have earlier := unique.of_append
      rw [List.length_append, List.length_singleton] at beyond
      have unsuspended : fragments.suspending linkId ≠ some ref := by
        intro found
        obtain ⟨piece, isPiece, _⟩ := ((built.links earlier).suspending linkId ref).mp found
        have bound := (List.getElem?_eq_some_iff.mp isPiece).1
        omega
      have size := built.shape.size
      rw [addResumeFragment_next, if_neg fun linked => unsuspended linked.2,
        Arena.cell_alloc_of_ne _ _ (by omega)]
      exact ih earlier (by omega)
  | @suspendRoot fragments pieces built linkId txn ih =>
      rw [List.length_append, List.length_singleton] at beyond
      have size := built.shape.size
      have other : ref ≠ fragments.fragment.size := by omega
      have same := suspendAt_next { fragments with
        fragment := fragments.fragment.alloc ⟨txn, none, some linkId, none⟩
        rootFragments := fragments.rootFragments ++ [fragments.fragment.size] } linkId
        fragments.fragment.size ref
      rw [if_neg fun both => other both.2, Arena.cell_alloc_of_ne _ _ other] at same
      exact same.trans (ih unique.of_append (by omega))
  | @suspend fragments before after piece built linkId txn ih =>
      rw [List.length_append, List.length_cons] at beyond ih
      have same := suspendAt_next fragments linkId before.length ref
      rw [if_neg fun both => by omega] at same
      exact same.trans (ih unique.of_suspend (by omega))

end Built

def rootsOf (pieces : List Piece) : List Nat :=
  pieces.findIdxs fun piece => piece.resumeId = none

def resumers (pieces : List Piece) (ref : Nat) : List Nat :=
  (pieces[ref]?.toList.flatMap Piece.suspendIds).flatMap fun linkId =>
    pieces.findIdxs fun piece => piece.resumeId = some linkId

def IsPath (pieces : List Piece) (path : List Nat) : Prop :=
  path ≠ [] ∧ Descends (resumers pieces) (rootsOf pieces) path

theorem Built.children_eq {fragments : TxnFragments} {pieces : List Piece}
    (built : Built fragments pieces) (unique : Unique pieces) :
    fragments.children = resumers pieces := by
  funext ref
  cases found : pieces[ref]? with
  | none =>
      have beyond := List.getElem?_eq_none_iff.mp found
      simp [TxnFragments.children, built.next_of_ge unique beyond, TxnFragments.follow, resumers,
        found]
  | some piece =>
      rw [(built.links unique).children_eq unique found, resumers, found, Option.toList_some,
        List.flatMap_singleton]
      exact List.flatMap_congr fun linkId _ => built.shape.resuming linkId

theorem resumers_nodup {pieces : List Piece} (unique : Unique pieces) (ref : Nat) :
    (resumers pieces ref).Nodup := by
  cases found : pieces[ref]? with
  | none => simp [resumers, found]
  | some piece =>
      rw [resumers, found, Option.toList_some, List.flatMap_singleton]
      match suspendIds : piece.suspendIds with
      | [] => exact List.nodup_nil
      | [linkId] =>
          rw [List.flatMap_singleton]
          exact List.nodup_findIdxs
      | _ :: _ :: _ =>
          have once := unique.once piece (List.mem_of_getElem? found)
          simp [suspendIds] at once

section Counters

variable (fragments : TxnFragments) (own : Nat → List Counter)

/-- A root fragment without resumers keeps its counters as they are. -/
def pathCounters (counters : Nat → List Counter) : List Nat → List Counter
  | [root] => counters root
  | path => Transaction.sortByTsc (path.flatMap counters)

theorem foldl_merge (counters : List Counter) (ref : Nat) (rest : List Nat) :
    (ref :: rest).foldl (merge fragments own) counters =
      Transaction.sortByTsc (counters ++ (ref :: rest).flatMap fun r => own (fragments.txnOf r)) := by
  induction rest generalizing counters ref with
  | nil => simp [merge]
  | cons next rest ih =>
      have sorted := @sortBy_sortBy_append _ _ _ Counter.tsc (counters ++ own (fragments.txnOf ref))
        ((next :: rest).flatMap fun r => own (fragments.txnOf r))
      rw [List.foldl_cons, ih, merge]
      rw [List.append_assoc] at sorted
      exact sorted

theorem foldl_merge_root (root : Nat) (rest : List Nat) :
    rest.foldl (merge fragments own) (own (fragments.txnOf root)) =
      pathCounters (fun ref => own (fragments.txnOf ref)) (root :: rest) := by
  cases rest with
  | nil => rfl
  | cons next rest =>
      rw [foldl_merge]
      rfl

end Counters

/-- The transactions that `join` returned, next to the paths they were joined along. -/
structure JoinsPaths (fragments : TxnFragments) (pieces : List Piece) (heap : Arena Transaction)
    (nextTxnId : Nat) (joined : JoinState) (paths : List (List Nat)) : Prop where
  isPath : ∀ path, path ∈ paths ↔ IsPath pieces path
  nodup : paths.Nodup
  depthFirst : paths.Pairwise (Earlier (resumers pieces) (rootsOf pieces))
  objects : joined.txns.Nodup
  txnIds : joined.txns.map (fun txn => (joined.heap.cell txn).txnId) =
    (List.range' (nextTxnId + 1) paths.length).map TxnId.int
  counters : joined.txns.map (fun txn => (joined.heap.cell txn).counters) =
    paths.map (pathCounters fun ref => (heap.cell (fragments.txnOf ref)).counters)
  kept : ∀ txn < heap.size, txn ∉ (rootsOf pieces).map fragments.txnOf →
    joined.heap.cell txn = heap.cell txn

theorem Built.eq_of_txn {pieces : List Piece} (ownTxns : (pieces.map Piece.txn).Nodup)
    {piece other : Piece} (isPiece : piece ∈ pieces) (isOther : other ∈ pieces)
    (same : piece.txn = other.txn) : piece = other :=
  List.inj_on_of_nodup_map ownTxns isPiece isOther same

section Join

variable {fragments : TxnFragments} {pieces : List Piece} {heap : Arena Transaction}

def ResumedTxn (pieces : List Piece) (txn : Nat) : Prop :=
  ∃ piece ∈ pieces, piece.resumeId ≠ none ∧ piece.txn = txn

theorem joinInput_of_root (shape : Shape fragments pieces) (ownTxns : (pieces.map Piece.txn).Nodup)
    (allocated : ∀ piece ∈ pieces, piece.txn < heap.size) (nextTxnId : Nat) {root : Nat}
    (isRoot : root ∈ fragments.rootFragments) :
    JoinInput (ResumedTxn pieces) (fun txn => (heap.cell txn).counters) ⟨heap, nextTxnId, []⟩
      (fragments.txnOf root) := by
  obtain ⟨rootPiece, found, rootless⟩ := shape.mem_rootFragments.mp isRoot
  have isPiece := List.mem_of_getElem? found
  rw [shape.txnOf found]
  refine ⟨allocated rootPiece isPiece, ?_, ?_⟩
  · rintro ⟨piece, isOther, resumed, same⟩
    rw [Built.eq_of_txn ownTxns isOther isPiece same] at resumed
    exact resumed rootless
  · rintro txn ⟨piece, isOther, _, rfl⟩
    exact ⟨allocated piece isOther, rfl⟩

theorem rootTxns_nodup (shape : Shape fragments pieces) (ownTxns : (pieces.map Piece.txn).Nodup) :
    (fragments.rootFragments.map fragments.txnOf).Nodup := by
  rw [shape.roots, map_findIdxs fun ref piece found => shape.txnOf found]
  exact ownTxns.sublist (List.filter_sublist.map Piece.txn)

theorem join_paths (built : Built fragments pieces) (unique : Unique pieces)
    (ownTxns : (pieces.map Piece.txn).Nodup)
    (allocated : ∀ piece ∈ pieces, piece.txn < heap.size) (nextTxnId : Nat) :
    (∃ fuel joined, fragments.join fuel heap nextTxnId = some joined) ∧
      ∀ fuel joined, fragments.join fuel heap nextTxnId = some joined →
        ∃ paths, JoinsPaths fragments pieces heap nextTxnId joined paths := by
  have shape := built.shape
  have children := built.children_eq unique
  refine ⟨(exists_join_iff _ _ _).mpr ((built.links unique).linksFinite shape unique), ?_⟩
  intro fuel joined called
  have closed : ∀ ref, ∀ child ∈ fragments.children ref,
      ResumedTxn pieces (fragments.txnOf child) := by
    intro ref child isChild
    obtain ⟨piece, linkId, found, resumes⟩ := shape.mem_children isChild
    rw [shape.txnOf found]
    exact ⟨piece, List.mem_of_getElem? found, by simp [resumes], rfl⟩
  obtain ⟨new, run⟩ := joinRoots_spec closed called
    (fun root isRoot => joinInput_of_root shape ownTxns allocated nextTxnId isRoot)
    (fun _ _ => rfl) (rootTxns_nodup shape ownTxns)
  have fits := (joinRoots_isSome fragments fuel ⟨heap, nextTxnId, []⟩ fragments.rootFragments).mp
    (Option.isSome_iff_exists.mpr ⟨joined, called⟩)
  rw [children] at fits
  have roots : fragments.rootFragments = rootsOf pieces := shape.roots
  have txns : joined.txns = new := run.txns
  let below (root : Nat) := walks (resumers pieces) fuel (resumers pieces root)
  have counters : joined.txns.map (fun txn => (joined.heap.cell txn).counters) =
      ((rootsOf pieces).flatMap fun root => (below root).map (root :: ·)).map
        (pathCounters fun ref => (heap.cell (fragments.txnOf ref)).counters) := by
    rw [txns, run.counters, roots, List.map_flatMap]
    apply List.flatMap_congr
    intro root _
    rw [leaves_eq_map_walks, List.map_map, children]
    apply List.map_congr_left
    intro path _
    exact foldl_merge_root fragments (fun txn => (heap.cell txn).counters) root path
  have depthFirst : ((rootsOf pieces).flatMap fun root => (below root).map (root :: ·)).Pairwise
      (Earlier (resumers pieces) (rootsOf pieces)) :=
    flatMap_cons_earlier fun root _ => walks_earlier fuel (resumers pieces root)
  refine ⟨_, ?_, ?_, depthFirst, ?_, ?_, counters, ?_⟩
  · intro path
    simp only [List.mem_flatMap, List.mem_map]
    constructor
    · rintro ⟨root, isRoot, rest, isWalk, rfl⟩
      have descends := (mem_walks (fits root (roots ▸ isRoot))).mp isWalk
      exact ⟨List.cons_ne_nil _ _, isRoot, descends⟩
    · rintro ⟨nonempty, descends⟩
      obtain ⟨root, rest, rfl⟩ := List.exists_cons_of_ne_nil nonempty
      have isWalk := (mem_walks (fits root (roots ▸ descends.1))).mpr descends.2
      exact ⟨root, descends.1, rest, isWalk, rfl⟩
  · refine depthFirst.imp ?_
    rintro path _ earlier rfl
    exact not_earlier_self (resumers_nodup unique) List.nodup_findIdxs path earlier
  · exact txns ▸ run.nodup
  · have sameLength := congrArg List.length counters
    rw [List.length_map, List.length_map, txns] at sameLength
    rw [txns, run.txnIds, sameLength]
  · intro txn bound notRoot
    exact run.frame txn bound (roots ▸ notRoot)

end Join

section Examples

def heapOf (stamps : List (List Nat)) : Arena Transaction where
  cell ref := ⟨.int 0, ((stamps[ref]?).getD []).map fun tsc => ⟨tsc, .probe, [], tsc⟩, false⟩
  size := stamps.length

/-- Two fragments resume the root, and two more resume the first of these. -/
def nestedFanOut : TxnFragments :=
  let root := TxnFragments.new.addSuspendFragment ['a'] 0 none
  let resumed := (root.addResumeFragment ['a'] 1).1.addSuspendFragment ['b'] 1 (some 1)
  let both := (resumed.addResumeFragment ['a'] 2).1
  ((both.addResumeFragment ['b'] 3).1.addResumeFragment ['b'] 4).1

def nestedPieces : List Piece :=
  [⟨0, none, [['a']]⟩, ⟨1, some ['a'], [['b']]⟩, ⟨2, some ['a'], []⟩, ⟨3, some ['b'], []⟩,
    ⟨4, some ['b'], []⟩]

theorem join_paths_nested : ∃ fuel joined paths,
    nestedFanOut.join fuel (heapOf [[1, 2], [4, 5], [3, 9], [7], [6, 8]]) 7 = some joined ∧
      JoinsPaths nestedFanOut nestedPieces (heapOf [[1, 2], [4, 5], [3, 9], [7], [6, 8]]) 7
        joined paths := by
  have resumed := (Built.new.suspendRoot ['a'] 0).resume ['a'] 1
  have suspended := @Built.suspend _ [⟨0, none, [['a']]⟩] [] _ resumed ['b'] 1
  have built : Built nestedFanOut nestedPieces :=
    ((suspended.resume ['a'] 2).resume ['b'] 3).resume ['b'] 4
  obtain ⟨⟨fuel, joined, called⟩, paths⟩ := @join_paths nestedFanOut nestedPieces
    (heapOf [[1, 2], [4, 5], [3, 9], [7], [6, 8]]) built ⟨by decide, by decide⟩ (by decide)
    (by decide) 7
  obtain ⟨paths, joins⟩ := paths fuel joined called
  exact ⟨fuel, joined, paths, called, joins⟩

def sharedTxn : TxnFragments :=
  let roots := (TxnFragments.new.addSuspendFragment ['a'] 0 none).addSuspendFragment ['b'] 0 none
  ((roots.addResumeFragment ['a'] 1).1.addResumeFragment ['b'] 2).1

def sharedPieces : List Piece :=
  [⟨0, none, [['a']]⟩, ⟨0, none, [['b']]⟩, ⟨1, some ['a'], []⟩, ⟨2, some ['b'], []⟩]

/-- A root fragment that nothing resumes keeps counters that are out of order, and two root
fragments with one transaction give one transaction for both paths. -/
theorem join_loneRoot_sharedTxn :
    (Built (TxnFragments.new.addSuspendFragment ['a'] 0 none) [⟨0, none, [['a']]⟩] ∧
      Unique [⟨0, none, [['a']]⟩] ∧ IsPath [⟨0, none, [['a']]⟩] [0] ∧
      ((TxnFragments.new.addSuspendFragment ['a'] 0 none).join 1 (heapOf [[2, 1]]) 0).map
        (fun joined => joined.txns.map fun txn =>
          ((joined.heap.cell txn).counters.map Counter.tsc)) = some [[2, 1]]) ∧
    (Built sharedTxn sharedPieces ∧ Unique sharedPieces ∧ IsPath sharedPieces [0, 2] ∧
      IsPath sharedPieces [1, 3] ∧
      (sharedTxn.join 2 (heapOf [[1, 2], [3], [4]]) 0).map
        (fun joined => joined.txns.map fun txn =>
          (txn, (joined.heap.cell txn).counters.map Counter.tsc)) =
        some [(0, [1, 2, 3, 4]), (0, [1, 2, 3, 4])]) := by
  refine ⟨⟨Built.new.suspendRoot ['a'] 0, ⟨by decide, by decide⟩, ?_, by decide⟩, ?_⟩
  · simp [IsPath, Descends, rootsOf, resumers]
  · refine ⟨?_, ⟨by decide, by decide⟩, ?_, ?_, by decide⟩
    · exact (((Built.new.suspendRoot ['a'] 0).suspendRoot ['b'] 0).resume ['a'] 1).resume ['b'] 2
    · simp [IsPath, Descends, rootsOf, resumers, sharedPieces]
    · simp [IsPath, Descends, rootsOf, resumers, sharedPieces]

end Examples

end Xpedite.Txn
