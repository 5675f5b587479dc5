import Xpedite.Lib.Leaves
import Xpedite.Txn.Fragments
import Xpedite.Txn.Join

/-!
The links of the fragment store when link ids are unique and no fragment suspends
twice: a fragment is followed by all fragments that resume its link id, whichever
side was loaded first.
-/

namespace Xpedite.Txn

open Xpedite.Lib

structure Unique (pieces : List Piece) : Prop where
  linkIds : (pieces.flatMap Piece.suspendIds).Nodup
  once : ∀ piece ∈ pieces, piece.suspendIds.length ≤ 1

theorem Unique.of_append {pieces more : List Piece} (unique : Unique (pieces ++ more)) :
    Unique pieces := by
  refine ⟨?_, fun piece member => unique.once piece (List.mem_append_left _ member)⟩
  have linkIds := unique.linkIds
  rw [List.flatMap_append] at linkIds
  exact (List.nodup_append.mp linkIds).1

theorem Unique.eq_of_mem {pieces : List Piece} (unique : Unique pieces) {piece : Piece}
    {linkId other : Str} (member : piece ∈ pieces) (isFirst : linkId ∈ piece.suspendIds)
    (isSecond : other ∈ piece.suspendIds) : other = linkId := by
  have once := unique.once piece member
  obtain ⟨only, single⟩ := List.length_eq_one_iff.mp
    (Nat.le_antisymm once (List.length_pos_of_mem isFirst))
  rw [single, List.mem_singleton] at isFirst isSecond
  rw [isFirst, isSecond]

theorem Unique.ref_eq {pieces : List Piece} (unique : Unique pieces) {first second : Nat}
    {left right : Piece} {linkId : Str} (foundLeft : pieces[first]? = some left)
    (foundRight : pieces[second]? = some right) (inLeft : linkId ∈ left.suspendIds)
    (inRight : linkId ∈ right.suspendIds) : first = second :=
  index_eq_of_nodup_flatMap unique.linkIds foundLeft foundRight inLeft inRight

structure Links (fragments : TxnFragments) (pieces : List Piece) : Prop where
  suspending : ∀ linkId ref, fragments.suspending linkId = some ref ↔
    ∃ piece, pieces[ref]? = some piece ∧ linkId ∈ piece.suspendIds
  next : ∀ ref piece, pieces[ref]? = some piece → ∀ linkId,
    (fragments.fragment.cell ref).next = some linkId ↔
      linkId ∈ piece.suspendIds ∧ fragments.resuming linkId ≠ []

theorem setNext_next (fragments : TxnFragments) (ref other : Nat) (linkId : Str) :
    ((fragments.setNext ref linkId).fragment.cell other).next =
      if other = ref then some linkId else (fragments.fragment.cell other).next := by
  by_cases same : other = ref
  · subst same
    simp [TxnFragments.setNext]
  · simp [TxnFragments.setNext, Arena.cell_modify_of_ne _ _ same, same]

section Store

variable (fragments : TxnFragments)

theorem addResumeFragment_suspending (linkId other : Str) (txn : Nat) :
    (fragments.addResumeFragment linkId txn).1.suspending other = fragments.suspending other := by
  simp only [TxnFragments.addResumeFragment]
  split
  · split <;> rfl
  · rfl

theorem addResumeFragment_resuming (linkId other : Str) (txn : Nat) :
    (fragments.addResumeFragment linkId txn).1.resuming other =
      if other = linkId then fragments.resuming linkId ++ [fragments.fragment.size]
      else fragments.resuming other := by
  have updated : (fragments.addResumeFragment linkId txn).1.resuming =
      Function.update fragments.resuming linkId
        (fragments.resuming linkId ++ [fragments.fragment.size]) := by
    simp only [TxnFragments.addResumeFragment]
    split
    · split <;> rfl
    · rfl
  rw [updated, Function.update_apply]

theorem addResumeFragment_next (linkId : Str) (txn ref : Nat) :
    ((fragments.addResumeFragment linkId txn).1.fragment.cell ref).next =
      if fragments.resuming linkId = [] ∧ fragments.suspending linkId = some ref then some linkId
      else ((fragments.fragment.alloc ⟨txn, some linkId, none, none⟩).cell ref).next := by
  simp only [TxnFragments.addResumeFragment]
  split
  · rename_i first
    split
    · rename_i suspendFragment found
      rw [setNext_next]
      simp [first, found, eq_comm]
    · rename_i absent
      simp [absent]
  · rename_i later
    simp [later]

def TxnFragments.suspendAt (linkId : Str) (ref : Nat) : TxnFragments :=
  if fragments.resuming linkId = [] then
    { fragments with suspending := Function.update fragments.suspending linkId (some ref) }
  else ({ fragments with
    suspending := Function.update fragments.suspending linkId (some ref) } : TxnFragments).setNext
      ref linkId

theorem suspendAt_suspending (linkId other : Str) (ref : Nat) :
    (fragments.suspendAt linkId ref).suspending other =
      if other = linkId then some ref else fragments.suspending other := by
  simp only [TxnFragments.suspendAt]
  split <;> exact Function.update_apply _ _ _ _

theorem suspendAt_resuming (linkId other : Str) (ref : Nat) :
    (fragments.suspendAt linkId ref).resuming other = fragments.resuming other := by
  simp only [TxnFragments.suspendAt]
  split <;> rfl

theorem suspendAt_next (linkId : Str) (ref other : Nat) :
    ((fragments.suspendAt linkId ref).fragment.cell other).next =
      if fragments.resuming linkId ≠ [] ∧ other = ref then some linkId
      else (fragments.fragment.cell other).next := by
  simp only [TxnFragments.suspendAt]
  split
  · rename_i first
    simp [first]
  · rename_i resumed
    rw [setNext_next]
    simp [resumed]

end Store

namespace Links

variable {fragments : TxnFragments} {pieces : List Piece}

theorem new : Links .new [] := ⟨by simp [TxnFragments.new], by simp⟩

theorem addResumeFragment (links : Links fragments pieces) (shape : Shape fragments pieces)
    (unique : Unique pieces) (linkId : Str) (txn : Nat) :
    Links (fragments.addResumeFragment linkId txn).1 (pieces ++ [⟨txn, some linkId, []⟩]) := by
  constructor
  · intro other ref
    rw [addResumeFragment_suspending, links.suspending]
    refine exists_congr fun piece => ?_
    rw [getElem?_snoc]
    constructor
    · exact fun found => ⟨.inl found.1, found.2⟩
    · rintro ⟨found | ⟨_, rfl⟩, member⟩
      · exact ⟨found, member⟩
      · simp at member
  · intro ref piece found other
    rw [addResumeFragment_next, addResumeFragment_resuming]
    rcases getElem?_snoc.mp found with old | ⟨isNew, rfl⟩
    · have bound := (List.getElem?_eq_some_iff.mp old).1
      rw [Arena.cell_alloc_of_lt _ _ (by rw [shape.size]; exact bound)]
      have isPiece := List.mem_of_getElem? old
      by_cases linked : fragments.resuming linkId = [] ∧ fragments.suspending linkId = some ref
      · obtain ⟨suspendPiece, foundPiece, member⟩ := (links.suspending linkId ref).mp linked.2
        rw [old, Option.some.injEq] at foundPiece
        subst foundPiece
        simp only [linked, and_self, ↓reduceIte, Option.some.injEq]
        constructor
        · rintro rfl
          simp [member]
        · exact fun both => (unique.eq_of_mem isPiece member both.1).symm
      · simp only [linked, ↓reduceIte]
        rw [links.next ref piece old]
        by_cases same : other = linkId
        · subst same
          simp only [↓reduceIte, ne_eq, List.append_eq_nil_iff, List.cons_ne_self, and_false,
            not_false_eq_true, and_true, and_iff_left_iff_imp]
          intro member first
          exact linked ⟨first, (links.suspending other ref).mpr ⟨piece, old, member⟩⟩
        · simp [same]
    · have fresh : fragments.suspending linkId ≠ some ref := by
        intro found
        obtain ⟨piece, isPiece, _⟩ := (links.suspending linkId ref).mp found
        have bound := (List.getElem?_eq_some_iff.mp isPiece).1
        omega
      rw [isNew, ← shape.size] at fresh ⊢
      simp [fresh]

theorem suspend {later : List Piece} {linkId : Str} (links : Links fragments pieces) (ref : Nat)
    (unsuspended : ∀ (other : Nat) (piece : Piece), pieces[other]? = some piece →
      linkId ∉ piece.suspendIds)
    (before : ∀ piece, pieces[ref]? = some piece → piece.suspendIds = [])
    (pieceAt : ∃ piece, later[ref]? = some piece ∧ piece.suspendIds = [linkId])
    (others : ∀ other, other ≠ ref → later[other]? = pieces[other]?)
    (unlinked : (fragments.fragment.cell ref).next = none) :
    Links (fragments.suspendAt linkId ref) later := by
  obtain ⟨suspended, foundRef, single⟩ := pieceAt
  constructor
  · intro other place
    rw [suspendAt_suspending]
    by_cases sameId : other = linkId
    · subst sameId
      simp only [↓reduceIte, Option.some.injEq]
      constructor
      · rintro rfl
        exact ⟨suspended, foundRef, by simp [single]⟩
      · rintro ⟨piece, found, member⟩
        by_contra different
        rw [others place (Ne.symm different)] at found
        exact unsuspended place piece found member
    · simp only [sameId, ↓reduceIte, links.suspending]
      by_cases samePlace : place = ref
      · subst samePlace
        constructor
        · rintro ⟨piece, found, member⟩
          simp [before piece found] at member
        · rintro ⟨piece, found, member⟩
          rw [foundRef, Option.some.injEq] at found
          rw [← found, single, List.mem_singleton] at member
          exact absurd member sameId
      · rw [others place samePlace]
  · intro place piece found other
    rw [suspendAt_next, suspendAt_resuming]
    by_cases samePlace : place = ref
    · subst samePlace
      rw [foundRef, Option.some.injEq] at found
      rw [← found, single, List.mem_singleton]
      by_cases resumed : fragments.resuming linkId = []
      · simp only [resumed, ne_eq, not_true_eq_false, false_and, ↓reduceIte, unlinked, reduceCtorEq,
          false_iff, not_and, not_not]
        rintro rfl
        exact resumed
      · simp only [ne_eq, resumed, not_false_eq_true, and_self, ↓reduceIte, Option.some.injEq]
        constructor
        · rintro rfl
          exact ⟨rfl, resumed⟩
        · exact fun both => both.1.symm
    · simp only [samePlace, and_false, ↓reduceIte]
      rw [others place samePlace] at found
      exact links.next place piece found other

theorem addRootFragment (links : Links fragments pieces) (shape : Shape fragments pieces)
    {linkId : Str} {txn : Nat} (unique : Unique (pieces ++ [⟨txn, none, [linkId]⟩])) :
    Links (fragments.addSuspendFragment linkId txn none) (pieces ++ [⟨txn, none, [linkId]⟩]) := by
  have unsuspended : ∀ (other : Nat) (piece : Piece), pieces[other]? = some piece →
      linkId ∉ piece.suspendIds := by
    intro other piece found member
    have bound := (List.getElem?_eq_some_iff.mp found).1
    have same := unique.ref_eq (getElem?_snoc.mpr (.inl found))
      (getElem?_snoc.mpr (.inr ⟨rfl, rfl⟩)) member (by simp)
    omega
  have allocated : Links { fragments with
      fragment := fragments.fragment.alloc ⟨txn, none, some linkId, none⟩
      rootFragments := fragments.rootFragments ++ [fragments.fragment.size] } pieces := by
    refine ⟨links.suspending, fun ref piece found other => ?_⟩
    have bound := (List.getElem?_eq_some_iff.mp found).1
    rw [Arena.cell_alloc_of_lt _ _ (by rw [shape.size]; exact bound)]
    exact links.next ref piece found other
  refine allocated.suspend fragments.fragment.size unsuspended ?_ ?_ ?_ (by simp)
  · intro piece found
    have bound := (List.getElem?_eq_some_iff.mp found).1
    rw [shape.size] at bound
    omega
  · exact ⟨_, getElem?_snoc.mpr (.inr ⟨shape.size, rfl⟩), rfl⟩
  · intro other different
    rw [shape.size] at different
    exact getElem?_snoc_of_ne different

theorem suspendResumed {txn : Nat} {resumeId linkId : Str}
    (links : Links fragments (pieces ++ [⟨txn, some resumeId, []⟩]))
    (unique : Unique (pieces ++ [⟨txn, some resumeId, [linkId]⟩])) :
    Links (fragments.addSuspendFragment linkId txn (some pieces.length))
      (pieces ++ [⟨txn, some resumeId, [linkId]⟩]) := by
  have last : (pieces ++ [(⟨txn, some resumeId, []⟩ : Piece)])[pieces.length]? =
      some ⟨txn, some resumeId, []⟩ := getElem?_snoc.mpr (.inr ⟨rfl, rfl⟩)
  refine links.suspend pieces.length ?_ ?_ ?_ ?_ ?_
  · intro other piece found member
    rcases getElem?_snoc.mp found with old | ⟨_, rfl⟩
    · have bound := (List.getElem?_eq_some_iff.mp old).1
      have same := unique.ref_eq (getElem?_snoc.mpr (.inl old))
        (getElem?_snoc.mpr (.inr ⟨rfl, rfl⟩)) member (by simp)
      omega
    · simp at member
  · intro piece found
    rw [last, Option.some.injEq] at found
    rw [← found]
  · exact ⟨_, getElem?_snoc.mpr (.inr ⟨rfl, rfl⟩), rfl⟩
  · intro other different
    rw [getElem?_snoc_of_ne different, getElem?_snoc_of_ne different]
  · by_contra linked
    obtain ⟨other, isNext⟩ := Option.ne_none_iff_exists'.mp linked
    have member := ((links.next _ _ last other).mp isNext).1
    simp at member

theorem suspendBegun (links : Links fragments pieces) (shape : Shape fragments pieces)
    {suspendIds : List Str} {txn : Nat}
    (unique : Unique (pieces ++ suspendIds.map fun linkId => ⟨txn, none, [linkId]⟩)) :
    Links (suspendIds.foldl (fun fs linkId => fs.addSuspendFragment linkId txn none) fragments)
      (pieces ++ suspendIds.map fun linkId => ⟨txn, none, [linkId]⟩) := by
  induction suspendIds generalizing fragments pieces with
  | nil => simpa using links
  | cons linkId rest ih =>
      rw [List.map_cons, List.append_cons] at unique ⊢
      exact ih (links.addRootFragment shape unique.of_append) (shape.addRootFragment linkId txn) unique

theorem register (links : Links fragments pieces) (shape : Shape fragments pieces)
    {segment : Segment} {txn : Nat} (unique : Unique (pieces ++ segment.pieces txn)) :
    Links (fragments.register segment txn) (pieces ++ segment.pieces txn) := by
  cases origin : segment.origin with
  | begun =>
      simp only [Segment.pieces, origin] at unique
      simp only [TxnFragments.register, Segment.pieces, origin]
      exact links.suspendBegun shape unique
  | resumed linkId =>
      simp only [Segment.pieces, origin] at unique
      simp only [TxnFragments.register, Segment.pieces, origin, shape.size]
      have resumed := links.addResumeFragment shape unique.of_append linkId txn
      have once := unique.once _ (List.mem_append_right _ (List.mem_singleton.mpr rfl))
      cases suspendIds : segment.suspendIds with
      | nil => exact resumed
      | cons suspendId rest =>
          cases rest with
          | nil =>
              rw [suspendIds] at unique
              exact resumed.suspendResumed unique
          | cons second others => simp [suspendIds] at once
  | headless => simpa [TxnFragments.register, Segment.pieces, origin] using links

end Links

theorem fragmentsOf_links {segments : List Segment} (unique : Unique (piecesOf segments)) :
    Links (fragmentsOf segments) (piecesOf segments) := by
  induction segments using List.reverseRecOn with
  | nil => exact .new
  | append_singleton segments segment ih =>
      rw [piecesOf_append] at unique ⊢
      rw [fragmentsOf_append]
      exact (ih unique.of_append).register (fragmentsOf_shape segments) unique

namespace Links

variable {fragments : TxnFragments} {pieces : List Piece}

theorem children_eq (links : Links fragments pieces) (unique : Unique pieces) {ref : Nat}
    {piece : Piece} (found : pieces[ref]? = some piece) :
    fragments.children ref = piece.suspendIds.flatMap fragments.resuming := by
  have next := links.next ref piece found
  have once := unique.once piece (List.mem_of_getElem? found)
  rw [TxnFragments.children]
  cases suspendIds : piece.suspendIds with
  | nil =>
      have noNext : (fragments.fragment.cell ref).next = none := by
        by_contra linked
        obtain ⟨other, isNext⟩ := Option.ne_none_iff_exists'.mp linked
        have member := ((next other).mp isNext).1
        simp [suspendIds] at member
      simp [noNext, TxnFragments.follow]
  | cons linkId rest =>
      cases rest with
      | nil =>
          rw [List.flatMap_singleton]
          by_cases resumed : fragments.resuming linkId = []
          · have noNext : (fragments.fragment.cell ref).next = none := by
              by_contra linked
              obtain ⟨other, isNext⟩ := Option.ne_none_iff_exists'.mp linked
              obtain ⟨member, resumes⟩ := (next other).mp isNext
              rw [suspendIds, List.mem_singleton] at member
              exact resumes (member ▸ resumed)
            simp [noNext, TxnFragments.follow, resumed]
          · rw [(next linkId).mpr ⟨by simp [suspendIds], resumed⟩]
            rfl
      | cons second others => simp [suspendIds] at once

theorem linksFinite (links : Links fragments pieces) (shape : Shape fragments pieces)
    (unique : Unique pieces) : fragments.LinksFinite := by
  intro root isRoot
  obtain ⟨rootPiece, foundRoot, rootless⟩ := shape.mem_rootFragments.mp isRoot
  have reachedPiece {ref : Nat} (reached : Relation.ReflTransGen
      (fun parent child => child ∈ fragments.children parent) root ref) :
      ∃ piece, pieces[ref]? = some piece := by
    rcases Relation.ReflTransGen.cases_tail reached with rfl | ⟨parent, _, isChild⟩
    · exact ⟨rootPiece, foundRoot⟩
    · obtain ⟨piece, _, found, _⟩ := shape.mem_children isChild
      exact ⟨piece, found⟩
  have linkOf {parent child : Nat} {piece childPiece : Piece}
      (found : pieces[parent]? = some piece) (foundChild : pieces[child]? = some childPiece)
      (isChild : child ∈ fragments.children parent) :
      ∃ linkId ∈ piece.suspendIds, childPiece.resumeId = some linkId := by
    rw [links.children_eq unique found, List.mem_flatMap] at isChild
    obtain ⟨linkId, isLink, resumes⟩ := isChild
    obtain ⟨other, isOther, resumeId⟩ := shape.mem_resuming.mp resumes
    rw [foundChild, Option.some.injEq] at isOther
    exact ⟨linkId, isLink, isOther ▸ resumeId⟩
  refine acc_of_unique_parent ?_ ?_ ?_
  · intro parent isChild
    obtain ⟨piece, linkId, found, resumes⟩ := shape.mem_children isChild
    rw [foundRoot, Option.some.injEq] at found
    rw [← found, rootless] at resumes
    cases resumes
  · intro child parent parent' reached reached' isChild isChild'
    obtain ⟨piece, found⟩ := reachedPiece reached
    obtain ⟨piece', found'⟩ := reachedPiece reached'
    obtain ⟨childPiece, _, foundChild, _⟩ := shape.mem_children isChild
    obtain ⟨linkId, inFirst, resumes⟩ := linkOf found foundChild isChild
    obtain ⟨linkId', inSecond, resumes'⟩ := linkOf found' foundChild isChild'
    rw [resumes, Option.some.injEq] at resumes'
    exact unique.ref_eq found found' inFirst (resumes' ▸ inSecond)
  · refine (Set.finite_lt_nat pieces.length).subset ?_
    intro ref reached
    obtain ⟨piece, found⟩ := reachedPiece reached
    exact (List.getElem?_eq_some_iff.mp found).1

end Links

theorem children_eq {segments : List Segment} (unique : Unique (piecesOf segments)) {ref : Nat}
    {piece : Piece} (found : (piecesOf segments)[ref]? = some piece) :
    (fragmentsOf segments).children ref =
      piece.suspendIds.flatMap (fragmentsOf segments).resuming :=
  (fragmentsOf_links unique).children_eq unique found

theorem linksFinite_of_unique {segments : List Segment} (unique : Unique (piecesOf segments)) :
    (fragmentsOf segments).LinksFinite :=
  (fragmentsOf_links unique).linksFinite (fragmentsOf_shape segments) unique

end Xpedite.Txn
