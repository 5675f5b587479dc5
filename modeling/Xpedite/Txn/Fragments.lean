import Xpedite.Lib.Snoc
import Xpedite.Txn.LoaderRefines

/-!
The fragment store in closed form.  Each segment contributes its fragments in the
order the segments were opened: a resumed one a single fragment, a begun one a root
fragment for each of its suspend counters.
-/

namespace Xpedite.Txn

open Xpedite.Lib

structure Piece where
  txn : Nat
  resumeId : Option Str
  suspendIds : List Str
  deriving DecidableEq, Repr

def Segment.pieces (segment : Segment) (txn : Nat) : List Piece :=
  match segment.origin with
  | .resumed linkId => [⟨txn, some linkId, segment.suspendIds⟩]
  | .begun => segment.suspendIds.map fun linkId => ⟨txn, none, [linkId]⟩
  | .headless => []

def piecesOf (segments : List Segment) : List Piece :=
  segments.zipIdx.flatMap fun entry => entry.1.pieces entry.2

theorem piecesOf_append (segments : List Segment) (segment : Segment) :
    piecesOf (segments ++ [segment]) = piecesOf segments ++ segment.pieces segments.length := by
  simp [piecesOf, List.zipIdx_append]

structure Shape (fragments : TxnFragments) (pieces : List Piece) : Prop where
  size : fragments.fragment.size = pieces.length
  cells : ∀ ref piece, pieces[ref]? = some piece →
    (fragments.fragment.cell ref).txn = piece.txn ∧
      (fragments.fragment.cell ref).resumeId = piece.resumeId
  roots : fragments.rootFragments = pieces.findIdxs fun piece => piece.resumeId = none
  resuming : ∀ linkId,
    fragments.resuming linkId = pieces.findIdxs fun piece => piece.resumeId = some linkId

namespace Shape

variable {fragments : TxnFragments} {pieces : List Piece}

theorem new : Shape .new [] where
  size := rfl
  cells := by simp
  roots := rfl
  resuming := fun _ => rfl

theorem setNext (shape : Shape fragments pieces) (ref : Nat) (linkId : Str) :
    Shape (fragments.setNext ref linkId) pieces where
  size := by simpa [TxnFragments.setNext] using shape.size
  cells := by
    intro other piece found
    by_cases same : other = ref
    · subst same
      simpa [TxnFragments.setNext] using shape.cells other piece found
    · simpa [TxnFragments.setNext, Arena.cell_modify_of_ne _ _ same] using
        shape.cells other piece found
  roots := shape.roots
  resuming := shape.resuming

theorem alloc (shape : Shape fragments pieces) (fragment : TxnFragment) (piece : Piece)
    (txn : fragment.txn = piece.txn) (resumeId : fragment.resumeId = piece.resumeId) :
    ∀ ref other, (pieces ++ [piece])[ref]? = some other →
      ((fragments.fragment.alloc fragment).cell ref).txn = other.txn ∧
        ((fragments.fragment.alloc fragment).cell ref).resumeId = other.resumeId := by
  intro ref other found
  rcases getElem?_snoc.mp found with old | ⟨isNew, rfl⟩
  · have bound := (List.getElem?_eq_some_iff.mp old).1
    rw [Arena.cell_alloc_of_lt _ _ (by rw [shape.size]; exact bound)]
    exact shape.cells ref other old
  · rw [isNew, ← shape.size, Arena.cell_alloc_fresh]
    exact ⟨txn, resumeId⟩

theorem addResumeFragment (shape : Shape fragments pieces) (linkId : Str) (txn : Nat) :
    Shape (fragments.addResumeFragment linkId txn).1 (pieces ++ [⟨txn, some linkId, []⟩]) ∧
      (fragments.addResumeFragment linkId txn).2 = pieces.length := by
  refine ⟨?_, shape.size⟩
  have cells := shape.alloc ⟨txn, some linkId, none, none⟩ ⟨txn, some linkId, []⟩ rfl rfl
  have resuming (other : Str) :
      Function.update fragments.resuming linkId
          (fragments.resuming linkId ++ [fragments.fragment.size]) other =
        (pieces ++ [(⟨txn, some linkId, []⟩ : Piece)]).findIdxs
          fun piece => piece.resumeId = some other := by
    rw [List.findIdxs_append, ← shape.resuming, shape.size]
    by_cases same : other = linkId
    · subst same
      simp
    · simp [same, Ne.symm same]
  have created : Shape { fragments with
      fragment := fragments.fragment.alloc ⟨txn, some linkId, none, none⟩
      resuming := Function.update fragments.resuming linkId
        (fragments.resuming linkId ++ [fragments.fragment.size]) }
      (pieces ++ [⟨txn, some linkId, []⟩]) :=
    ⟨by simp [shape.size], cells, by simp [List.findIdxs_append, shape.roots], resuming⟩
  simp only [TxnFragments.addResumeFragment]
  split
  · split
    · rename_i suspendFragment _
      exact created.setNext suspendFragment linkId
    · exact created
  · exact created

theorem link (shape : Shape fragments pieces) (ref : Nat) (linkId : Str) :
    Shape (if fragments.resuming linkId = [] then fragments else fragments.setNext ref linkId)
      pieces := by
  split
  · exact shape
  · exact shape.setNext ref linkId

theorem addRootFragment (shape : Shape fragments pieces) (linkId : Str) (txn : Nat) :
    Shape (fragments.addSuspendFragment linkId txn none) (pieces ++ [⟨txn, none, [linkId]⟩]) := by
  have created : Shape { fragments with
      fragment := fragments.fragment.alloc ⟨txn, none, some linkId, none⟩
      rootFragments := fragments.rootFragments ++ [fragments.fragment.size]
      suspending := Function.update fragments.suspending linkId (some fragments.fragment.size) }
      (pieces ++ [⟨txn, none, [linkId]⟩]) := by
    refine ⟨by simp [shape.size], shape.alloc _ _ rfl rfl, ?_, ?_⟩
    · simp [List.findIdxs_append, shape.roots, shape.size]
    · intro other
      simp [List.findIdxs_append, shape.resuming]
  exact created.link fragments.fragment.size linkId

theorem suspendResumed {txn : Nat} {resumeId : Str} {suspendIds : List Str}
    (shape : Shape fragments (pieces ++ [⟨txn, some resumeId, suspendIds⟩])) (linkId : Str) :
    Shape (fragments.addSuspendFragment linkId txn (some pieces.length))
      (pieces ++ [⟨txn, some resumeId, suspendIds ++ [linkId]⟩]) := by
  have registered : Shape { fragments with
      suspending := Function.update fragments.suspending linkId (some pieces.length) }
      (pieces ++ [⟨txn, some resumeId, suspendIds ++ [linkId]⟩]) := by
    refine ⟨by simpa using shape.size, ?_, ?_, ?_⟩
    · intro ref piece found
      rcases getElem?_snoc.mp found with old | ⟨rfl, rfl⟩
      · exact shape.cells ref piece (getElem?_snoc.mpr (.inl old))
      · exact shape.cells pieces.length ⟨txn, some resumeId, suspendIds⟩ (by simp)
    · simpa [List.findIdxs_append] using shape.roots
    · intro other
      simpa [List.findIdxs_append] using shape.resuming other
  exact registered.link pieces.length linkId

theorem suspendBegun (shape : Shape fragments pieces) (suspendIds : List Str) (txn : Nat) :
    Shape (suspendIds.foldl (fun fs linkId => fs.addSuspendFragment linkId txn none) fragments)
      (pieces ++ suspendIds.map fun linkId => ⟨txn, none, [linkId]⟩) := by
  induction suspendIds generalizing fragments pieces with
  | nil => simpa using shape
  | cons linkId rest ih =>
      have tail := ih (shape.addRootFragment linkId txn)
      simpa using tail

theorem suspendAll {txn : Nat} {resumeId : Str} {earlier : List Str}
    (shape : Shape fragments (pieces ++ [⟨txn, some resumeId, earlier⟩])) (suspendIds : List Str) :
    Shape (suspendIds.foldl
        (fun fs linkId => fs.addSuspendFragment linkId txn (some pieces.length)) fragments)
      (pieces ++ [⟨txn, some resumeId, earlier ++ suspendIds⟩]) := by
  induction suspendIds generalizing fragments earlier with
  | nil => simpa using shape
  | cons linkId rest ih =>
      have tail := ih (shape.suspendResumed linkId)
      simpa using tail

theorem register (shape : Shape fragments pieces) (segment : Segment) (txn : Nat) :
    Shape (fragments.register segment txn) (pieces ++ segment.pieces txn) := by
  cases origin : segment.origin with
  | begun =>
      simp only [TxnFragments.register, Segment.pieces, origin]
      exact shape.suspendBegun segment.suspendIds txn
  | resumed linkId =>
      obtain ⟨resumed, _⟩ := shape.addResumeFragment linkId txn
      have all := resumed.suspendAll segment.suspendIds
      simp only [TxnFragments.register, Segment.pieces, origin, shape.size]
      simpa using all
  | headless => simpa [TxnFragments.register, Segment.pieces, origin] using shape

end Shape

theorem fragmentsOf_shape (segments : List Segment) :
    Shape (fragmentsOf segments) (piecesOf segments) := by
  induction segments using List.reverseRecOn with
  | nil => exact .new
  | append_singleton segments segment ih =>
      rw [fragmentsOf_append, piecesOf_append]
      exact ih.register segment segments.length

theorem mem_piecesOf {segments : List Segment} {piece : Piece} :
    piece ∈ piecesOf segments ↔
      ∃ (txn : Nat) (segment : Segment),
        segments[txn]? = some segment ∧ piece ∈ segment.pieces txn := by
  simp only [piecesOf, List.mem_flatMap, List.mem_zipIdx_iff_getElem?, Prod.exists]
  constructor
  · rintro ⟨segment, txn, found, member⟩
    exact ⟨txn, segment, found, member⟩
  · rintro ⟨txn, segment, found, member⟩
    exact ⟨segment, txn, found, member⟩

theorem pieces_txn {segment : Segment} {txn : Nat} {piece : Piece}
    (member : piece ∈ segment.pieces txn) : piece.txn = txn := by
  cases origin : segment.origin with
  | begun =>
      simp only [Segment.pieces, origin, List.mem_map] at member
      obtain ⟨linkId, _, rfl⟩ := member
      rfl
  | resumed linkId =>
      simp only [Segment.pieces, origin, List.mem_singleton] at member
      rw [member]
  | headless => simp [Segment.pieces, origin] at member

theorem resumed_of_piece {segments : List Segment} {piece : Piece} {linkId : Str}
    (member : piece ∈ piecesOf segments) (resumes : piece.resumeId = some linkId) :
    ∃ segment, segments[piece.txn]? = some segment ∧ segment.origin = .resumed linkId ∧
      piece.suspendIds = segment.suspendIds := by
  obtain ⟨txn, segment, found, isPiece⟩ := mem_piecesOf.mp member
  rw [pieces_txn isPiece]
  refine ⟨segment, found, ?_⟩
  cases origin : segment.origin with
  | begun =>
      simp only [Segment.pieces, origin, List.mem_map] at isPiece
      obtain ⟨_, _, rfl⟩ := isPiece
      cases resumes
  | resumed other =>
      simp only [Segment.pieces, origin, List.mem_singleton] at isPiece
      subst isPiece
      rw [Option.some.injEq] at resumes
      exact ⟨by rw [resumes], rfl⟩
  | headless => simp [Segment.pieces, origin] at isPiece

theorem begun_of_piece {segments : List Segment} {piece : Piece}
    (member : piece ∈ piecesOf segments) (isRoot : piece.resumeId = none) :
    ∃ segment, segments[piece.txn]? = some segment ∧ segment.origin = .begun ∧
      segment.suspendIds ≠ [] := by
  obtain ⟨txn, segment, found, isPiece⟩ := mem_piecesOf.mp member
  rw [pieces_txn isPiece]
  refine ⟨segment, found, ?_⟩
  cases origin : segment.origin with
  | begun =>
      simp only [Segment.pieces, origin, List.mem_map] at isPiece
      obtain ⟨linkId, isId, _⟩ := isPiece
      exact ⟨rfl, List.ne_nil_of_mem isId⟩
  | resumed other =>
      simp only [Segment.pieces, origin, List.mem_singleton] at isPiece
      subst isPiece
      cases isRoot
  | headless => simp [Segment.pieces, origin] at isPiece

theorem piecesOf_pairwise (segments : List Segment) :
    (piecesOf segments).Pairwise fun left right =>
      left.txn < right.txn ∨ (left.txn = right.txn ∧ left.resumeId = none) := by
  induction segments using List.reverseRecOn with
  | nil => exact .nil
  | append_singleton segments segment ih =>
      rw [piecesOf_append, List.pairwise_append]
      refine ⟨ih, ?_, ?_⟩
      · cases origin : segment.origin with
        | begun =>
            simp only [Segment.pieces, origin, List.pairwise_map]
            exact List.pairwise_of_forall (by simp)
        | resumed linkId => simp [Segment.pieces, origin]
        | headless => simp [Segment.pieces, origin]
      · intro left isLeft right isRight
        obtain ⟨txn, other, found, isPiece⟩ := mem_piecesOf.mp isLeft
        rw [pieces_txn isPiece, pieces_txn isRight]
        exact .inl (List.getElem?_eq_some_iff.mp found).1

theorem resumed_fragment_unique {segments : List Segment} {first second : Nat} {left right : Piece}
    (foundLeft : (piecesOf segments)[first]? = some left)
    (foundRight : (piecesOf segments)[second]? = some right)
    (sameTxn : left.txn = right.txn) (resumesLeft : left.resumeId ≠ none)
    (resumesRight : right.resumeId ≠ none) : first = second := by
  have ordered := List.pairwise_iff_getElem.mp (piecesOf_pairwise segments)
  obtain ⟨boundLeft, rfl⟩ := List.getElem?_eq_some_iff.mp foundLeft
  obtain ⟨boundRight, rfl⟩ := List.getElem?_eq_some_iff.mp foundRight
  by_contra different
  rcases Nat.lt_or_gt_of_ne different with before | after
  · rcases ordered first second boundLeft boundRight before with less | ⟨_, isRoot⟩
    · omega
    · exact resumesLeft isRoot
  · rcases ordered second first boundRight boundLeft after with less | ⟨_, isRoot⟩
    · omega
    · exact resumesRight isRoot

section Store

variable (segments : List Segment)

def IsResumed (txn : Nat) : Prop :=
  ∃ segment linkId, segments[txn]? = some segment ∧ segment.origin = .resumed linkId

def IsSuspended (txn : Nat) : Prop :=
  ∃ segment, segments[txn]? = some segment ∧ segment.origin = .begun ∧ segment.suspendIds ≠ []

variable {segments}

theorem mem_findIdxs {pieces : List Piece} {p : Piece → Bool} {ref : Nat} :
    ref ∈ pieces.findIdxs p ↔ ∃ piece, pieces[ref]? = some piece ∧ p piece = true := by
  rw [List.mem_findIdxs_iff_exists_getElem_pos]
  constructor
  · rintro ⟨bound, holds⟩
    exact ⟨_, List.getElem?_eq_getElem bound, holds⟩
  · rintro ⟨piece, found, holds⟩
    obtain ⟨bound, rfl⟩ := List.getElem?_eq_some_iff.mp found
    exact ⟨bound, holds⟩

namespace Shape

variable {fragments : TxnFragments} {pieces : List Piece}

theorem txnOf (shape : Shape fragments pieces) {ref : Nat} {piece : Piece}
    (found : pieces[ref]? = some piece) : fragments.txnOf ref = piece.txn :=
  (shape.cells ref piece found).1

theorem mem_resuming (shape : Shape fragments pieces) {linkId : Str} {ref : Nat} :
    ref ∈ fragments.resuming linkId ↔
      ∃ piece, pieces[ref]? = some piece ∧ piece.resumeId = some linkId := by
  rw [shape.resuming, mem_findIdxs]
  simp

theorem mem_rootFragments (shape : Shape fragments pieces) {ref : Nat} :
    ref ∈ fragments.rootFragments ↔
      ∃ piece, pieces[ref]? = some piece ∧ piece.resumeId = none := by
  rw [shape.roots, mem_findIdxs]
  simp

theorem mem_children (shape : Shape fragments pieces) {ref child : Nat}
    (member : child ∈ fragments.children ref) :
    ∃ piece linkId, pieces[child]? = some piece ∧ piece.resumeId = some linkId := by
  simp only [TxnFragments.children] at member
  cases next : (fragments.fragment.cell ref).next with
  | none => simp [next, TxnFragments.follow] at member
  | some linkId =>
      rw [next, TxnFragments.follow] at member
      obtain ⟨piece, found, resumes⟩ := shape.mem_resuming.mp member
      exact ⟨piece, linkId, found, resumes⟩

end Shape

theorem txnOf_piece {ref : Nat} {piece : Piece} (found : (piecesOf segments)[ref]? = some piece) :
    (fragmentsOf segments).txnOf ref = piece.txn :=
  (fragmentsOf_shape segments).txnOf found

theorem mem_resuming {linkId : Str} {ref : Nat} :
    ref ∈ (fragmentsOf segments).resuming linkId ↔
      ∃ piece, (piecesOf segments)[ref]? = some piece ∧ piece.resumeId = some linkId :=
  (fragmentsOf_shape segments).mem_resuming

theorem mem_rootFragments {ref : Nat} :
    ref ∈ (fragmentsOf segments).rootFragments ↔
      ∃ piece, (piecesOf segments)[ref]? = some piece ∧ piece.resumeId = none :=
  (fragmentsOf_shape segments).mem_rootFragments

theorem isResumed_child {ref child : Nat} (member : child ∈ (fragmentsOf segments).children ref) :
    IsResumed segments ((fragmentsOf segments).txnOf child) := by
  obtain ⟨piece, linkId, found, resumes⟩ := (fragmentsOf_shape segments).mem_children member
  obtain ⟨segment, isSegment, origin, _⟩ := resumed_of_piece (List.mem_of_getElem? found) resumes
  rw [txnOf_piece found]
  exact ⟨segment, linkId, isSegment, origin⟩

theorem isSuspended_root {root : Nat} (member : root ∈ (fragmentsOf segments).rootFragments) :
    IsSuspended segments ((fragmentsOf segments).txnOf root) := by
  obtain ⟨piece, found, isRoot⟩ := mem_rootFragments.mp member
  obtain ⟨segment, isSegment, begun, suspends⟩ := begun_of_piece (List.mem_of_getElem? found) isRoot
  rw [txnOf_piece found]
  exact ⟨segment, isSegment, begun, suspends⟩

theorem exists_root {txn : Nat} (suspended : IsSuspended segments txn) :
    ∃ root ∈ (fragmentsOf segments).rootFragments, (fragmentsOf segments).txnOf root = txn := by
  obtain ⟨segment, found, begun, suspends⟩ := suspended
  obtain ⟨linkId, isId⟩ := List.exists_mem_of_ne_nil _ suspends
  have member : (⟨txn, none, [linkId]⟩ : Piece) ∈ piecesOf segments := by
    refine mem_piecesOf.mpr ⟨txn, segment, found, ?_⟩
    simp only [Segment.pieces, begun, List.mem_map]
    exact ⟨linkId, isId, rfl⟩
  obtain ⟨root, isRoot⟩ := List.getElem?_of_mem member
  exact ⟨root, mem_rootFragments.mpr ⟨_, isRoot, rfl⟩, txnOf_piece isRoot⟩

theorem map_txnOf_roots :
    (fragmentsOf segments).rootFragments.map (fragmentsOf segments).txnOf =
      ((piecesOf segments).filter fun piece => piece.resumeId = none).map Piece.txn := by
  rw [(fragmentsOf_shape segments).roots]
  exact map_findIdxs fun ref piece found => txnOf_piece found

end Store

end Xpedite.Txn
