import Xpedite.Lib.Digits
import Xpedite.Txn.Isolation
import Xpedite.Txn.Links
import Xpedite.Txn.TxnIdentity

/-!
The order in which the threads are loaded does not matter: with unique link ids the
joined transactions are the leaves of a tree over the segments themselves, and the
segments of a thread do not depend on the threads loaded before it.
-/

namespace Xpedite.Txn

open Xpedite.Lib

section Values

def resumersOf (segments : List Segment) (linkId : Str) : List Segment :=
  segments.filter fun segment => segment.origin = .resumed linkId

def successors (segments : List Segment) (segment : Segment) : List Segment :=
  segment.suspendIds.flatMap (resumersOf segments)

def extend (counters : List Counter) (segment : Segment) : List Counter :=
  Transaction.sortByTsc (counters ++ segment.counters)

def suspendedOf (segments : List Segment) : List Segment :=
  segments.filter fun segment => segment.origin = .begun ∧ segment.suspendIds ≠ []

def joinedOf (segments : List Segment) (fuel : Nat) : List (List Counter) :=
  (suspendedOf segments).flatMap fun segment =>
    leaves (successors segments) extend fuel segment.counters (successors segments segment)

theorem resumersOf_perm {segments segments' : List Segment} (perm : segments.Perm segments')
    (linkId : Str) : (resumersOf segments linkId).Perm (resumersOf segments' linkId) :=
  perm.filter _

theorem successors_perm {segments segments' : List Segment} (perm : segments.Perm segments')
    (segment : Segment) : (successors segments segment).Perm (successors segments' segment) :=
  (List.Perm.refl _).flatMap fun linkId _ => resumersOf_perm perm linkId

theorem joinedOf_perm {segments segments' : List Segment} (perm : segments.Perm segments')
    (fuel : Nat) : (joinedOf segments fuel).Perm (joinedOf segments' fuel) :=
  (perm.filter _).flatMap fun segment _ =>
    leaves_perm (successors_perm perm) fuel segment.counters (successors_perm perm segment)

theorem joinedOf_filter (segments : List Segment) (fuel : Nat) :
    joinedOf (segments.filter fun segment => segment.origin ≠ .headless) fuel =
      joinedOf segments fuel := by
  have sameResumers : resumersOf (segments.filter fun segment => segment.origin ≠ .headless) =
      resumersOf segments := by
    funext linkId
    rw [resumersOf, resumersOf, List.filter_filter]
    apply List.filter_congr
    intro segment _
    by_cases resumed : segment.origin = .resumed linkId <;> simp [resumed]
  have sameSuccessors : successors (segments.filter fun segment => segment.origin ≠ .headless) =
      successors segments := by
    funext segment
    rw [successors, successors, sameResumers]
  have sameSuspended : suspendedOf (segments.filter fun segment => segment.origin ≠ .headless) =
      suspendedOf segments := by
    rw [suspendedOf, suspendedOf, List.filter_filter]
    apply List.filter_congr
    intro segment _
    by_cases begun : segment.origin = .begun <;> simp [begun]
  rw [joinedOf, joinedOf, sameSuccessors, sameSuspended]

end Values

section Pieces

variable {segments : List Segment}

theorem filter_pieces_resumed (linkId : Str) (segmentAt : Nat → Segment)
    (isAt : ∀ txn segment, segments[txn]? = some segment → segmentAt txn = segment) :
    ((piecesOf segments).filter fun piece => piece.resumeId = some linkId).map
        (fun piece => segmentAt piece.txn) = resumersOf segments linkId := by
  induction segments using List.reverseRecOn with
  | nil => rfl
  | append_singleton segments segment ih =>
      have earlier := ih fun txn other found => isAt txn other (getElem?_snoc.mpr (.inl found))
      have final := isAt segments.length segment (getElem?_snoc.mpr (.inr ⟨rfl, rfl⟩))
      rw [piecesOf_append, List.filter_append, List.map_append, earlier, resumersOf, resumersOf,
        List.filter_append]
      congr 1
      cases origin : segment.origin with
      | begun =>
          have none : (segment.pieces segments.length).filter
              (fun piece => piece.resumeId = some linkId) = [] := by
            simp [Segment.pieces, origin]
          simp [none, origin]
      | resumed other =>
          by_cases same : other = linkId <;> simp [Segment.pieces, origin, same, final]
      | headless => simp [Segment.pieces, origin]

theorem filter_pieces_begun (once : ∀ segment ∈ segments, segment.suspendIds.length ≤ 1)
    (segmentAt : Nat → Segment)
    (isAt : ∀ txn segment, segments[txn]? = some segment → segmentAt txn = segment) :
    ((piecesOf segments).filter fun piece => piece.resumeId = none).map
        (fun piece => segmentAt piece.txn) = suspendedOf segments := by
  induction segments using List.reverseRecOn with
  | nil => rfl
  | append_singleton segments segment ih =>
      have earlier := ih (fun other member => once other (List.mem_append_left _ member))
        fun txn other found => isAt txn other (getElem?_snoc.mpr (.inl found))
      have final := isAt segments.length segment (getElem?_snoc.mpr (.inr ⟨rfl, rfl⟩))
      have single := once segment (by simp)
      rw [piecesOf_append, List.filter_append, List.map_append, earlier, suspendedOf, suspendedOf,
        List.filter_append]
      congr 1
      cases origin : segment.origin with
      | begun =>
          match suspendIds : segment.suspendIds with
          | [] => simp [Segment.pieces, origin, suspendIds]
          | [linkId] => simp [Segment.pieces, origin, suspendIds, final]
          | _ :: _ :: _ => simp [suspendIds] at single
      | resumed other => simp [Segment.pieces, origin]
      | headless => simp [Segment.pieces, origin]

variable (unique : Unique (piecesOf segments))
variable (once : ∀ segment ∈ segments, segment.suspendIds.length ≤ 1)

def segmentOf (segments : List Segment) (ref : Nat) : Segment :=
  (segments[(fragmentsOf segments).txnOf ref]?).getD ⟨.headless, [], false, []⟩

theorem segmentOf_piece {ref : Nat} {piece : Piece} (found : (piecesOf segments)[ref]? = some piece) :
    segmentOf segments ref = (segments[piece.txn]?).getD ⟨.headless, [], false, []⟩ := by
  rw [segmentOf, txnOf_piece found]

theorem map_segmentOf_resuming (linkId : Str) :
    ((fragmentsOf segments).resuming linkId).map (segmentOf segments) =
      resumersOf segments linkId := by
  rw [(fragmentsOf_shape segments).resuming, map_findIdxs fun ref piece => segmentOf_piece]
  apply filter_pieces_resumed linkId fun txn => (segments[txn]?).getD ⟨.headless, [], false, []⟩
  intro txn segment found
  rw [found, Option.getD_some]

include once

theorem suspendIds_segmentOf {ref : Nat} {piece : Piece}
    (found : (piecesOf segments)[ref]? = some piece) :
    (segmentOf segments ref).suspendIds = piece.suspendIds := by
  rw [segmentOf_piece found]
  obtain ⟨txn, segment, isSegment, isPiece⟩ := mem_piecesOf.mp (List.mem_of_getElem? found)
  rw [pieces_txn isPiece, isSegment, Option.getD_some]
  have single := once segment (List.mem_of_getElem? isSegment)
  cases origin : segment.origin with
  | begun =>
      simp only [Segment.pieces, origin, List.mem_map] at isPiece
      obtain ⟨linkId, isId, rfl⟩ := isPiece
      obtain ⟨only, isOnly⟩ := List.length_eq_one_iff.mp
        (Nat.le_antisymm single (List.length_pos_of_mem isId))
      rw [isOnly, List.mem_singleton] at isId
      rw [isOnly, isId]
  | resumed linkId =>
      simp only [Segment.pieces, origin, List.mem_singleton] at isPiece
      rw [isPiece]
  | headless => simp [Segment.pieces, origin] at isPiece

include unique

theorem successors_segmentOf {ref : Nat} {piece : Piece}
    (found : (piecesOf segments)[ref]? = some piece) :
    successors segments (segmentOf segments ref) =
      ((fragmentsOf segments).children ref).map (segmentOf segments) := by
  rw [successors, suspendIds_segmentOf once found, children_eq unique found, List.map_flatMap]
  exact List.flatMap_congr fun linkId _ => (map_segmentOf_resuming linkId).symm

theorem leaves_segmentOf (own : Nat → List Counter)
    (cells : ∀ txn segment, segments[txn]? = some segment → own txn = segment.counters)
    (fuel : Nat) :
    ((fragmentsOf segments).rootFragments.flatMap fun root =>
      leaves (fragmentsOf segments).children (merge (fragmentsOf segments) own) fuel
        (own ((fragmentsOf segments).txnOf root)) ((fragmentsOf segments).children root)) =
      joinedOf segments fuel := by
  have counters {ref : Nat} {piece : Piece} (found : (piecesOf segments)[ref]? = some piece) :
      own ((fragmentsOf segments).txnOf ref) = (segmentOf segments ref).counters := by
    obtain ⟨txn, segment, isSegment, isPiece⟩ := mem_piecesOf.mp (List.mem_of_getElem? found)
    rw [segmentOf_piece found, txnOf_piece found, pieces_txn isPiece, isSegment, Option.getD_some,
      cells txn segment isSegment]
  have sameLeaves {root : Nat} {piece : Piece} (found : (piecesOf segments)[root]? = some piece) :
      leaves (fragmentsOf segments).children (merge (fragmentsOf segments) own) fuel
          (own ((fragmentsOf segments).txnOf root)) ((fragmentsOf segments).children root) =
        leaves (successors segments) extend fuel (segmentOf segments root).counters
          (successors segments (segmentOf segments root)) := by
    rw [successors_segmentOf unique once found, counters found]
    symm
    refine leaves_map (segmentOf segments)
      (fun ref => ∃ piece, (piecesOf segments)[ref]? = some piece) ?_ ?_ ?_ fuel _ ?_
    · intro ref _ child isChild
      obtain ⟨childPiece, _, isPiece, _⟩ := (fragmentsOf_shape _).mem_children isChild
      exact ⟨childPiece, isPiece⟩
    · rintro ref ⟨refPiece, isPiece⟩
      exact successors_segmentOf unique once isPiece
    · rintro value ref ⟨refPiece, isPiece⟩
      rw [extend, merge, counters isPiece]
    · intro ref isChild
      obtain ⟨childPiece, _, isPiece, _⟩ := (fragmentsOf_shape _).mem_children isChild
      exact ⟨childPiece, isPiece⟩
  have roots : (fragmentsOf segments).rootFragments.map (segmentOf segments) =
      suspendedOf segments := by
    rw [(fragmentsOf_shape segments).roots, map_findIdxs fun ref piece => segmentOf_piece]
    apply filter_pieces_begun once fun txn => (segments[txn]?).getD ⟨.headless, [], false, []⟩
    intro txn segment found
    rw [found, Option.getD_some]
  rw [joinedOf, ← roots, List.flatMap_map]
  apply List.flatMap_congr
  intro root isRoot
  obtain ⟨piece, found, _⟩ := mem_rootFragments.mp isRoot
  exact sameLeaves found

end Pieces

namespace Outline

variable {probeMap : Probe → Probe}

def started (closed : List (Segment × Fate)) : List (Segment × Fate) :=
  closed.filter fun entry => entry.1.origin ≠ .headless

theorem started_append (first second : List (Segment × Fate)) :
    started (first ++ second) = started first ++ started second :=
  List.filter_append _ _

theorem started_headless (counters : List Counter) (fate : Fate) :
    started [(⟨.headless, counters, false, []⟩, fate)] = [] := rfl

structure Alike (left right : Outline) : Prop where
  started : started left.closed = started right.closed
  current : left.current = right.current
  loose : left.current ≠ none → left.loose = right.loose

theorem Alike.loadCounter {left right : Outline} (alike : Alike left right) (tlsAddr : Str)
    (role : Role) (counter : Counter) :
    Alike (left.loadCounter tlsAddr role counter) (right.loadCounter tlsAddr role counter) := by
  obtain ⟨sameStarted, sameCurrent, sameLoose⟩ := alike
  cases isOpen : left.current with
  | none =>
      rw [isOpen] at sameCurrent
      cases role <;> constructor <;>
        simp [Outline.loadCounter, isOpen, ← sameCurrent, openSegment, close, started_append,
          sameStarted, started_headless]
  | some segment =>
      rw [isOpen] at sameCurrent
      have loose := sameLoose (by simp [isOpen])
      cases bounded : segment.bounded <;> cases role <;> constructor <;>
        simp [Outline.loadCounter, isOpen, ← sameCurrent, openSegment, close, started_append,
          sameStarted, bounded, loose]

theorem Alike.loadCounters {left right : Outline} (alike : Alike left right) (tlsAddr : Str)
    (counters : List Counter) :
    Alike (left.loadCounters probeMap tlsAddr counters)
      (right.loadCounters probeMap tlsAddr counters) := by
  induction counters generalizing left right with
  | nil => exact alike
  | cons counter rest ih => exact ih (alike.loadCounter tlsAddr _ counter)

theorem Alike.endLoad {left right : Outline} (alike : Alike left right) :
    Alike left.endLoad right.endLoad := by
  obtain ⟨sameStarted, sameCurrent, sameLoose⟩ := alike
  cases isOpen : left.current with
  | none =>
      rw [isOpen] at sameCurrent
      constructor <;> simp [Outline.endLoad, isOpen, ← sameCurrent, sameStarted]
  | some segment =>
      rw [isOpen] at sameCurrent
      constructor <;> simp [Outline.endLoad, isOpen, ← sameCurrent, close, started_append, sameStarted]

theorem started_loadThread (loose : List Counter) (thread : Thread) :
    started ((fresh loose).loadThread probeMap thread).closed =
      started (empty.loadThread probeMap thread).closed := by
  have alike : Alike (fresh loose) empty := ⟨rfl, rfl, by simp [fresh]⟩
  exact ((alike.loadCounters thread.tlsAddr thread.counters).endLoad).started

theorem started_loadThreads (threads : List Thread) :
    started (empty.loadThreads probeMap threads).closed =
      threads.flatMap fun thread => started (empty.loadThread probeMap thread).closed := by
  induction threads using List.reverseRecOn with
  | nil => rfl
  | append_singleton threads thread ih =>
      have idle := loadThreads_idle probeMap empty rfl threads
      rw [loadThreads_snoc, loadThread_fresh probeMap _ idle, List.flatMap_append,
        List.flatMap_singleton, ← ih, ← started_loadThread]
      exact started_append _ _

variable (probeMap) in
theorem started_perm {threads threads' : List Thread} (perm : threads.Perm threads') :
    (started (empty.loadThreads probeMap threads).closed).Perm
      (started (empty.loadThreads probeMap threads').closed) := by
  rw [started_loadThreads, started_loadThreads]
  exact perm.flatMap fun thread _ => .refl _

theorem countersOf_started {outline : Outline} (sound : outline.Sound probeMap) :
    countersOf .intact (started outline.closed) = countersOf .intact outline.closed := by
  rw [countersOf, started, List.filterMap_filter, countersOf]
  apply List.filterMap_congr
  intro entry member
  by_cases headless : entry.1.origin = .headless
  · have notIntact : entry.2 ≠ .intact := by
      intro intact
      have begun := (sound.closed entry member).2
      rw [intact, FateSound, headless] at begun
      cases begun.1
    simp [headless, notIntact]
  · simp [headless]

/-- Every fragment suspends at most once: at most one suspend counter between a begin or resume
counter and the next one. -/
def SuspendsOnce (roles : List Role) : Prop :=
  ∀ before opener inside after, roles = before ++ opener :: inside ++ after →
    (opener = .begins ∨ opener = .resumes) →
    (∀ role ∈ inside, role ≠ .begins ∧ role ≠ .resumes) → inside.count .suspends ≤ 1

def SinceOpener (roles : List Role) (count : Nat) : Prop :=
  ∃ before opener inside, roles = before ++ opener :: inside ∧
    (opener = .begins ∨ opener = .resumes) ∧
    (∀ role ∈ inside, role ≠ .begins ∧ role ≠ .resumes) ∧ inside.count .suspends = count

theorem sinceOpener_opener (roles : List Role) {opener : Role}
    (opens : opener = .begins ∨ opener = .resumes) : SinceOpener (roles ++ [opener]) 0 :=
  ⟨roles, opener, [], rfl, opens, by simp, rfl⟩

theorem SinceOpener.snoc {roles : List Role} {count : Nat} (since : SinceOpener roles count)
    (role : Role) (inside : role ≠ .begins ∧ role ≠ .resumes) :
    SinceOpener (roles ++ [role]) (count + if role = .suspends then 1 else 0) := by
  obtain ⟨before, opener, earlier, rfl, opens, all, rfl⟩ := since
  refine ⟨before, opener, earlier ++ [role], by simp, opens, ?_, ?_⟩
  · exact List.forall_mem_append.mpr ⟨all, List.forall_mem_singleton.mpr inside⟩
  · rw [List.count_append, List.count_singleton]
    simp only [beq_iff_eq]

theorem sinceOpener_le {roles later : List Role} {count : Nat} (once : SuspendsOnce (roles ++ later))
    (since : SinceOpener roles count) : count ≤ 1 := by
  obtain ⟨before, opener, inside, rfl, opens, all, rfl⟩ := since
  exact once before opener inside later rfl opens all

theorem current_sinceOpener (loose : List Counter) (tlsAddr : Str) (counters : List Counter)
    {segment : Segment}
    (isOpen : ((fresh loose).loadCounters probeMap tlsAddr counters).current = some segment) :
    SinceOpener (counters.map (roleOf probeMap)) segment.suspendIds.length := by
  induction counters using List.reverseRecOn generalizing segment with
  | nil => simp [loadCounters, fresh] at isOpen
  | append_singleton counters counter ih =>
      have sound := (Sound.fresh probeMap loose).loadCounters tlsAddr counters
      rw [loadCounters_snoc] at isOpen
      rw [List.map_append, List.map_singleton]
      generalize (fresh loose).loadCounters probeMap tlsAddr counters = outline at isOpen ih sound
      cases current : outline.current with
      | none =>
          cases role : roleOf probeMap counter <;>
            simp only [loadCounter, current, role, openSegment, close, Option.some.injEq,
              reduceCtorEq] at isOpen
          · exact isOpen ▸ sinceOpener_opener _ (.inr rfl)
          · exact isOpen ▸ sinceOpener_opener _ (.inl rfl)
      | some earlier =>
          have since := ih current
          cases role : roleOf probeMap counter with
          | resumes =>
              simp only [loadCounter, current, role, openSegment, close, Option.some.injEq] at isOpen
              exact isOpen ▸ sinceOpener_opener _ (.inr rfl)
          | begins =>
              simp only [loadCounter, current, role] at isOpen
              split at isOpen
              · simp only [openSegment, Option.some.injEq] at isOpen
                exact isOpen ▸ sinceOpener_opener _ (.inl rfl)
              · rename_i unbounded
                have unlinked := (sound.current earlier current).1.unlinked (by simpa using unbounded)
                rw [Option.some.injEq] at isOpen
                subst isOpen
                simp only [Segment.add, unlinked]
                exact sinceOpener_opener _ (.inl rfl)
          | suspends =>
              simp only [loadCounter, current, role, Option.some.injEq] at isOpen
              subst isOpen
              simpa [Segment.suspendAt, Segment.bound] using since.snoc .suspends (by simp)
          | ends =>
              simp only [loadCounter, current, role, Option.some.injEq] at isOpen
              subst isOpen
              simpa [Segment.bound] using since.snoc .ends (by simp)
          | plain =>
              simp only [loadCounter, current, role] at isOpen
              split at isOpen
              · simp only [Option.some.injEq] at isOpen
                subst isOpen
                simpa using since.snoc .plain (by simp)
              · rw [Option.some.injEq] at isOpen
                subst isOpen
                simpa [Segment.add] using since.snoc .plain (by simp)

theorem closed_loadCounter {outline : Outline} {tlsAddr : Str} {role : Role} {counter : Counter}
    {entry : Segment × Fate} (member : entry ∈ (outline.loadCounter tlsAddr role counter).closed) :
    entry ∈ outline.closed ∨ outline.current = some entry.1 ∨ entry.1.suspendIds = [] := by
  cases isOpen : outline.current with
  | none =>
      cases role <;> simp only [loadCounter, isOpen, openSegment, close, List.mem_append,
        List.mem_singleton] at member
      · exact .inl member
      · exact .inl member
      · exact member.imp_right fun isNew => .inr (by rw [isNew])
      · exact member.imp_right fun isNew => .inr (by rw [isNew])
      · exact .inl member
  | some segment =>
      have closing (closed : entry ∈ outline.closed ∨ entry = (segment, segment.fate)) :
          entry ∈ outline.closed ∨ some segment = some entry.1 ∨ entry.1.suspendIds = [] :=
        closed.imp_right fun isNew => .inl (by rw [isNew])
      cases bounded : segment.bounded <;> cases role <;>
        simp only [loadCounter, isOpen, bounded, openSegment, close, ↓reduceIte, Bool.false_eq_true,
          List.mem_append, List.mem_singleton] at member
      all_goals first | exact closing member | exact .inl member

theorem closed_once (loose : List Counter) (tlsAddr : Str) (counters : List Counter)
    {later : List Role} (once : SuspendsOnce (counters.map (roleOf probeMap) ++ later)) :
    ∀ entry ∈ ((fresh loose).loadCounters probeMap tlsAddr counters).closed,
      entry.1.suspendIds.length ≤ 1 := by
  induction counters using List.reverseRecOn generalizing later with
  | nil => simp [loadCounters, fresh]
  | append_singleton counters counter ih =>
      rw [List.map_append, List.append_assoc] at once
      intro entry member
      rw [loadCounters_snoc] at member
      rcases closed_loadCounter member with old | isOpen | empty
      · exact ih once entry old
      · exact sinceOpener_le once (current_sinceOpener loose tlsAddr counters isOpen)
      · simp [empty]

theorem loadThread_once (loose : List Counter) (thread : Thread)
    (once : SuspendsOnce (thread.counters.map (roleOf probeMap))) :
    ∀ entry ∈ ((fresh loose).loadThread probeMap thread).closed,
      entry.1.suspendIds.length ≤ 1 := by
  rw [← List.append_nil (thread.counters.map (roleOf probeMap))] at once
  intro entry member
  simp only [loadThread, endLoad] at member
  split at member
  · rename_i segment isOpen
    simp only [close, List.mem_append, List.mem_singleton] at member
    rcases member with old | isNew
    · exact closed_once loose thread.tlsAddr thread.counters once entry old
    · rw [isNew]
      exact sinceOpener_le once (current_sinceOpener loose thread.tlsAddr thread.counters isOpen)
  · exact closed_once loose thread.tlsAddr thread.counters once entry member

theorem loadThreads_once (threads : List Thread)
    (once : ∀ thread ∈ threads, SuspendsOnce (thread.counters.map (roleOf probeMap))) :
    ∀ entry ∈ (empty.loadThreads probeMap threads).closed, entry.1.suspendIds.length ≤ 1 := by
  induction threads using List.reverseRecOn with
  | nil => simp [loadThreads, empty]
  | append_singleton threads thread ih =>
      have idle := loadThreads_idle probeMap empty rfl threads
      intro entry member
      rw [loadThreads_snoc, loadThread_fresh probeMap _ idle] at member
      rcases List.mem_append.mp member with old | isNew
      · exact ih (fun other isOther => once other (List.mem_append_left _ isOther)) entry old
      · exact loadThread_once _ thread (once thread (by simp)) entry isNew

def linkIds (probeMap : Probe → Probe) (tlsAddr : Str) (counters : List Counter) : List Str :=
  (counters.filter fun counter => roleOf probeMap counter = .suspends).map fun counter =>
    Loader.linkId counter.tsc tlsAddr

def suspendIds (outline : Outline) : List Str :=
  outline.closed.flatMap (fun entry => entry.1.suspendIds) ++
    outline.current.toList.flatMap Segment.suspendIds

theorem suspendIds_loadCounter (outline : Outline) (tlsAddr : Str) (role : Role)
    (counter : Counter) :
    (outline.loadCounter tlsAddr role counter).suspendIds.Sublist
      (outline.suspendIds ++ if role = .suspends then [Loader.linkId counter.tsc tlsAddr] else []) := by
  cases isOpen : outline.current with
  | none => cases role <;> simp [suspendIds, loadCounter, isOpen, openSegment, close, Segment.start]
  | some segment =>
      cases bounded : segment.bounded <;> cases role <;>
        simp [suspendIds, loadCounter, isOpen, openSegment, close, Segment.start, Segment.add,
          Segment.bound, Segment.suspendAt, bounded]

theorem suspendIds_loadCounters (outline : Outline) (tlsAddr : Str) (counters : List Counter) :
    (outline.loadCounters probeMap tlsAddr counters).suspendIds.Sublist
      (outline.suspendIds ++ linkIds probeMap tlsAddr counters) := by
  induction counters using List.reverseRecOn with
  | nil => simp [loadCounters, linkIds]
  | append_singleton counters counter ih =>
      rw [loadCounters_snoc]
      refine (suspendIds_loadCounter _ tlsAddr _ counter).trans ?_
      have last : linkIds probeMap tlsAddr (counters ++ [counter]) =
          linkIds probeMap tlsAddr counters ++
            if roleOf probeMap counter = .suspends then [Loader.linkId counter.tsc tlsAddr]
            else [] := by
        by_cases suspends : roleOf probeMap counter = .suspends <;> simp [linkIds, suspends]
      rw [last, ← List.append_assoc]
      exact ih.append_right _

theorem suspendIds_endLoad (outline : Outline) : outline.endLoad.suspendIds = outline.suspendIds := by
  cases isOpen : outline.current <;> simp [endLoad, isOpen, close, suspendIds]

variable (probeMap) in
theorem suspendIds_loadThreads (threads : List Thread) :
    (empty.loadThreads probeMap threads).suspendIds.Sublist
      (threads.flatMap fun thread => linkIds probeMap thread.tlsAddr thread.counters) := by
  induction threads using List.reverseRecOn with
  | nil => exact .slnil
  | append_singleton threads thread ih =>
      rw [loadThreads_snoc, List.flatMap_append, List.flatMap_singleton, loadThread,
        suspendIds_endLoad]
      exact (suspendIds_loadCounters _ thread.tlsAddr thread.counters).trans (ih.append_right _)

theorem linkId_inj {tsc tsc' : Nat} {tlsAddr tlsAddr' : Str}
    (lengths : tlsAddr.length = tlsAddr'.length)
    (same : Loader.linkId tsc tlsAddr = Loader.linkId tsc' tlsAddr') :
    tsc = tsc' ∧ tlsAddr = tlsAddr' := by
  obtain ⟨digits, addresses⟩ := List.append_inj' same lengths
  exact ⟨toDigits_sixteen_injective digits, addresses⟩

theorem linkIds_nodup {thread : Thread}
    (increasing : (thread.counters.map Counter.tsc).Pairwise (· < ·)) :
    (linkIds probeMap thread.tlsAddr thread.counters).Nodup := by
  rw [linkIds, List.Nodup, List.pairwise_map]
  rw [List.pairwise_map] at increasing
  refine (increasing.filter _).imp ?_
  intro first second less same
  have sameTsc := (linkId_inj rfl same).1
  omega

variable (probeMap) in
theorem linkIds_threads_nodup {threads : List Thread} {length : Nat}
    (lengths : ∀ thread ∈ threads, thread.tlsAddr.length = length)
    (addresses : (threads.map Thread.tlsAddr).Nodup)
    (increasing : ∀ thread ∈ threads, (thread.counters.map Counter.tsc).Pairwise (· < ·)) :
    (threads.flatMap fun thread => linkIds probeMap thread.tlsAddr thread.counters).Nodup := by
  rw [List.nodup_flatMap]
  refine ⟨fun thread isThread => linkIds_nodup (increasing thread isThread), ?_⟩
  rw [List.Nodup, List.pairwise_map] at addresses
  refine addresses.imp_of_mem ?_
  intro left right isLeft isRight different linkId inLeft inRight
  obtain ⟨first, _, rfl⟩ := List.mem_map.mp inLeft
  obtain ⟨second, _, same⟩ := List.mem_map.mp inRight
  exact different (linkId_inj ((lengths left isLeft).trans (lengths right isRight).symm) same.symm).2

end Outline

theorem piecesOf_suspendIds (segments : List Segment) :
    ((piecesOf segments).flatMap Piece.suspendIds).Sublist
      (segments.flatMap Segment.suspendIds) := by
  induction segments using List.reverseRecOn with
  | nil => exact .slnil
  | append_singleton segments segment ih =>
      rw [piecesOf_append, List.flatMap_append, List.flatMap_append, List.flatMap_singleton]
      refine ih.append ?_
      cases origin : segment.origin with
      | begun => simp [Segment.pieces, origin, List.flatMap_map]
      | resumed linkId => simp [Segment.pieces, origin]
      | headless => simp [Segment.pieces, origin]

theorem unique_piecesOf {segments : List Segment} (distinct : (segments.flatMap Segment.suspendIds).Nodup)
    (once : ∀ segment ∈ segments, segment.suspendIds.length ≤ 1) : Unique (piecesOf segments) := by
  refine ⟨distinct.sublist (piecesOf_suspendIds segments), ?_⟩
  intro piece member
  obtain ⟨txn, segment, found, isPiece⟩ := mem_piecesOf.mp member
  have single := once segment (List.mem_of_getElem? found)
  cases origin : segment.origin with
  | begun =>
      simp only [Segment.pieces, origin, List.mem_map] at isPiece
      obtain ⟨linkId, _, rfl⟩ := isPiece
      exact Nat.le_refl _
  | resumed linkId =>
      simp only [Segment.pieces, origin, List.mem_singleton] at isPiece
      rw [isPiece]
      exact single
  | headless => simp [Segment.pieces, origin] at isPiece

section Orders

variable (probeMap : Probe → Probe)

/-- What the data sources promise: thread local storage addresses are distinct numbers in sixteen
digits, the samples of a thread are in the order of time, and a fragment suspends once at most. -/
structure WellOrdered (threads : List Thread) : Prop where
  lengths : ∀ thread ∈ threads, thread.tlsAddr.length = 16
  addresses : (threads.map Thread.tlsAddr).Nodup
  increasing : ∀ thread ∈ threads, (thread.counters.map Counter.tsc).Pairwise (· < ·)
  once : ∀ thread ∈ threads, Outline.SuspendsOnce (thread.counters.map (roleOf probeMap))

variable {probeMap} {threads threads' : List Thread}

theorem WellOrdered.perm (ordered : WellOrdered probeMap threads) (perm : threads.Perm threads') :
    WellOrdered probeMap threads' where
  lengths := fun thread member => ordered.lengths thread (perm.mem_iff.mpr member)
  addresses := (perm.map Thread.tlsAddr).nodup_iff.mp ordered.addresses
  increasing := fun thread member => ordered.increasing thread (perm.mem_iff.mpr member)
  once := fun thread member => ordered.once thread (perm.mem_iff.mpr member)

theorem WellOrdered.segments_once (ordered : WellOrdered probeMap threads) :
    ∀ segment ∈ (Outline.empty.loadThreads probeMap threads).segments,
      segment.suspendIds.length ≤ 1 := by
  have idle := Outline.loadThreads_idle probeMap .empty rfl threads
  rw [Refines.segments_idle idle]
  intro segment member
  obtain ⟨entry, closed, rfl⟩ := List.mem_map.mp member
  exact Outline.loadThreads_once threads ordered.once entry closed

theorem WellOrdered.unique (ordered : WellOrdered probeMap threads) :
    Unique (piecesOf (Outline.empty.loadThreads probeMap threads).segments) := by
  refine unique_piecesOf ?_ ordered.segments_once
  have sublist := Outline.suspendIds_loadThreads probeMap threads
  have distinct := Outline.linkIds_threads_nodup probeMap ordered.lengths
    ordered.addresses ordered.increasing
  have sameIds : (Outline.empty.loadThreads probeMap threads).segments.flatMap Segment.suspendIds =
      (Outline.empty.loadThreads probeMap threads).suspendIds := by
    rw [Outline.segments, Outline.suspendIds, List.flatMap_append, List.flatMap_map]
  rw [sameIds]
  exact distinct.sublist sublist

theorem WellOrdered.intactCounters (ordered : WellOrdered probeMap threads) {fuel : Nat}
    {loader : Loader}
    (called : (Loader.new.loadThreads probeMap threads).endCollection fuel = some loader)
    {more : Nat} (enough : fuel ≤ more) :
    loader.intactCounters =
      countersOf .intact (Outline.empty.loadThreads probeMap threads).closed ++
        joinedOf (Outline.empty.loadThreads probeMap threads).segments more := by
  have refines := loadThreads_refines probeMap threads
  have sound := (Outline.Sound.fresh probeMap []).loadThreads threads
  have unique := ordered.unique
  have rootsNodup : ((Loader.new.loadThreads probeMap threads).fragments.rootFragments.map
      (Loader.new.loadThreads probeMap threads).fragments.txnOf).Nodup := by
    rw [refines.fragments, roots_nodup_iff]
    exact fun segment member _ => ordered.segments_once segment member
  have fits : ∀ root ∈ (Loader.new.loadThreads probeMap threads).fragments.rootFragments,
      Fits (Loader.new.loadThreads probeMap threads).fragments.children fuel
        ((Loader.new.loadThreads probeMap threads).fragments.children root) := by
    refine (joinRoots_isSome _ fuel ⟨(Loader.new.loadThreads probeMap threads).heap,
      (Loader.new.loadThreads probeMap threads).nextTxnId, []⟩ _).mp ?_
    by_contra stuck
    rw [Option.not_isSome_iff_eq_none] at stuck
    simp [Loader.endCollection, TxnFragments.join, stuck] at called
  obtain ⟨new, txns, _, sameIntact, _, counters⟩ :=
    endCollection_numbered refines called sound rootsNodup
  have intact : (refs .intact (Outline.empty.loadThreads probeMap threads).closed).map
      (fun ref => (loader.heap.cell ref).counters) =
        countersOf .intact (Outline.empty.loadThreads probeMap threads).closed := by
    rw [← map_refs .intact _ (fun ref =>
      ((Loader.new.loadThreads probeMap threads).heap.cell ref).counters)
      fun ref segment fate found => (refines.closed_cell found).1]
    apply List.map_congr_left
    intro ref member
    rw [sameIntact ref member]
  have joined : new.map (fun txn => (loader.heap.cell txn).counters) =
      joinedOf (Outline.empty.loadThreads probeMap threads).segments more := by
    rw [counters, ← leaves_segmentOf unique ordered.segments_once
      (fun ref => ((Loader.new.loadThreads probeMap threads).heap.cell ref).counters)
      (fun txn segment found => (refines.cells txn segment found).1), ← refines.fragments]
    apply List.flatMap_congr
    intro root isRoot
    exact (leaves_mono (fits root isRoot) enough _).symm
  rw [← intact, ← joined, ← List.map_append, ← numbered_snd (refs .intact _ ++ new), ← txns,
    List.map_map]
  rfl

theorem WellOrdered.returns (ordered : WellOrdered probeMap threads) :
    ∃ fuel loader, (Loader.new.loadThreads probeMap threads).endCollection fuel = some loader := by
  rw [exists_endCollection_iff, (loadThreads_refines probeMap threads).fragments]
  exact linksFinite_of_unique ordered.unique

/-- The threads may be loaded in any order: the collection returns, with the same intact
transactions. -/
theorem load_order_independent (ordered : WellOrdered probeMap threads)
    (perm : threads.Perm threads') :
    (∃ fuel loader, (Loader.new.loadThreads probeMap threads).endCollection fuel = some loader) ∧
    (∃ fuel loader, (Loader.new.loadThreads probeMap threads').endCollection fuel = some loader) ∧
    ∀ fuel fuel' loader loader',
      (Loader.new.loadThreads probeMap threads).endCollection fuel = some loader →
      (Loader.new.loadThreads probeMap threads').endCollection fuel' = some loader' →
      loader.intactCounters.Perm loader'.intactCounters := by
  have ordered' := ordered.perm perm
  refine ⟨ordered.returns, ordered'.returns, ?_⟩
  intro fuel fuel' loader loader' called called'
  have sound (threads : List Thread) :
      (Outline.empty.loadThreads probeMap threads).Sound probeMap :=
    (Outline.Sound.fresh probeMap []).loadThreads threads
  have started := Outline.started_perm probeMap perm
  have segments (threads : List Thread) :
      (Outline.started (Outline.empty.loadThreads probeMap threads).closed).map Prod.fst =
        (Outline.empty.loadThreads probeMap threads).segments.filter
          fun segment => segment.origin ≠ .headless := by
    rw [Refines.segments_idle (Outline.loadThreads_idle probeMap .empty rfl threads),
      List.filter_map]
    rfl
  rw [ordered.intactCounters called (Nat.le_max_left fuel fuel'),
    ordered'.intactCounters called' (Nat.le_max_right fuel fuel'),
    ← Outline.countersOf_started (sound threads), ← Outline.countersOf_started (sound threads'),
    ← joinedOf_filter, ← joinedOf_filter (Outline.empty.loadThreads probeMap threads').segments,
    ← segments, ← segments]
  exact (started.filterMap _).append (joinedOf_perm (started.map Prod.fst) _)

end Orders

theorem suspendsOnce_of_count {roles : List Role} (once : roles.count .suspends ≤ 1) :
    Outline.SuspendsOnce roles := by
  rintro before opener inside after rfl _ _
  rw [List.count_append, List.count_append, List.count_cons] at once
  omega

/-- A transaction that one thread suspends and another resumes, loaded from either side. -/
theorem load_order_independent_suspend_resume :
    ∃ fuel fuel' loader loader',
      (Loader.new.loadThreads id [⟨List.replicate 16 '1', [⟨0, .txnBeginProbe, [], 1⟩,
          ⟨1, .txnSuspendProbe, [], 2⟩]⟩, ⟨List.replicate 16 '2',
          [⟨2, .txnResumeProbe, '2' :: List.replicate 16 '1', 3⟩, ⟨3, .txnEndProbe, [], 4⟩]⟩]).endCollection
        fuel = some loader ∧
      (Loader.new.loadThreads id [⟨List.replicate 16 '2',
          [⟨2, .txnResumeProbe, '2' :: List.replicate 16 '1', 3⟩, ⟨3, .txnEndProbe, [], 4⟩]⟩,
          ⟨List.replicate 16 '1', [⟨0, .txnBeginProbe, [], 1⟩, ⟨1, .txnSuspendProbe, [], 2⟩]⟩]).endCollection
        fuel' = some loader' ∧
      loader.intactCounters.Perm loader'.intactCounters := by
  have ordered : WellOrdered id [⟨List.replicate 16 '1', [⟨0, .txnBeginProbe, [], 1⟩,
      ⟨1, .txnSuspendProbe, [], 2⟩]⟩, ⟨List.replicate 16 '2',
      [⟨2, .txnResumeProbe, '2' :: List.replicate 16 '1', 3⟩, ⟨3, .txnEndProbe, [], 4⟩]⟩] := by
    refine ⟨by decide, by decide, by decide, ?_⟩
    intro thread isThread
    apply suspendsOnce_of_count
    revert thread
    decide
  obtain ⟨⟨fuel, loader, called⟩, ⟨fuel', loader', called'⟩, same⟩ :=
    load_order_independent ordered (.swap _ _ _)
  exact ⟨fuel, fuel', loader, loader', called, called', same _ _ _ _ called called'⟩

end Xpedite.Txn
