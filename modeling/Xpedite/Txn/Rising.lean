import Mathlib.Algebra.Order.BigOperators.Group.List
import Mathlib.Algebra.Order.Group.Nat
import Xpedite.Txn.Links
import Xpedite.Txn.LoadOrder

/-!
Joining ends where every resume counter is younger than the suspend counter it
names: along each link the time at which a fragment was opened goes up, also where
a fragment suspends several times and each suspend overwrites its successor.
-/

namespace Xpedite.Txn

open Xpedite.Lib

namespace Segment

def openedAt (segment : Segment) : Nat := (segment.counters.map Counter.tsc).headD 0

theorem openedAt_of_head {segment : Segment} {first : Counter}
    (head : segment.counters.head? = some first) : segment.openedAt = first.tsc := by
  obtain ⟨rest, counters⟩ := List.head?_eq_some_iff.mp head
  simp [openedAt, counters]

def Extends (added : List Str) (earlier segment : Segment) : Prop :=
  (∃ more, segment.counters = earlier.counters ++ more) ∧
    segment.suspendIds = earlier.suspendIds ++ added

theorem extends_refl (segment : Segment) : Extends [] segment segment := ⟨⟨[], by simp⟩, by simp⟩

theorem extends_add (segment : Segment) (counter : Counter) :
    Extends [] segment (segment.add counter) := ⟨⟨[counter], rfl⟩, by simp [add]⟩

theorem extends_bound (segment : Segment) (loose : List Counter) (counter : Counter) :
    Extends [] segment (segment.bound loose counter) :=
  ⟨⟨loose ++ [counter], by simp [bound]⟩, by simp [bound]⟩

theorem extends_suspendAt (segment : Segment) (loose : List Counter) (counter : Counter)
    (linkId : Str) : Extends [linkId] segment ((segment.bound loose counter).suspendAt linkId) :=
  ⟨⟨loose ++ [counter], by simp [bound, suspendAt]⟩, by simp [bound, suspendAt]⟩

end Segment

namespace Outline

theorem segments_loadCounter {outline : Outline} {tlsAddr : Str} {role : Role} {counter : Counter}
    {segment : Segment} (member : segment ∈ (outline.loadCounter tlsAddr role counter).segments) :
    (segment.counters.head? = some counter ∧ segment.suspendIds = []) ∨
      ∃ earlier ∈ outline.segments, earlier.Extends [] segment ∨
        (role = .suspends ∧ earlier.Extends [Loader.linkId counter.tsc tlsAddr] segment) := by
  cases isOpen : outline.current with
  | none =>
      have kept (old : segment ∈ outline.closed.map Prod.fst) : ∃ earlier ∈ outline.segments,
          earlier.Extends [] segment ∨
            (role = .suspends ∧ earlier.Extends [Loader.linkId counter.tsc tlsAddr] segment) :=
        ⟨segment, List.mem_append_left _ old, .inl segment.extends_refl⟩
      cases role <;> simp only [loadCounter, isOpen, openSegment, close, Outline.segments,
        List.map_append, List.map_cons, List.map_nil, Option.toList_some, Option.toList_none,
        List.append_nil, List.mem_append, List.mem_singleton] at member
      case plain => exact .inr (kept member)
      all_goals
        rcases member with old | rfl
        · exact .inr (kept old)
        · exact .inl ⟨rfl, rfl⟩
  | some current =>
      have last : current ∈ outline.segments := by simp [segments, isOpen]
      have extended {role : Role} {added : List Str} {next : Segment}
          (extension : current.Extends added next)
          (added : added = [] ∨ (role = .suspends ∧ added = [Loader.linkId counter.tsc tlsAddr]))
          (member : segment ∈ outline.closed.map Prod.fst ++ [next]) : ∃ earlier ∈ outline.segments,
            earlier.Extends [] segment ∨
              (role = .suspends ∧ earlier.Extends [Loader.linkId counter.tsc tlsAddr] segment) := by
        rcases List.mem_append.mp member with old | isNext
        · exact ⟨segment, List.mem_append_left _ old, .inl segment.extends_refl⟩
        · rw [List.mem_singleton] at isNext
          subst isNext
          rcases added with rfl | ⟨isSuspend, rfl⟩
          · exact ⟨current, last, .inl extension⟩
          · exact ⟨current, last, .inr ⟨isSuspend, extension⟩⟩
      have opened {origin : Origin} (member : segment ∈ outline.closed.map Prod.fst ++ [current] ++
          [Segment.start origin counter]) :
          (segment.counters.head? = some counter ∧ segment.suspendIds = []) ∨
            ∃ earlier ∈ outline.segments, earlier.Extends [] segment ∨
              (role = .suspends ∧ earlier.Extends [Loader.linkId counter.tsc tlsAddr] segment) := by
        rcases List.mem_append.mp member with old | isNew
        · exact .inr (extended current.extends_refl (.inl rfl) old)
        · rw [List.mem_singleton] at isNew
          exact .inl (isNew ▸ ⟨rfl, rfl⟩)
      cases role with
      | resumes =>
          simp only [loadCounter, isOpen, openSegment, close, Outline.segments, List.map_append,
            List.map_singleton, Option.toList_some] at member
          exact opened member
      | begins =>
          cases bounded : current.bounded with
          | true =>
              simp only [loadCounter, isOpen, bounded, ↓reduceIte, openSegment, close,
                Outline.segments, List.map_append, List.map_singleton, Option.toList_some] at member
              exact opened member
          | false =>
              simp only [loadCounter, isOpen, bounded, Bool.false_eq_true, ↓reduceIte,
                Outline.segments, Option.toList_some] at member
              exact .inr (extended (current.extends_add counter) (.inl rfl) member)
      | suspends =>
          simp only [loadCounter, isOpen, Outline.segments, Option.toList_some] at member
          exact .inr (extended (current.extends_suspendAt _ _ _) (.inr ⟨rfl, rfl⟩) member)
      | ends =>
          simp only [loadCounter, isOpen, Outline.segments, Option.toList_some] at member
          exact .inr (extended (current.extends_bound _ _) (.inl rfl) member)
      | plain =>
          cases bounded : current.bounded with
          | true =>
              simp only [loadCounter, isOpen, bounded, ↓reduceIte, Outline.segments,
                Option.toList_some] at member
              exact .inr (extended current.extends_refl (.inl rfl) member)
          | false =>
              simp only [loadCounter, isOpen, bounded, Bool.false_eq_true, ↓reduceIte,
                Outline.segments, Option.toList_some] at member
              exact .inr (extended (current.extends_add counter) (.inl rfl) member)

theorem segments_endLoad (outline : Outline) : outline.endLoad.segments = outline.segments := by
  cases isOpen : outline.current <;> simp [endLoad, segments, isOpen, close]

variable (probeMap : Probe → Probe)

structure Recorded (thread : Thread) (segment : Segment) : Prop where
  opened : ∃ first ∈ thread.counters, segment.counters.head? = some first
  suspended : ∀ linkId ∈ segment.suspendIds, ∃ counter ∈ thread.counters,
    roleOf probeMap counter = .suspends ∧ Loader.linkId counter.tsc thread.tlsAddr = linkId ∧
      segment.openedAt < counter.tsc

variable {probeMap}

theorem Recorded.snoc {tlsAddr : Str} {counters : List Counter} {segment : Segment}
    (recorded : Recorded probeMap ⟨tlsAddr, counters⟩ segment) (counter : Counter) :
    Recorded probeMap ⟨tlsAddr, counters ++ [counter]⟩ segment := by
  obtain ⟨⟨first, isFirst, head⟩, suspended⟩ := recorded
  refine ⟨⟨first, List.mem_append_left _ isFirst, head⟩, ?_⟩
  intro linkId isId
  obtain ⟨suspend, isCounter, facts⟩ := suspended linkId isId
  exact ⟨suspend, List.mem_append_left _ isCounter, facts⟩

theorem Recorded.extends {tlsAddr : Str} {counters : List Counter} {segment next : Segment}
    {added : List Str} (recorded : Recorded probeMap ⟨tlsAddr, counters⟩ segment)
    (extension : segment.Extends added next)
    (suspended : ∀ linkId ∈ added, ∃ counter ∈ counters, roleOf probeMap counter = .suspends ∧
      Loader.linkId counter.tsc tlsAddr = linkId ∧ segment.openedAt < counter.tsc) :
    Recorded probeMap ⟨tlsAddr, counters⟩ next := by
  obtain ⟨⟨more, longer⟩, suspendIds⟩ := extension
  obtain ⟨first, isFirst, head⟩ := recorded.opened
  have nextHead : next.counters.head? = some first := by
    rw [longer]
    exact head?_append_of_some head
  refine ⟨⟨first, isFirst, nextHead⟩, ?_⟩
  intro linkId isId
  rw [Segment.openedAt_of_head nextHead, ← Segment.openedAt_of_head head]
  rw [suspendIds] at isId
  rcases List.mem_append.mp isId with old | isNew
  · exact recorded.suspended linkId old
  · exact suspended linkId isNew

theorem loadCounters_recorded (loose : List Counter) (tlsAddr : Str) (counters : List Counter)
    (increasing : (counters.map Counter.tsc).Pairwise (· < ·)) :
    ∀ segment ∈ ((fresh loose).loadCounters probeMap tlsAddr counters).segments,
      Recorded probeMap ⟨tlsAddr, counters⟩ segment := by
  induction counters using List.reverseRecOn with
  | nil => simp [loadCounters, fresh, segments]
  | append_singleton counters counter ih =>
      rw [List.map_append, List.pairwise_append] at increasing
      obtain ⟨earlier, _, later⟩ := increasing
      intro segment member
      rw [loadCounters_snoc] at member
      rcases segments_loadCounter member with ⟨head, unsuspended⟩ | ⟨before, isBefore, extension⟩
      · exact ⟨⟨counter, by simp, head⟩, by simp [unsuspended]⟩
      · have recorded := ih earlier before isBefore
        rcases extension with extension | ⟨isSuspend, extension⟩
        · exact (recorded.snoc counter).extends extension (by simp)
        · refine (recorded.snoc counter).extends extension ?_
          obtain ⟨first, isFirst, head⟩ := recorded.opened
          intro linkId isId
          rw [List.mem_singleton] at isId
          refine ⟨counter, by simp, isSuspend, isId.symm, ?_⟩
          rw [Segment.openedAt_of_head head]
          exact later _ (List.mem_map_of_mem isFirst) _ (by simp)

theorem loadThread_recorded (loose : List Counter) (thread : Thread)
    (increasing : (thread.counters.map Counter.tsc).Pairwise (· < ·)) :
    ∀ segment ∈ ((fresh loose).loadThread probeMap thread).segments,
      Recorded probeMap thread segment := by
  rw [loadThread, segments_endLoad]
  exact loadCounters_recorded loose thread.tlsAddr thread.counters increasing

theorem loadThreads_recorded (threads : List Thread)
    (increasing : ∀ thread ∈ threads, (thread.counters.map Counter.tsc).Pairwise (· < ·)) :
    ∀ segment ∈ (empty.loadThreads probeMap threads).segments,
      ∃ thread ∈ threads, Recorded probeMap thread segment := by
  induction threads using List.reverseRecOn with
  | nil => simp [loadThreads, empty, segments]
  | append_singleton threads thread ih =>
      have idle := loadThreads_idle probeMap empty rfl threads
      intro segment member
      rw [loadThreads_snoc, loadThread_fresh probeMap _ idle] at member
      simp only [segments, after, List.map_append, List.append_assoc] at member
      rcases List.mem_append.mp member with old | isNew
      · obtain ⟨other, isOther, recorded⟩ :=
          ih (fun other isOther => increasing other (List.mem_append_left _ isOther)) segment
            (List.mem_append_left _ old)
        exact ⟨other, List.mem_append_left _ isOther, recorded⟩
      · exact ⟨thread, by simp, loadThread_recorded _ thread (increasing thread (by simp)) segment isNew⟩

end Outline

structure Suspends (fragments : TxnFragments) (pieces : List Piece) : Prop where
  suspending : ∀ linkId ref, fragments.suspending linkId = some ref →
    ∃ piece, pieces[ref]? = some piece ∧ linkId ∈ piece.suspendIds
  next : ∀ linkId ref, (fragments.fragment.cell ref).next = some linkId →
    ∃ piece, pieces[ref]? = some piece ∧ linkId ∈ piece.suspendIds

namespace Suspends

variable {fragments : TxnFragments} {pieces later : List Piece}

theorem new : Suspends .new [] :=
  ⟨by simp [TxnFragments.new], by simp [TxnFragments.new, Arena.empty]⟩

def Grown (pieces later : List Piece) : Prop :=
  ∀ (ref : Nat) (piece : Piece), pieces[ref]? = some piece →
    ∃ grown, later[ref]? = some grown ∧ piece.suspendIds ⊆ grown.suspendIds

theorem grown_append (pieces more : List Piece) : Grown pieces (pieces ++ more) := by
  intro ref piece found
  have bound := (List.getElem?_eq_some_iff.mp found).1
  exact ⟨piece, by rw [List.getElem?_append_left bound, found], List.Subset.refl _⟩

theorem grown_last (pieces : List Piece) (txn : Nat) (resumeId : Option Str)
    (suspendIds : List Str) (linkId : Str) :
    Grown (pieces ++ [⟨txn, resumeId, suspendIds⟩])
      (pieces ++ [⟨txn, resumeId, suspendIds ++ [linkId]⟩]) := by
  intro ref piece found
  rcases getElem?_snoc.mp found with old | ⟨last, rfl⟩
  · exact ⟨piece, getElem?_snoc.mpr (.inl old), List.Subset.refl _⟩
  · exact ⟨_, getElem?_snoc.mpr (.inr ⟨last, rfl⟩), List.subset_append_left _ _⟩

theorem grow (suspends : Suspends fragments pieces) (grown : Grown pieces later) :
    Suspends fragments later := by
  constructor
  · intro linkId ref found
    obtain ⟨piece, isPiece, member⟩ := suspends.suspending linkId ref found
    obtain ⟨bigger, isBigger, subset⟩ := grown ref piece isPiece
    exact ⟨bigger, isBigger, subset member⟩
  · intro linkId ref found
    obtain ⟨piece, isPiece, member⟩ := suspends.next linkId ref found
    obtain ⟨bigger, isBigger, subset⟩ := grown ref piece isPiece
    exact ⟨bigger, isBigger, subset member⟩

theorem addResumeFragment (suspends : Suspends fragments pieces) (linkId : Str) (txn : Nat) :
    Suspends (fragments.addResumeFragment linkId txn).1 pieces := by
  constructor
  · intro other ref found
    rw [addResumeFragment_suspending] at found
    exact suspends.suspending other ref found
  · intro other ref found
    rw [addResumeFragment_next] at found
    split at found
    · rename_i linked
      rw [Option.some.injEq] at found
      exact found ▸ suspends.suspending linkId ref linked.2
    · by_cases fresh : ref = fragments.fragment.size
      · simp [fresh] at found
      · rw [Arena.cell_alloc_of_ne _ _ fresh] at found
        exact suspends.next other ref found

theorem suspendAt (suspends : Suspends fragments pieces) {linkId : Str} {ref : Nat}
    (pieceAt : ∃ piece, pieces[ref]? = some piece ∧ linkId ∈ piece.suspendIds) :
    Suspends (fragments.suspendAt linkId ref) pieces := by
  constructor
  · intro other place found
    rw [suspendAt_suspending] at found
    split at found
    · rename_i same
      rw [Option.some.injEq] at found
      exact same ▸ found ▸ pieceAt
    · exact suspends.suspending other place found
  · intro other place found
    rw [suspendAt_next] at found
    split at found
    · rename_i followed
      rw [Option.some.injEq] at found
      exact found ▸ followed.2 ▸ pieceAt
    · exact suspends.next other place found

theorem suspendBegun (suspends : Suspends fragments pieces) (shape : Shape fragments pieces)
    (suspendIds : List Str) (txn : Nat) :
    Suspends (suspendIds.foldl (fun fs linkId => fs.addSuspendFragment linkId txn none) fragments)
      (pieces ++ suspendIds.map fun linkId => ⟨txn, none, [linkId]⟩) := by
  induction suspendIds generalizing fragments pieces with
  | nil => simpa using suspends
  | cons linkId rest ih =>
      have allocated : Suspends { fragments with
          fragment := fragments.fragment.alloc ⟨txn, none, some linkId, none⟩
          rootFragments := fragments.rootFragments ++ [fragments.fragment.size] }
          (pieces ++ [⟨txn, none, [linkId]⟩]) := by
        refine Suspends.grow ⟨suspends.suspending, fun other ref found => ?_⟩ (grown_append pieces _)
        by_cases fresh : ref = fragments.fragment.size
        · simp [fresh] at found
        · rw [Arena.cell_alloc_of_ne _ _ fresh] at found
          exact suspends.next other ref found
      have registered : Suspends (fragments.addSuspendFragment linkId txn none)
          (pieces ++ [⟨txn, none, [linkId]⟩]) :=
        allocated.suspendAt ⟨_, getElem?_snoc.mpr (.inr ⟨shape.size, rfl⟩), by simp⟩
      have tail := ih registered (shape.addRootFragment linkId txn)
      simpa using tail

theorem suspendAll {txn : Nat} {resumeId : Str} {earlier : List Str}
    (suspends : Suspends fragments (pieces ++ [⟨txn, some resumeId, earlier⟩]))
    (suspendIds : List Str) :
    Suspends (suspendIds.foldl
        (fun fs linkId => fs.addSuspendFragment linkId txn (some pieces.length)) fragments)
      (pieces ++ [⟨txn, some resumeId, earlier ++ suspendIds⟩]) := by
  induction suspendIds generalizing fragments earlier with
  | nil => simpa using suspends
  | cons linkId rest ih =>
      have registered : Suspends (fragments.addSuspendFragment linkId txn (some pieces.length))
          (pieces ++ [⟨txn, some resumeId, earlier ++ [linkId]⟩]) :=
        (suspends.grow (grown_last pieces txn (some resumeId) earlier linkId)).suspendAt
          ⟨_, getElem?_snoc.mpr (.inr ⟨rfl, rfl⟩), by simp⟩
      have tail := ih registered
      simpa using tail

theorem register (suspends : Suspends fragments pieces) (shape : Shape fragments pieces)
    (segment : Segment) (txn : Nat) :
    Suspends (fragments.register segment txn) (pieces ++ segment.pieces txn) := by
  cases origin : segment.origin with
  | begun =>
      simp only [TxnFragments.register, Segment.pieces, origin]
      exact suspends.suspendBegun shape segment.suspendIds txn
  | resumed linkId =>
      have created := (suspends.addResumeFragment linkId txn).grow
        (grown_append pieces [⟨txn, some linkId, []⟩])
      have all := created.suspendAll segment.suspendIds
      simp only [TxnFragments.register, Segment.pieces, origin, shape.size]
      simpa using all
  | headless => simpa [TxnFragments.register, Segment.pieces, origin] using suspends

end Suspends

theorem fragmentsOf_suspends (segments : List Segment) :
    Suspends (fragmentsOf segments) (piecesOf segments) := by
  induction segments using List.reverseRecOn with
  | nil => exact .new
  | append_singleton segments segment ih =>
      rw [fragmentsOf_append, piecesOf_append]
      exact ih.register (fragmentsOf_shape segments) segment segments.length

theorem segment_of_piece {segments : List Segment} {piece : Piece}
    (member : piece ∈ piecesOf segments) :
    ∃ segment, segments[piece.txn]? = some segment ∧ piece.suspendIds ⊆ segment.suspendIds := by
  obtain ⟨txn, segment, found, isPiece⟩ := mem_piecesOf.mp member
  rw [pieces_txn isPiece]
  refine ⟨segment, found, ?_⟩
  cases origin : segment.origin with
  | begun =>
      simp only [Segment.pieces, origin, List.mem_map] at isPiece
      obtain ⟨linkId, isId, rfl⟩ := isPiece
      exact List.cons_subset.mpr ⟨isId, List.nil_subset _⟩
  | resumed linkId =>
      simp only [Segment.pieces, origin, List.mem_singleton] at isPiece
      rw [isPiece]
      exact List.Subset.refl _
  | headless => simp [Segment.pieces, origin] at isPiece

theorem segments_of_child {segments : List Segment} {parent child : Nat}
    (isChild : child ∈ (fragmentsOf segments).children parent) :
    ∃ upper lower linkId, segments[(fragmentsOf segments).txnOf parent]? = some upper ∧
      segments[(fragmentsOf segments).txnOf child]? = some lower ∧
      linkId ∈ upper.suspendIds ∧ lower.origin = .resumed linkId := by
  simp only [TxnFragments.children] at isChild
  cases next : ((fragmentsOf segments).fragment.cell parent).next with
  | none => simp [next, TxnFragments.follow] at isChild
  | some linkId =>
      rw [next, TxnFragments.follow] at isChild
      obtain ⟨piece, isPiece, isSuspended⟩ := (fragmentsOf_suspends segments).next linkId parent next
      obtain ⟨childPiece, isChildPiece, resumes⟩ := mem_resuming.mp isChild
      obtain ⟨upper, foundUpper, suspendIds⟩ := segment_of_piece (List.mem_of_getElem? isPiece)
      obtain ⟨lower, foundLower, origin, _⟩ :=
        resumed_of_piece (List.mem_of_getElem? isChildPiece) resumes
      rw [txnOf_piece isPiece, txnOf_piece isChildPiece]
      exact ⟨upper, lower, linkId, foundUpper, foundLower, suspendIds isSuspended, origin⟩

section Threads

variable (probeMap : Probe → Probe)

/-- What recorded threads are like: the samples of a thread are in the order of time, and a resume
counter is younger than the suspend counter its data names, where that one was recorded. -/
structure Timely (threads : List Thread) : Prop where
  increasing : ∀ thread ∈ threads, (thread.counters.map Counter.tsc).Pairwise (· < ·)
  resumesLater : ∀ thread ∈ threads, ∀ suspend ∈ thread.counters,
    roleOf probeMap suspend = .suspends →
    ∀ other ∈ threads, ∀ resume ∈ other.counters, roleOf probeMap resume = .resumes →
      resume.data = Loader.linkId suspend.tsc thread.tlsAddr → suspend.tsc < resume.tsc

variable {probeMap} {threads : List Thread}

theorem Timely.perm {order : List Thread} (timely : Timely probeMap threads)
    (perm : order.Perm threads) : Timely probeMap order where
  increasing := fun thread member => timely.increasing thread (perm.mem_iff.mp member)
  resumesLater := fun thread member suspend isSuspend suspends other isOther =>
    timely.resumesLater thread (perm.mem_iff.mp member) suspend isSuspend suspends other
      (perm.mem_iff.mp isOther)

theorem Timely.openedAt_lt (timely : Timely probeMap threads) {upper lower : Segment} {linkId : Str}
    (isUpper : upper ∈ (Outline.empty.loadThreads probeMap threads).segments)
    (isLower : lower ∈ (Outline.empty.loadThreads probeMap threads).segments)
    (suspends : linkId ∈ upper.suspendIds) (resumes : lower.origin = .resumed linkId) :
    upper.openedAt < lower.openedAt := by
  have recorded := @Outline.loadThreads_recorded probeMap threads timely.increasing
  obtain ⟨thread, isThread, upperRecorded⟩ := recorded upper isUpper
  obtain ⟨other, isOther, lowerRecorded⟩ := recorded lower isLower
  obtain ⟨suspend, isSuspend, suspendRole, named, before⟩ := upperRecorded.suspended linkId suspends
  obtain ⟨resume, isResume, head⟩ := lowerRecorded.opened
  have idle := Outline.loadThreads_idle probeMap .empty rfl threads
  have sound := (Outline.Sound.fresh probeMap []).loadThreads threads
  rw [Refines.segments_idle idle] at isLower
  obtain ⟨entry, closed, rfl⟩ := List.mem_map.mp isLower
  obtain ⟨⟨first, rest, counters, opened⟩, _, _⟩ := (sound.closed entry closed).1
  rw [counters, List.head?_cons, Option.some.injEq] at head
  subst head
  simp only [resumes] at opened
  have later := timely.resumesLater thread isThread suspend isSuspend suspendRole other isOther
    first isResume opened.1 (opened.2.trans named.symm)
  have lowerAt : entry.1.openedAt = first.tsc := Segment.openedAt_of_head (by simp [counters])
  omega

theorem Timely.linksFinite (timely : Timely probeMap threads) :
    (Loader.new.loadThreads probeMap threads).fragments.LinksFinite := by
  rw [(loadThreads_refines probeMap threads).fragments]
  set segments := (Outline.empty.loadThreads probeMap threads).segments with isSegments
  intro root _
  refine acc_of_rising
    (fun ref => ((segments.map Segment.openedAt)[(fragmentsOf segments).txnOf ref]?).getD 0)
    (segments.map Segment.openedAt).sum ?_ root
  intro parent child isChild
  obtain ⟨upper, lower, linkId, foundUpper, foundLower, suspends, resumes⟩ := segments_of_child isChild
  have rises := timely.openedAt_lt (List.mem_of_getElem? foundUpper)
    (List.mem_of_getElem? foundLower) suspends resumes
  have bounded : lower.openedAt ≤ (segments.map Segment.openedAt).sum :=
    List.le_sum_of_mem (List.mem_map_of_mem (List.mem_of_getElem? foundLower))
  simp only [List.getElem?_map, foundUpper, foundLower, Option.map_some, Option.getD_some]
  exact ⟨rises, bounded⟩

/-- In whichever order the threads are loaded, the recursion of `join` comes to an end. -/
theorem endCollection_returns (timely : Timely probeMap threads) {order : List Thread}
    (perm : order.Perm threads) :
    ∃ fuel loader, (Loader.new.loadThreads probeMap order).endCollection fuel = some loader :=
  (exists_endCollection_iff _).mpr (timely.perm perm).linksFinite

end Threads

/-- The thread that resumes suspends twice, and both link ids are resumed by a third thread, which
is loaded first. -/
theorem endCollection_returns_suspended_twice :
    ∃ fuel loader, (Loader.new.loadThreads id [
      ⟨['c'], [⟨5, .txnResumeProbe, ['4', 'b'], 6⟩, ⟨6, .txnResumeProbe, ['5', 'b'], 7⟩]⟩,
      ⟨['a'], [⟨0, .txnBeginProbe, [], 1⟩, ⟨1, .txnSuspendProbe, [], 2⟩]⟩,
      ⟨['b'], [⟨2, .txnResumeProbe, ['2', 'a'], 3⟩, ⟨3, .txnSuspendProbe, [], 4⟩,
        ⟨4, .txnSuspendProbe, [], 5⟩]⟩]).endCollection fuel = some loader := by
  have timely : Timely id [
      ⟨['a'], [⟨0, .txnBeginProbe, [], 1⟩, ⟨1, .txnSuspendProbe, [], 2⟩]⟩,
      ⟨['b'], [⟨2, .txnResumeProbe, ['2', 'a'], 3⟩, ⟨3, .txnSuspendProbe, [], 4⟩,
        ⟨4, .txnSuspendProbe, [], 5⟩]⟩,
      ⟨['c'], [⟨5, .txnResumeProbe, ['4', 'b'], 6⟩, ⟨6, .txnResumeProbe, ['5', 'b'], 7⟩]⟩] :=
    ⟨by decide, by decide⟩
  exact endCollection_returns timely (by decide)

end Xpedite.Txn
