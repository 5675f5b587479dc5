import Mathlib.Data.List.Basic
import Xpedite.Lib.Snoc
import Xpedite.Txn.OutlineCore

/-!
The loader refines the outline: after any sequence of calls its heap holds the
segments of the outline, in the order they were opened, and its fragment store is
the one these segments lead to.
-/

namespace Xpedite.Txn

open Xpedite.Lib

theorem refs_append (fate fate' : Fate) (closed : List (Segment × Fate)) (segment : Segment) :
    refs fate (closed ++ [(segment, fate')]) =
      refs fate closed ++ if fate' = fate then [closed.length] else [] := by
  simp only [refs, List.zipIdx_append, List.filterMap_append, List.zipIdx_cons, List.zipIdx_nil]
  by_cases same : fate' = fate <;> simp [same]

theorem mem_refs {fate : Fate} {closed : List (Segment × Fate)} {ref : Nat} :
    ref ∈ refs fate closed ↔ ∃ segment, closed[ref]? = some (segment, fate) := by
  simp only [refs, List.mem_filterMap, List.mem_zipIdx_iff_getElem?, Option.ite_none_right_eq_some,
    Option.some.injEq, Prod.exists]
  constructor
  · rintro ⟨segment, fate', index, found, rfl, rfl⟩
    exact ⟨segment, found⟩
  · rintro ⟨segment, found⟩
    exact ⟨segment, fate, ref, found, rfl, rfl⟩

theorem fragmentsOf_append (segments : List Segment) (segment : Segment) :
    fragmentsOf (segments ++ [segment]) = (fragmentsOf segments).register segment segments.length := by
  simp [fragmentsOf, List.zipIdx_append]

theorem register_suspendAt (fragments : TxnFragments) (segment : Segment) (linkId : Str) (txn : Nat)
    (started : segment.origin ≠ .headless) :
    fragments.register (segment.suspendAt linkId) txn =
      (fragments.register segment txn).addSuspendFragment linkId txn (segment.resumeRef fragments) := by
  cases origin : segment.origin with
  | begun => simp [TxnFragments.register, Segment.resumeRef, Segment.suspendAt, origin]
  | resumed resumeId => simp [TxnFragments.register, Segment.resumeRef, Segment.suspendAt, origin]
  | headless => exact absurd origin started

def numbered (txns : List Nat) : List (TxnId × Nat) :=
  txns.zipIdx.map fun entry => (.int (entry.2 + 1), entry.1)

theorem numbered_append (txns : List Nat) (txn : Nat) :
    numbered (txns ++ [txn]) = numbered txns ++ [(.int (txns.length + 1), txn)] := by
  simp [numbered, List.zipIdx_append]

theorem numbered_snd (txns : List Nat) : (numbered txns).map Prod.snd = txns := by
  rw [numbered, List.map_map]
  exact List.zipIdx_map_fst 0 txns

theorem numbered_keys (txns : List Nat) :
    (numbered txns).map Prod.fst = (List.range' 1 txns.length).map TxnId.int := by
  induction txns using List.reverseRecOn with
  | nil => rfl
  | append_singleton txns txn ih =>
      rw [numbered_append, List.map_append, ih, List.length_append, List.length_singleton,
        List.range'_concat, List.map_append]
      simp [Nat.add_comm]

theorem numbered_find_next (txns : List Nat) :
    (numbered txns).find? (fun entry => entry.1 == TxnId.int (txns.length + 1)) = none := by
  simp only [numbered, List.find?_eq_none, List.mem_map, List.mem_zipIdx_iff_getElem?, beq_iff_eq]
  rintro entry ⟨⟨txn, index⟩, found, rfl⟩ same
  have bound : index < txns.length := (List.getElem?_eq_some_iff.mp found).1
  simp only [TxnId.int.injEq] at same
  omega

theorem Outline.segments_closed (outline : Outline) {ref : Nat} {segment : Segment} {fate : Fate}
    (found : outline.closed[ref]? = some (segment, fate)) :
    outline.segments[ref]? = some segment := by
  have bound : ref < outline.closed.length := (List.getElem?_eq_some_iff.mp found).1
  rw [Outline.segments, List.getElem?_append_left (by simpa using bound), List.getElem?_map, found]
  rfl

structure Refines (outline : Outline) (loader : Loader) : Prop where
  size : loader.heap.size = outline.segments.length
  cells : ∀ ref segment, outline.segments[ref]? = some segment →
    (loader.heap.cell ref).counters = segment.counters ∧
      (loader.heap.cell ref).hasEndProbe = segment.bounded
  txns : loader.txns = numbered (refs .intact outline.closed)
  nextTxnId : loader.nextTxnId = (refs .intact outline.closed).length
  compromised : loader.compromisedTxns = refs .compromised outline.closed
  stray : loader.nonTxnCounters = outline.stray
  loose : loader.ephemeralCounters = outline.loose
  fragments : loader.fragments = fragmentsOf outline.segments
  joined : loader.joinedTxns = 0
  current : loader.currentTxn = outline.current.map fun _ => outline.closed.length
  flags : ∀ segment, outline.current = some segment → segment.origin ≠ .headless ∧
    loader.resumeFragment = segment.resumeRef (fragmentsOf (outline.closed.map Prod.fst)) ∧
    loader.suspendingTxn = !segment.suspendIds.isEmpty

theorem Refines.new : Refines .empty .new where
  size := rfl
  cells := by simp [Outline.empty, Outline.segments]
  txns := rfl
  nextTxnId := rfl
  compromised := rfl
  stray := rfl
  loose := rfl
  fragments := rfl
  joined := rfl
  current := rfl
  flags := by simp [Outline.empty]

namespace Refines

variable {outline : Outline} {loader : Loader}

theorem segments_idle (idle : outline.current = none) :
    outline.segments = outline.closed.map Prod.fst := by
  simp [Outline.segments, idle]

theorem segments_open {segment : Segment} (isOpen : outline.current = some segment) :
    outline.segments = outline.closed.map Prod.fst ++ [segment] := by
  simp [Outline.segments, isOpen]

theorem closed_lt {entry : Segment × Fate} {ref : Nat} (refines : Refines outline loader)
    (found : outline.closed[ref]? = some entry) : ref < loader.heap.size := by
  have index := (List.getElem?_eq_some_iff.mp found).1
  rw [refines.size, Outline.segments, List.length_append, List.length_map]
  omega

theorem closed_cell {segment : Segment} {fate : Fate} {ref : Nat} (refines : Refines outline loader)
    (found : outline.closed[ref]? = some (segment, fate)) :
    (loader.heap.cell ref).counters = segment.counters ∧
      (loader.heap.cell ref).hasEndProbe = segment.bounded := by
  apply refines.cells
  exact outline.segments_closed found

theorem closed_entry {entry : Segment × Fate} {ref : Nat} (refines : Refines outline loader)
    (found : outline.closed[ref]? = some entry) :
    (loader.heap.cell ref).counters = entry.1.counters ∧
      (loader.heap.cell ref).hasEndProbe = entry.1.bounded :=
  refines.closed_cell found

theorem current_cell {segment : Segment} (refines : Refines outline loader)
    (isOpen : outline.current = some segment) :
    (loader.heap.cell outline.closed.length).counters = segment.counters ∧
      (loader.heap.cell outline.closed.length).hasEndProbe = segment.bounded := by
  apply refines.cells
  simp [segments_open isOpen]

theorem modify_current {segment : Segment} (refines : Refines outline loader) (changed : Segment)
    (change : Transaction → Transaction) (isOpen : outline.current = some segment)
    (counters : (change (loader.heap.cell outline.closed.length)).counters = changed.counters)
    (bounded : (change (loader.heap.cell outline.closed.length)).hasEndProbe = changed.bounded)
    (sameOrigin : changed.origin = segment.origin) (sameLinks : changed.suspendIds = segment.suspendIds) :
    Refines { outline with current := some changed }
      { loader with heap := loader.heap.modify outline.closed.length change } := by
  have sameRegister (fragments : TxnFragments) (txn : Nat) :
      fragments.register changed txn = fragments.register segment txn := by
    simp only [TxnFragments.register, sameOrigin, sameLinks]
  constructor
  · simpa [Outline.segments, isOpen] using refines.size
  · intro ref other found
    simp only [Outline.segments, Option.toList_some, getElem?_snoc, List.length_map] at found
    rcases found with old | ⟨rfl, rfl⟩
    · have bound : ref < outline.closed.length := by
        simpa using (List.getElem?_eq_some_iff.mp old).1
      rw [Arena.cell_modify_of_ne _ _ (Nat.ne_of_lt bound)]
      apply refines.cells
      rw [segments_open isOpen]
      exact getElem?_snoc.mpr (.inl old)
    · simpa using ⟨counters, bounded⟩
  · exact refines.txns
  · exact refines.nextTxnId
  · exact refines.compromised
  · exact refines.stray
  · exact refines.loose
  · have store := refines.fragments
    rw [segments_open isOpen, fragmentsOf_append] at store
    simp only [Outline.segments, Option.toList_some, fragmentsOf_append, sameRegister]
    exact store
  · exact refines.joined
  · simpa [isOpen] using refines.current
  · intro other found
    simp only [Option.some.injEq] at found
    subst found
    have flags := refines.flags segment isOpen
    simpa only [sameOrigin, sameLinks, Segment.resumeRef] using flags

theorem discard (refines : Refines outline loader) :
    Refines { outline with loose := [], stray := outline.stray ++ outline.loose }
      loader.discardEphemeral where
  size := refines.size
  cells := refines.cells
  txns := refines.txns
  nextTxnId := refines.nextTxnId
  compromised := refines.compromised
  stray := by simp [Loader.discardEphemeral, refines.stray, refines.loose]
  loose := rfl
  fragments := refines.fragments
  joined := refines.joined
  current := refines.current
  flags := refines.flags

theorem append {segment : Segment} (refines : Refines outline loader)
    (isOpen : outline.current = some segment) :
    Refines (outline.close segment segment.fate)
      { loader.appendTxn outline.closed.length with currentTxn := none } := by
  obtain ⟨started, resumeFragment, suspendingTxn⟩ := refines.flags segment isOpen
  have withheld : (loader.resumeFragment.isSome || loader.suspendingTxn) = segment.isLinked := by
    rw [resumeFragment, suspendingTxn]
    cases origin : segment.origin <;> simp [Segment.resumeRef, Segment.isLinked, origin]
  have sameSegments : (outline.close segment segment.fate).segments = outline.segments := by
    simp [Outline.segments, Outline.close, isOpen]
  have sizes := refines.size
  have cells := refines.cells
  have store := refines.fragments
  rw [← sameSegments] at sizes cells store
  by_cases linked : segment.isLinked
  · have kept : loader.appendTxn outline.closed.length = loader := by
      simp [Loader.appendTxn, withheld, linked]
    rw [kept]
    have fate : segment.fate = .linked := by simp [Segment.fate, linked]
    constructor <;> simp only [Outline.close, fate, refs_append, reduceCtorEq, ↓reduceIte,
      List.append_nil, Option.map_none, false_implies, implies_true]
    · simpa only [Outline.close, fate] using sizes
    · simpa only [Outline.close, fate] using cells
    · exact refines.txns
    · exact refines.nextTxnId
    · exact refines.compromised
    · exact refines.stray
    · exact refines.loose
    · simpa only [Outline.close, fate] using store
    · exact refines.joined
  · have fate : segment.fate = .intact := by simp [Segment.fate, linked]
    have fresh := numbered_find_next (refs .intact outline.closed)
    rw [← refines.txns, ← refines.nextTxnId] at fresh
    have inserted : loader.appendTxn outline.closed.length = { loader with
        nextTxnId := loader.nextTxnId + 1
        heap := loader.heap.modify outline.closed.length fun t =>
          { t with txnId := .int (loader.nextTxnId + 1) }
        txns := loader.txns ++ [(.int (loader.nextTxnId + 1), outline.closed.length)] } := by
      simp [Loader.appendTxn, withheld, linked, Loader.insertTxn, fresh]
    rw [inserted]
    constructor <;> simp only [Outline.close, fate, refs_append, reduceCtorEq, ↓reduceIte,
      List.append_nil, Option.map_none, false_implies, implies_true]
    · simpa only [Outline.close, fate, Arena.size_modify] using sizes
    · intro ref other found
      have cell := cells ref other (by simpa only [Outline.close, fate] using found)
      by_cases isCurrent : ref = outline.closed.length
      · subst isCurrent
        simpa using cell
      · rwa [Arena.cell_modify_of_ne _ _ isCurrent]
    · rw [numbered_append, ← refines.txns, refines.nextTxnId]
    · simp [refines.nextTxnId]
    · exact refines.compromised
    · exact refines.stray
    · exact refines.loose
    · simpa only [Outline.close, fate] using store
    · exact refines.joined

theorem compromise {segment : Segment} (refines : Refines outline loader)
    (isOpen : outline.current = some segment) :
    Refines (outline.close segment .compromised)
      { loader with
        compromisedTxns := loader.compromisedTxns ++ [outline.closed.length]
        currentTxn := none } := by
  have sameSegments : (outline.close segment .compromised).segments = outline.segments := by
    simp [Outline.segments, Outline.close, isOpen]
  constructor
  · rw [sameSegments]; exact refines.size
  · rw [sameSegments]; exact refines.cells
  · simpa [Outline.close, refs_append] using refines.txns
  · simpa [Outline.close, refs_append] using refines.nextTxnId
  · simp [Outline.close, refs_append, refines.compromised]
  · exact refines.stray
  · exact refines.loose
  · rw [sameSegments]; exact refines.fragments
  · exact refines.joined
  · rfl
  · simp [Outline.close]

theorem cells_alloc {segment : Segment} {txn : Transaction} (refines : Refines outline loader)
    (idle : outline.current = none) (counters : txn.counters = segment.counters)
    (bounded : txn.hasEndProbe = segment.bounded) (ref : Nat) (other : Segment)
    (found : (outline.closed.map Prod.fst ++ [segment])[ref]? = some other) :
    ((loader.heap.alloc txn).cell ref).counters = other.counters ∧
      ((loader.heap.alloc txn).cell ref).hasEndProbe = other.bounded := by
  have sizes : loader.heap.size = outline.closed.length := by
    simpa [segments_idle idle] using refines.size
  rw [getElem?_snoc, List.length_map] at found
  rcases found with old | ⟨rfl, rfl⟩
  · have bound : ref < outline.closed.length := by
      simpa using (List.getElem?_eq_some_iff.mp old).1
    rw [Arena.cell_alloc_of_lt _ _ (by omega)]
    apply refines.cells
    rw [segments_idle idle]
    exact old
  · rw [← sizes, Arena.cell_alloc_fresh]
    exact ⟨counters, bounded⟩

theorem build (refines : Refines outline loader) (segment : Segment) (txn : Transaction)
    (resumeFragment : Option Nat) (fragmentId : Nat) (idle : outline.current = none)
    (counters : txn.counters = segment.counters) (bounded : txn.hasEndProbe = segment.bounded)
    (started : segment.origin ≠ .headless) (unlinked : segment.suspendIds = [])
    (resume : resumeFragment = segment.resumeRef loader.fragments) :
    Refines { outline with current := some segment }
      { loader with
        suspendingTxn := false
        heap := loader.heap.alloc txn
        fragments := loader.fragments.register segment loader.heap.size
        resumeFragment := resumeFragment
        nextFragmentId := fragmentId
        currentTxn := some loader.heap.size } := by
  have sizes : loader.heap.size = outline.closed.length := by
    simpa [segments_idle idle] using refines.size
  have store : loader.fragments = fragmentsOf (outline.closed.map Prod.fst) := by
    rw [refines.fragments, segments_idle idle]
  constructor
  · simp [Outline.segments, sizes]
  · exact refines.cells_alloc idle counters bounded
  · exact refines.txns
  · exact refines.nextTxnId
  · exact refines.compromised
  · exact refines.stray
  · exact refines.loose
  · simp only [Outline.segments, Option.toList_some, fragmentsOf_append, List.length_map]
    rw [← store, sizes]
  · exact refines.joined
  · simp [sizes]
  · intro other found
    simp only [Option.some.injEq] at found
    subst found
    simp [started, unlinked, resume, store]

theorem strand (refines : Refines outline loader) (segment : Segment) (txn : Transaction)
    (fragmentId : Nat) (idle : outline.current = none)
    (counters : txn.counters = segment.counters) (bounded : txn.hasEndProbe = segment.bounded)
    (headless : segment.origin = .headless) :
    Refines { outline.close segment .compromised with loose := [] }
      { loader with
        suspendingTxn := false
        heap := loader.heap.alloc txn
        resumeFragment := none
        nextFragmentId := fragmentId
        ephemeralCounters := []
        compromisedTxns := loader.compromisedTxns ++ [loader.heap.size] } := by
  have sizes : loader.heap.size = outline.closed.length := by
    simpa [segments_idle idle] using refines.size
  constructor
  · simp [Outline.segments, Outline.close, sizes]
  · intro ref other found
    simp only [Outline.segments, Outline.close, Option.toList_none, List.append_nil, List.map_append,
      List.map_cons, List.map_nil] at found
    exact refines.cells_alloc idle counters bounded ref other found
  · simpa [Outline.close, refs_append] using refines.txns
  · simpa [Outline.close, refs_append] using refines.nextTxnId
  · simp [Outline.close, refs_append, refines.compromised, sizes]
  · exact refines.stray
  · rfl
  · have store := refines.fragments
    rw [segments_idle idle] at store
    simp [Outline.segments, Outline.close, fragmentsOf_append, TxnFragments.register, headless, store]
  · exact refines.joined
  · simpa [Outline.close, idle] using refines.current
  · simp [Outline.close]

end Refines

theorem foldl_addCounter (loader : Loader) (txn : Nat) (counters : List Counter) :
    counters.foldl (fun l counter => l.addCounter txn counter false) loader =
      { loader with
        heap := loader.heap.modify txn fun t => { t with counters := t.counters ++ counters } } := by
  induction counters generalizing loader with
  | nil =>
      rw [List.foldl_nil, Arena.modify_id]
      simp
  | cons counter rest ih =>
      rw [List.foldl_cons, ih]
      simp [Loader.addCounter, Arena.modify_modify, Transaction.addCounter]

theorem adoptEphemeral_eq (loader : Loader) (txn : Nat) :
    loader.adoptEphemeral txn = { loader with
      heap := loader.heap.modify txn fun t =>
        { t with counters := t.counters ++ loader.ephemeralCounters }
      ephemeralCounters := [] } := by
  simp only [Loader.adoptEphemeral, foldl_addCounter]

theorem Refines.buildTxn {outline : Outline} {loader : Loader} (refines : Refines outline loader)
    (idle : outline.current = none) (counter : Counter) (resumeTxn : Bool) :
    Refines { outline with
        current := some (.start (if resumeTxn then .resumed counter.data else .begun) counter) }
      { (loader.buildTxn counter resumeTxn).1 with
        currentTxn := some (loader.buildTxn counter resumeTxn).2 } := by
  cases resumeTxn with
  | true =>
      exact refines.build (.start (.resumed counter.data) counter)
        (Transaction.new counter (.str counter.data))
        (some loader.fragments.fragment.size) loader.nextFragmentId idle rfl rfl
        (by simp [Segment.start]) rfl rfl
  | false =>
      exact refines.build (.start .begun counter)
        (Transaction.new counter (.int (loader.nextFragmentId + 1)))
        none (loader.nextFragmentId + 1) idle rfl rfl
        (by simp [Segment.start]) rfl rfl

theorem Refines.reopen {outline : Outline} {loader : Loader} {segment : Segment}
    (refines : Refines outline loader) (isOpen : outline.current = some segment)
    (counter : Counter) (resumeTxn : Bool) :
    let built := (loader.discardEphemeral.appendTxn outline.closed.length).buildTxn counter resumeTxn
    Refines ((outline.close segment segment.fate).openSegment
        (.start (if resumeTxn then .resumed counter.data else .begun) counter))
      { built.1 with currentTxn := some built.2 } := by
  have closed := refines.discard.append isOpen
  have reopened := closed.buildTxn rfl counter resumeTxn
  cases resumeTxn <;> exact reopened

theorem Refines.bound {outline : Outline} {loader : Loader} {segment : Segment}
    (refines : Refines outline loader) (isOpen : outline.current = some segment)
    (counter : Counter) :
    Refines { outline with current := some (segment.bound outline.loose counter), loose := [] }
      ((loader.adoptEphemeral outline.closed.length).addCounter outline.closed.length counter true) := by
  have cell := refines.current_cell isOpen
  have changed := refines.modify_current (segment.bound outline.loose counter)
    (fun t => Transaction.addCounter counter true
      { t with counters := t.counters ++ loader.ephemeralCounters }) isOpen
    (by simp [Transaction.addCounter, Segment.bound, cell.1, refines.loose])
    (by simp [Transaction.addCounter, Segment.bound])
    rfl rfl
  simp only [adoptEphemeral_eq, Loader.addCounter, Arena.modify_modify]
  exact { changed with loose := rfl, current := changed.current, flags := changed.flags }

theorem Refines.suspend {outline : Outline} {loader : Loader} {segment : Segment}
    (refines : Refines outline loader) (isOpen : outline.current = some segment) (linkId : Str) :
    Refines { outline with current := some (segment.suspendAt linkId) }
      { loader with
        suspendingTxn := true
        fragments := loader.fragments.addSuspendFragment linkId outline.closed.length
          loader.resumeFragment } := by
  obtain ⟨started, resumeFragment, _⟩ := refines.flags segment isOpen
  have store := refines.fragments
  rw [Refines.segments_open isOpen, fragmentsOf_append, List.length_map] at store
  constructor
  · simpa [Outline.segments, isOpen] using refines.size
  · intro ref other found
    simp only [Outline.segments, Option.toList_some, getElem?_snoc, List.length_map] at found
    rcases found with old | ⟨rfl, rfl⟩
    · apply refines.cells
      rw [Refines.segments_open isOpen]
      exact getElem?_snoc.mpr (.inl old)
    · have same := refines.current_cell isOpen
      exact same
  · exact refines.txns
  · exact refines.nextTxnId
  · exact refines.compromised
  · exact refines.stray
  · exact refines.loose
  · simp only [Outline.segments, Option.toList_some, fragmentsOf_append, List.length_map]
    rw [register_suspendAt _ _ _ _ started, ← store, ← resumeFragment]
  · exact refines.joined
  · simpa [isOpen] using refines.current
  · intro other found
    simp only [Option.some.injEq] at found
    subst found
    exact ⟨started, resumeFragment, by simp [Segment.suspendAt]⟩

theorem Refines.loosen {outline : Outline} {loader : Loader} (refines : Refines outline loader)
    (counter : Counter) :
    Refines { outline with loose := outline.loose ++ [counter] }
      { loader with ephemeralCounters := loader.ephemeralCounters ++ [counter] } :=
  { refines with loose := by simp [refines.loose], cells := refines.cells, flags := refines.flags }

theorem Refines.add {outline : Outline} {loader : Loader} {segment : Segment}
    (refines : Refines outline loader) (isOpen : outline.current = some segment)
    (counter : Counter) :
    Refines { outline with current := some (segment.add counter) }
      (loader.addCounter outline.closed.length counter false) := by
  have cell := refines.current_cell isOpen
  exact refines.modify_current (segment.add counter) _ isOpen
    (by simp [Transaction.addCounter, Segment.add, cell.1])
    (by simp [Transaction.addCounter, Segment.add, cell.2]) rfl rfl

theorem Refines.loadCurrent {outline : Outline} {loader : Loader} {segment : Segment}
    (refines : Refines outline loader) (isOpen : outline.current = some segment)
    (userProbe : Probe) (counter : Counter) :
    Refines (outline.loadCounter loader.tlsAddr userProbe.role counter)
      (loader.loadCurrent outline.closed.length userProbe counter) := by
  have hasEnd := (refines.current_cell isOpen).2
  have bound := refines.bound isOpen counter
  simp only [Loader.loadCurrent, hasEnd]
  cases resumes : userProbe.canResumeTxn with
  | true =>
      have next := refines.reopen isOpen counter true
      simpa [Probe.role, resumes, Outline.loadCounter, isOpen] using next
  | false =>
    cases begins : userProbe.canBeginTxn with
    | true =>
        cases bounded : segment.bounded with
        | true =>
            have next := refines.reopen isOpen counter false
            simpa [Probe.role, resumes, begins, Outline.loadCounter, isOpen, bounded] using next
        | false =>
            have next := refines.add isOpen counter
            simpa [Probe.role, resumes, begins, Outline.loadCounter, isOpen, bounded] using next
    | false =>
      cases suspends : userProbe.canSuspendTxn with
      | true =>
          have next := bound.suspend rfl (Loader.linkId counter.tsc loader.tlsAddr)
          simpa [Probe.role, resumes, begins, suspends, Outline.loadCounter, isOpen,
            adoptEphemeral_eq, Loader.addCounter] using next
      | false =>
        cases ends : userProbe.canEndTxn with
        | true =>
            simpa [Probe.role, resumes, begins, suspends, ends, Outline.loadCounter, isOpen]
              using bound
        | false =>
            cases bounded : segment.bounded with
            | true =>
                have next := refines.loosen counter
                simpa [Probe.role, resumes, begins, suspends, ends, Outline.loadCounter, isOpen,
                  bounded] using next
            | false =>
                have next := refines.add isOpen counter
                simpa [Probe.role, resumes, begins, suspends, ends, Outline.loadCounter, isOpen,
                  bounded] using next

theorem Refines.loadIdle {outline : Outline} {loader : Loader} (refines : Refines outline loader)
    (idle : outline.current = none) (userProbe : Probe) (counter : Counter) :
    Refines (outline.loadCounter loader.tlsAddr userProbe.role counter)
      (loader.loadIdle userProbe counter) := by
  have stranded := refines.strand
    ⟨.headless, counter :: outline.loose, false, []⟩
    ⟨.int (loader.nextFragmentId + 1), counter :: outline.loose, false⟩
    (loader.nextFragmentId + 1) idle rfl rfl rfl
  have filled : (loader.heap.alloc
      (Transaction.new counter (.int (loader.nextFragmentId + 1)))).modify loader.heap.size
        (fun t => { t with counters := t.counters ++ outline.loose }) =
      loader.heap.alloc ⟨.int (loader.nextFragmentId + 1), counter :: outline.loose, false⟩ := by
    simp [Arena.alloc, Arena.modify, Transaction.new]
  simp only [Loader.loadIdle]
  cases resumes : userProbe.canResumeTxn with
  | true =>
      have next := (refines.buildTxn idle counter true).discard
      simpa [Probe.role, resumes, Outline.loadCounter, idle, Outline.openSegment] using next
  | false =>
    cases begins : userProbe.canBeginTxn with
    | true =>
        have next := (refines.buildTxn idle counter false).discard
        simpa [Probe.role, resumes, begins, Outline.loadCounter, idle, Outline.openSegment] using next
    | false =>
      cases suspends : userProbe.canSuspendTxn with
      | true =>
          simpa [Probe.role, resumes, begins, suspends, Outline.loadCounter, idle,
            adoptEphemeral_eq, Loader.buildTxn, refines.loose, filled] using stranded
      | false =>
        cases ends : userProbe.canEndTxn with
        | true =>
            simpa [Probe.role, resumes, begins, suspends, ends, Outline.loadCounter, idle,
              adoptEphemeral_eq, Loader.buildTxn, refines.loose, filled] using stranded
        | false =>
            have next := refines.loosen counter
            simpa [Probe.role, resumes, begins, suspends, ends, Outline.loadCounter, idle] using next

theorem Refines.loadCounter {outline : Outline} {loader : Loader} (probeMap : Probe → Probe)
    (refines : Refines outline loader) (counter : Counter) :
    Refines (outline.loadCounter loader.tlsAddr (probeMap counter.probe).role counter)
      (loader.loadCounter probeMap counter) := by
  have counted : Refines outline
      { loader with processedCounterCount := loader.processedCounterCount + 1 } :=
    { refines with cells := refines.cells, flags := refines.flags }
  simp only [Loader.loadCounter]
  split
  · rename_i txn found
    rw [counted.current, Option.map_eq_some_iff] at found
    obtain ⟨segment, isOpen, rfl⟩ := found
    exact counted.loadCurrent isOpen _ counter
  · rename_i found
    rw [counted.current, Option.map_eq_none_iff] at found
    exact counted.loadIdle found _ counter

theorem Refines.endLoad {outline : Outline} {loader : Loader} (refines : Refines outline loader) :
    Refines outline.endLoad loader.endLoad := by
  have current := refines.current
  cases isOpen : outline.current with
  | some segment =>
      rw [isOpen, Option.map_some] at current
      simp only [Outline.endLoad, isOpen, Loader.endLoad, current, (refines.current_cell isOpen).2,
        Segment.finalFate]
      cases bounded : segment.bounded with
      | true => exact refines.append isOpen
      | false => exact refines.compromise isOpen
  | none =>
      rw [isOpen, Option.map_none] at current
      simpa only [Outline.endLoad, isOpen, Loader.endLoad, current] using refines

theorem appendTxn_tlsAddr (loader : Loader) (txn : Nat) :
    (loader.appendTxn txn).tlsAddr = loader.tlsAddr := by
  simp only [Loader.appendTxn, Loader.insertTxn]
  split
  · split <;> rfl
  · rfl

theorem buildTxn_tlsAddr (loader : Loader) (counter : Counter) (resumeTxn : Bool) :
    (loader.buildTxn counter resumeTxn).1.tlsAddr = loader.tlsAddr := by
  cases resumeTxn <;> rfl

theorem loadCounter_tlsAddr (probeMap : Probe → Probe) (loader : Loader) (counter : Counter) :
    (loader.loadCounter probeMap counter).tlsAddr = loader.tlsAddr := by
  simp only [Loader.loadCounter]
  split
  · simp only [Loader.loadCurrent]
    split_ifs
    · simp only [buildTxn_tlsAddr, appendTxn_tlsAddr, Loader.discardEphemeral]
    · rfl
    · simp only [Loader.addCounter, adoptEphemeral_eq]
    · simp only [Loader.addCounter, adoptEphemeral_eq]
    · rfl
    · rfl
  · simp only [Loader.loadIdle]
    split_ifs
    · simp only [Loader.discardEphemeral, buildTxn_tlsAddr]
    · simp only [adoptEphemeral_eq, buildTxn_tlsAddr]
    · rfl

theorem Refines.loadCounters {outline : Outline} {loader : Loader} (probeMap : Probe → Probe)
    (refines : Refines outline loader) (counters : List Counter) :
    Refines (outline.loadCounters probeMap loader.tlsAddr counters)
      (counters.foldl (Loader.loadCounter probeMap) loader) := by
  induction counters generalizing outline loader with
  | nil => exact refines
  | cons counter rest ih =>
      have tail := ih (refines.loadCounter probeMap counter)
      rw [loadCounter_tlsAddr] at tail
      exact tail

theorem Refines.loadThread {outline : Outline} {loader : Loader} (probeMap : Probe → Probe)
    (refines : Refines outline loader) (thread : Thread) :
    Refines (outline.loadThread probeMap thread) (loader.loadThread probeMap thread) := by
  have begun : Refines outline (loader.beginLoad thread.tlsAddr) :=
    { refines with cells := refines.cells, flags := refines.flags }
  exact (begun.loadCounters probeMap thread.counters).endLoad

theorem Refines.loadThreads {outline : Outline} {loader : Loader} (probeMap : Probe → Probe)
    (refines : Refines outline loader) (threads : List Thread) :
    Refines (outline.loadThreads probeMap threads) (loader.loadThreads probeMap threads) := by
  induction threads generalizing outline loader with
  | nil => exact refines
  | cons thread rest ih => exact ih (refines.loadThread probeMap thread)

/-- Loading any threads into a fresh loader refines the outline of these threads. -/
theorem loadThreads_refines (probeMap : Probe → Probe) (threads : List Thread) :
    Refines (Outline.empty.loadThreads probeMap threads) (Loader.new.loadThreads probeMap threads) :=
  Refines.new.loadThreads probeMap threads

end Xpedite.Txn
