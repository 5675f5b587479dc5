import Xpedite.Txn.Conservation

/-!
Identity of the transactions after the collection.  Each suspend counter of a begun
transaction adds a root fragment with the same transaction object, so a begun
transaction that suspends twice is joined and inserted twice.
-/

namespace Xpedite.Txn

open Xpedite.Lib

section Insertion

theorem insertTxn_txnId (loader : Loader) (txn ref : Nat) :
    ((loader.insertTxn txn).heap.cell ref).txnId = (loader.heap.cell ref).txnId := by
  rcases insertTxn_cases loader txn with ⟨entry, _, _, inserted⟩ | ⟨_, inserted⟩
  · rw [inserted]
    by_cases same : ref = entry.2
    · subst same
      simp [Transaction.join]
    · simp [Arena.cell_modify_of_ne _ _ same]
  · rw [inserted]

theorem insertTxn_keys (loader : Loader) (txn : Nat) :
    loader.txns ⊆ (loader.insertTxn txn).txns ∧
      (loader.heap.cell txn).txnId ∈ (loader.insertTxn txn).txns.map Prod.fst ∧
      loader.joinedTxns ≤ (loader.insertTxn txn).joinedTxns ∧
      ((loader.heap.cell txn).txnId ∈ loader.txns.map Prod.fst →
        loader.joinedTxns < (loader.insertTxn txn).joinedTxns) := by
  rcases insertTxn_cases loader txn with ⟨entry, member, sameId, inserted⟩ | ⟨absent, inserted⟩
  · rw [inserted]
    refine ⟨List.Subset.refl _, List.mem_map.mpr ⟨entry, member, sameId⟩, ?_, ?_⟩
    · exact Nat.le_succ _
    · exact fun _ => Nat.lt_succ_self _
  · rw [inserted]
    refine ⟨fun entry member => List.mem_append_left _ member, by simp, Nat.le_refl _, ?_⟩
    intro isKey
    obtain ⟨entry, member, sameId⟩ := List.mem_map.mp isKey
    exact absurd sameId (absent entry member)

theorem foldl_insertTxn_mono (loader : Loader) (txns : List Nat) :
    loader.joinedTxns ≤ (txns.foldl Loader.insertTxn loader).joinedTxns := by
  induction txns generalizing loader with
  | nil => exact Nat.le_refl _
  | cons txn rest ih => exact (insertTxn_keys loader txn).2.2.1.trans (ih _)

theorem foldl_insertTxn_taken (loader : Loader) {txn : Nat} {txns : List Nat} (member : txn ∈ txns)
    (taken : (loader.heap.cell txn).txnId ∈ loader.txns.map Prod.fst) :
    loader.joinedTxns < (txns.foldl Loader.insertTxn loader).joinedTxns := by
  induction txns generalizing loader with
  | nil => simp at member
  | cons first rest ih =>
      obtain ⟨stays, _, mono, joins⟩ := insertTxn_keys loader first
      rcases List.mem_cons.mp member with rfl | inRest
      · exact Nat.lt_of_lt_of_le (joins taken) (foldl_insertTxn_mono _ rest)
      · refine Nat.lt_of_le_of_lt mono (ih _ inRest ?_)
        rw [insertTxn_txnId]
        obtain ⟨entry, isEntry, sameId⟩ := List.mem_map.mp taken
        exact List.mem_map.mpr ⟨entry, stays isEntry, sameId⟩

theorem foldl_insertTxn_duplicate (loader : Loader) {txns : List Nat} (duplicate : ¬txns.Nodup) :
    loader.joinedTxns < (txns.foldl Loader.insertTxn loader).joinedTxns := by
  induction txns generalizing loader with
  | nil => simp at duplicate
  | cons txn rest ih =>
      obtain ⟨_, isKey, mono, _⟩ := insertTxn_keys loader txn
      by_cases again : txn ∈ rest
      · refine Nat.lt_of_le_of_lt mono (foldl_insertTxn_taken _ again ?_)
        rwa [insertTxn_txnId]
      · refine Nat.lt_of_le_of_lt mono (ih _ fun distinct => duplicate ?_)
        exact List.nodup_cons.mpr ⟨again, distinct⟩

theorem foldl_insertTxn_numbered (loader : Loader) (stored new : List Nat)
    (keys : loader.txns = numbered stored)
    (txnIds : new.map (fun txn => (loader.heap.cell txn).txnId) =
      (List.range' (stored.length + 1) new.length).map TxnId.int) :
    new.foldl Loader.insertTxn loader = { loader with txns := numbered (stored ++ new) } := by
  induction new generalizing loader stored with
  | nil => rw [List.foldl_nil, List.append_nil, ← keys]
  | cons txn rest ih =>
      simp only [List.map_cons, List.length_cons, List.range'_succ, List.cons.injEq] at txnIds
      have inserted : loader.insertTxn txn =
          { loader with txns := numbered (stored ++ [txn]) } := by
        simp only [Loader.insertTxn, txnIds.1, keys, numbered_find_next, numbered_append]
      rw [List.foldl_cons, inserted, ih _ (stored ++ [txn]) rfl (by simpa using txnIds.2)]
      simp

end Insertion

theorem refs_nodup (fate : Fate) (closed : List (Segment × Fate)) : (refs fate closed).Nodup := by
  induction closed using List.reverseRecOn with
  | nil => simp [refs]
  | append_singleton closed entry ih =>
      obtain ⟨segment, fate'⟩ := entry
      rw [refs_append, List.nodup_append]
      refine ⟨ih, by split <;> simp, ?_⟩
      rintro ref isRef other isLast rfl
      obtain ⟨_, found⟩ := mem_refs.mp isRef
      have bound := (List.getElem?_eq_some_iff.mp found).1
      split at isLast
      · rw [List.mem_singleton] at isLast
        omega
      · simp at isLast

theorem roots_nodup_iff (segments : List Segment) :
    ((fragmentsOf segments).rootFragments.map (fragmentsOf segments).txnOf).Nodup ↔
      ∀ segment ∈ segments, segment.origin = .begun → segment.suspendIds.length ≤ 1 := by
  rw [map_txnOf_roots]
  induction segments using List.reverseRecOn with
  | nil => simp [piecesOf]
  | append_singleton segments segment ih =>
      have own : ((segment.pieces segments.length).filter fun piece => piece.resumeId = none).map
          Piece.txn =
            if segment.origin = .begun then
              List.replicate segment.suspendIds.length segments.length
            else [] := by
        cases origin : segment.origin with
        | begun => simp [Segment.pieces, origin, List.filter_map, Function.comp_def, List.map_const']
        | resumed linkId => simp [Segment.pieces, origin]
        | headless => simp [Segment.pieces, origin]
      have earlier : ∀ txn ∈ ((piecesOf segments).filter fun piece => piece.resumeId = none).map
          Piece.txn, txn < segments.length := by
        intro txn member
        obtain ⟨piece, isPiece, rfl⟩ := List.mem_map.mp member
        obtain ⟨index, other, found, inPieces⟩ := mem_piecesOf.mp (List.mem_filter.mp isPiece).1
        rw [pieces_txn inPieces]
        exact (List.getElem?_eq_some_iff.mp found).1
      rw [piecesOf_append, List.filter_append, List.map_append, List.nodup_append, ih, own]
      simp only [List.forall_mem_append, List.forall_mem_singleton]
      refine and_congr_right fun _ => ?_
      by_cases begun : segment.origin = .begun
      · simp only [begun, ↓reduceIte, forall_const, List.nodup_replicate]
        refine and_iff_left ?_
        intro txn isEarlier other isOwn
        have bound := earlier txn isEarlier
        have same := List.eq_of_mem_replicate isOwn
        omega
      · simp [begun]

theorem leaf_nodup {fragments : TxnFragments} (own : Nat → List Counter) {root fuel : Nat}
    {counters : List Counter}
    (finite : Acc (fun child parent => child ∈ fragments.children parent) root)
    (nodup : ∀ parent, ∀ ref ∈ fragments.children parent, (own (fragments.txnOf ref)).Nodup)
    (apart : ∀ parent, ∀ ref ∈ fragments.children parent, ∀ parent',
      ∀ other ∈ fragments.children parent', ref ≠ other →
        (own (fragments.txnOf ref)).Disjoint (own (fragments.txnOf other)))
    (rootNodup : (own (fragments.txnOf root)).Nodup)
    (rootApart : ∀ parent, ∀ ref ∈ fragments.children parent,
      (own (fragments.txnOf root)).Disjoint (own (fragments.txnOf ref)))
    (member : counters ∈ leaves fragments.children (merge fragments own) fuel
      (own (fragments.txnOf root)) (fragments.children root)) : counters.Nodup := by
  -- the counters so far are distinct, and apart from those of every fragment still to come
  refine (leaves_induction
    (motive := fun value nodes => value.Nodup ∧ (nodes = [] ∨ ∃ parent,
      nodes = fragments.children parent ∧
      Acc (fun child parent => child ∈ fragments.children parent) parent ∧
      ∀ ref, Below fragments.children nodes ref → value.Disjoint (own (fragments.txnOf ref))))
    ?_ ?_ member).1
  · rintro value nodes node ⟨valueNodup, empty | ⟨parent, isChildren, parentFinite, disjoint⟩⟩ isNode
    · simp [empty] at isNode
    · have isChild : node ∈ fragments.children parent := isChildren ▸ isNode
      have nodeFinite := parentFinite.inv isChild
      constructor
      · rw [merge, (sortByTsc_perm _).nodup_iff]
        exact valueNodup.append (nodup parent node isChild) (disjoint node (.of_mem isNode))
      · refine .inr ⟨node, rfl, nodeFinite, fun ref isBelow => ?_⟩
        obtain ⟨above, isRef⟩ := isBelow.exists_parent
        have different : node ≠ ref := by
          rintro rfl
          exact not_below_self nodeFinite isBelow
        intro counter inMerge inRef
        rcases (mem_merge value node counter).mp inMerge with inValue | inNode
        · exact disjoint ref (.of_child isNode isBelow) inValue inRef
        · exact apart parent node isChild above ref isRef different inNode inRef
  · refine ⟨rootNodup, .inr ⟨root, rfl, finite, fun ref isBelow => ?_⟩⟩
    obtain ⟨above, isRef⟩ := isBelow.exists_parent
    exact rootApart above ref isRef

section Cells

variable {probeMap : Probe → Probe} {outline : Outline} {loader : Loader}
variable (refines : Refines outline loader) (idle : outline.current = none)
variable (distinct : outline.held.Nodup)

include refines idle distinct

theorem cells_nodup {txn : Nat} {segment : Segment} (found : outline.segments[txn]? = some segment) :
    (loader.heap.cell txn).counters.Nodup := by
  rw [Refines.segments_idle idle, List.getElem?_map, Option.map_eq_some_iff] at found
  obtain ⟨entry, isClosed, rfl⟩ := found
  rw [(refines.closed_entry isClosed).1]
  simp only [Outline.held, List.append_assoc, List.nodup_append, List.nodup_flatMap] at distinct
  exact distinct.1.1 entry (List.mem_of_getElem? isClosed)

theorem cells_disjoint {txn other : Nat} {segment segment' : Segment}
    (found : outline.segments[txn]? = some segment)
    (found' : outline.segments[other]? = some segment') (different : txn ≠ other) :
    (loader.heap.cell txn).counters.Disjoint (loader.heap.cell other).counters := by
  rw [Refines.segments_idle idle, List.getElem?_map, Option.map_eq_some_iff] at found found'
  obtain ⟨entry, isClosed, rfl⟩ := found
  obtain ⟨entry', isClosed', rfl⟩ := found'
  intro counter inFirst inSecond
  rw [(refines.closed_entry isClosed).1] at inFirst
  rw [(refines.closed_entry isClosed').1] at inSecond
  exact different (Outline.closed_unique distinct isClosed isClosed' inFirst inSecond)

theorem joined_nodup {root fuel : Nat} (isRoot : root ∈ loader.fragments.rootFragments)
    (finite : Acc (fun child parent => child ∈ loader.fragments.children parent) root)
    {counters : List Counter}
    (member : counters ∈ leaves loader.fragments.children
      (merge loader.fragments fun ref => (loader.heap.cell ref).counters) fuel
      (loader.heap.cell (loader.fragments.txnOf root)).counters (loader.fragments.children root)) :
    counters.Nodup := by
  have childSegment {parent ref : Nat} (isChild : ref ∈ loader.fragments.children parent) :=
    resumed_children refines parent ref isChild
  have rootSegment : IsSuspended outline.segments (loader.fragments.txnOf root) := by
    rw [refines.fragments] at isRoot ⊢
    exact isSuspended_root isRoot
  obtain ⟨begunSegment, foundRoot, begun, _⟩ := rootSegment
  refine leaf_nodup (fun ref => (loader.heap.cell ref).counters) finite ?_ ?_ ?_ ?_ member
  · intro parent ref isChild
    obtain ⟨segment, _, found, _⟩ := childSegment isChild
    exact cells_nodup refines idle distinct found
  · intro parent ref isChild parent' other isChild' different
    obtain ⟨segment, _, found, _⟩ := childSegment isChild
    obtain ⟨segment', _, found', _⟩ := childSegment isChild'
    refine cells_disjoint refines idle distinct found found' fun sameTxn => different ?_
    rw [refines.fragments] at isChild isChild' sameTxn
    obtain ⟨piece, linkId, isPiece, resumes⟩ := (fragmentsOf_shape _).mem_children isChild
    obtain ⟨piece', linkId', isPiece', resumes'⟩ := (fragmentsOf_shape _).mem_children isChild'
    rw [txnOf_piece isPiece, txnOf_piece isPiece'] at sameTxn
    exact resumed_fragment_unique isPiece isPiece' sameTxn (by simp [resumes]) (by simp [resumes'])
  · exact cells_nodup refines idle distinct foundRoot
  · intro parent ref isChild
    obtain ⟨segment, linkId, found, resumed⟩ := childSegment isChild
    refine cells_disjoint refines idle distinct foundRoot found fun sameTxn => ?_
    rw [sameTxn, found, Option.some.injEq] at foundRoot
    rw [← foundRoot, resumed] at begun
    cases begun

end Cells

/-- The collection returns, the keys are `1..n` in order, no transaction repeats a counter, no
two entries are the same object, and nothing was joined into an existing transaction. -/
def NeverDoubled (probeMap : Probe → Probe) (threads : List Thread) : Prop :=
  ∃ fuel loader, (Loader.new.loadThreads probeMap threads).endCollection fuel = some loader ∧
    loader.txns.map Prod.fst = (List.range' 1 loader.txns.length).map TxnId.int ∧
    (∀ entry ∈ loader.txns, (loader.heap.cell entry.2).counters.Nodup) ∧
    (loader.txns.map Prod.snd).Nodup ∧ loader.joinedTxns = 0

section Collection

variable {probeMap : Probe → Probe} {outline : Outline} {loader loader' : Loader} {fuel : Nat}
variable (refines : Refines outline loader)
variable (called : loader.endCollection fuel = some loader')

include refines called

theorem joined_of_shared_root
    (shared : ¬(loader.fragments.rootFragments.map loader.fragments.txnOf).Nodup) :
    0 < loader'.joinedTxns := by
  simp only [Loader.endCollection] at called
  split at called
  · cases called
  · rename_i joined done
    rw [Option.some.injEq] at called
    obtain ⟨new, gathers⟩ := joinRoots_gathers (resumed_children refines) (fun _ => True)
      done (fun root member => joinInput_root refines member) (by simp) (by simp)
    have duplicate : ¬joined.txns.Nodup := by
      have txns : joined.txns = new := gathers.txns
      rw [txns]
      exact fun nodup => shared (nodup.sublist gathers.sublist)
    have grown := foldl_insertTxn_duplicate { loader with heap := joined.heap } duplicate
    rw [called] at grown
    simp only [refines.joined] at grown
    exact grown

theorem endCollection_numbered (sound : outline.Sound probeMap)
    (rootsNodup : (loader.fragments.rootFragments.map loader.fragments.txnOf).Nodup) :
    ∃ new, loader'.txns = numbered (refs .intact outline.closed ++ new) ∧
      loader'.joinedTxns = 0 ∧
      (∀ ref ∈ refs .intact outline.closed, loader'.heap.cell ref = loader.heap.cell ref) ∧
      (refs .intact outline.closed ++ new).Nodup ∧
      new.map (fun txn => (loader'.heap.cell txn).counters) =
        loader.fragments.rootFragments.flatMap fun root => leaves loader.fragments.children
          (merge loader.fragments fun ref => (loader.heap.cell ref).counters) fuel
          (loader.heap.cell (loader.fragments.txnOf root)).counters
          (loader.fragments.children root) := by
  simp only [Loader.endCollection] at called
  split at called
  · cases called
  · rename_i joined done
    rw [Option.some.injEq] at called
    obtain ⟨new, run⟩ := joinRoots_spec (resumed_children refines) done
      (fun root member => joinInput_root refines member) (fun _ _ => rfl) rootsNodup
    have txns : joined.txns = new := run.txns
    have inserted := foldl_insertTxn_numbered { loader with heap := joined.heap }
      (refs .intact outline.closed) new refines.txns (by rw [← refines.nextTxnId]; exact run.txnIds)
    rw [txns, inserted] at called
    subst called
    have intactOutside {ref : Nat} (intact : ref ∈ refs .intact outline.closed) :
        ref < loader.heap.size ∧
          ref ∉ loader.fragments.rootFragments.map loader.fragments.txnOf := by
      obtain ⟨segment, found⟩ := mem_refs.mp intact
      constructor
      · rw [refines.size]
        exact (List.getElem?_eq_some_iff.mp (outline.segments_closed found)).1
      · intro inRoots
        obtain ⟨root, isRoot, rfl⟩ := List.mem_map.mp inRoots
        rw [refines.fragments] at isRoot intact
        exact not_intact_of_suspended sound (isSuspended_root isRoot) intact
    refine ⟨new, rfl, refines.joined, ?_, ?_, run.counters⟩
    · intro ref intact
      exact run.frame ref (intactOutside intact).1 (intactOutside intact).2
    · refine List.nodup_append.mpr ⟨refs_nodup _ _, run.nodup, ?_⟩
      rintro ref intact other isNew rfl
      obtain ⟨old, outside⟩ := intactOutside intact
      rcases (run.members ref isNew).1 with inRoots | fresh
      · exact outside inRoots
      · have bound : loader.heap.size ≤ ref := fresh
        omega

end Collection

section Suspends

def BegunSuspends (roles : List Role) (count : Nat) : Prop :=
  ∃ before since, roles = before ++ since ∧ OpensBegun before ∧
    (∀ role ∈ since, role = .plain ∨ role.bounds) ∧ since.count .suspends = count

def SuspendsTwice (roles : List Role) : Prop :=
  ∃ before since after, roles = before ++ since ++ after ∧ OpensBegun before ∧
    (∀ role ∈ since, role = .plain ∨ role.bounds) ∧ 2 ≤ since.count .suspends

theorem begunSuspends_snoc (roles : List Role) (role : Role) (count : Nat) :
    BegunSuspends (roles ++ [role]) count ↔
      (OpensBegun (roles ++ [role]) ∧ count = 0) ∨
      ((role = .plain ∨ role.bounds) ∧ ∃ earlier, BegunSuspends roles earlier ∧
        count = earlier + if role = .suspends then 1 else 0) := by
  constructor
  · rintro ⟨before, since, split, opens, inside, rfl⟩
    rcases List.eq_nil_or_concat since with rfl | ⟨earlier, final, rfl⟩
    · left
      rw [List.append_nil] at split
      exact ⟨split ▸ opens, rfl⟩
    · right
      rw [List.concat_eq_append, ← List.append_assoc, List.append_singleton_inj] at split
      obtain ⟨start, rfl⟩ := split
      refine ⟨inside role (by simp), earlier.count .suspends,
        ⟨before, earlier, start, opens, fun other member => inside other (by simp [member]), rfl⟩, ?_⟩
      rw [List.concat_eq_append, List.count_append, List.count_singleton]
      simp only [beq_iff_eq]
  · rintro (⟨opens, rfl⟩ | ⟨inside, _, ⟨before, since, rfl, opens, all, rfl⟩, rfl⟩)
    · exact ⟨roles ++ [role], [], by simp, opens, by simp, rfl⟩
    · refine ⟨before, since ++ [role], by simp, opens, ?_, ?_⟩
      · exact List.forall_mem_append.mpr ⟨all, List.forall_mem_singleton.mpr inside⟩
      · rw [List.count_append, List.count_singleton]
        simp only [beq_iff_eq]

theorem suspendsTwice_snoc (roles : List Role) (role : Role) :
    SuspendsTwice (roles ++ [role]) ↔
      SuspendsTwice roles ∨ ∃ count, 2 ≤ count ∧ BegunSuspends (roles ++ [role]) count := by
  constructor
  · rintro ⟨before, since, after, split, opens, inside, twice⟩
    rcases List.eq_nil_or_concat after with rfl | ⟨earlier, final, rfl⟩
    · rw [List.append_nil] at split
      exact .inr ⟨_, twice, before, since, split, opens, inside, rfl⟩
    · rw [List.concat_eq_append, ← List.append_assoc, List.append_singleton_inj] at split
      exact .inl ⟨before, since, earlier, split.1, opens, inside, twice⟩
  · rintro (⟨before, since, after, rfl, opens, inside, twice⟩ |
      ⟨count, twice, before, since, split, opens, inside, rfl⟩)
    · exact ⟨before, since, after ++ [role], by simp, opens, inside, twice⟩
    · exact ⟨before, since, [], by simpa using split, opens, inside, twice⟩

namespace Outline

variable {probeMap : Probe → Probe}

def OpenSuspends (outline : Outline) (count : Nat) : Prop :=
  ∃ segment, outline.current = some segment ∧ segment.origin = .begun ∧
    count = segment.suspendIds.length

theorem openSuspends_loadCounter {outline : Outline} (sound : outline.Sound probeMap)
    (tlsAddr : Str) (role : Role) (counter : Counter) (count : Nat) :
    (outline.loadCounter tlsAddr role counter).OpenSuspends count ↔
      ((outline.loadCounter tlsAddr role counter).OpenBegun ∧ count = 0) ∨
      ((role = .plain ∨ role.bounds) ∧ ∃ earlier, outline.OpenSuspends earlier ∧
        count = earlier + if role = .suspends then 1 else 0) := by
  cases isOpen : outline.current with
  | none =>
      cases role <;> simp [loadCounter, isOpen, OpenSuspends, OpenBegun, openSegment, close,
        Segment.start, Role.bounds]
  | some segment =>
      have unlinked := (sound.current segment isOpen).1.unlinked
      cases bounded : segment.bounded with
      | true =>
          cases role <;> simp [loadCounter, isOpen, OpenSuspends, OpenBegun, openSegment,
            Segment.start, Segment.bound, Segment.suspendAt, Role.bounds, bounded]
      | false =>
          have empty := unlinked bounded
          cases role <;> simp [loadCounter, isOpen, OpenSuspends, OpenBegun, openSegment,
            Segment.start, Segment.add, Segment.bound, Segment.suspendAt, Role.bounds, bounded,
            empty]

theorem openSuspends_iff (loose : List Counter) (tlsAddr : Str) (counters : List Counter)
    (count : Nat) :
    ((fresh loose).loadCounters probeMap tlsAddr counters).OpenSuspends count ↔
      BegunSuspends (counters.map (roleOf probeMap)) count := by
  induction counters using List.reverseRecOn generalizing count with
  | nil =>
      have notOpen : ¬OpensBegun [] := by
        rintro ⟨since, ⟨before, split, _⟩, begins⟩
        simp only [List.nil_eq, List.append_eq_nil_iff] at split
        simp [split.2] at begins
      simp [loadCounters, fresh, OpenSuspends, BegunSuspends, notOpen]
  | append_singleton counters counter ih =>
      have sound := (Sound.fresh probeMap loose).loadCounters tlsAddr counters
      rw [List.map_append, List.map_singleton, begunSuspends_snoc, loadCounters_snoc,
        openSuspends_loadCounter sound, ← loadCounters_snoc, (open_iff probeMap loose tlsAddr _).1]
      simp only [ih, List.map_append, List.map_singleton]

def Doubled (outline : Outline) : Prop :=
  (∃ entry ∈ outline.closed, entry.1.origin = .begun ∧ 2 ≤ entry.1.suspendIds.length) ∨
    ∃ count, 2 ≤ count ∧ outline.OpenSuspends count

theorem openSuspends_of_some {outline : Outline} {segment : Segment}
    (isOpen : outline.current = some segment) :
    (∃ count, 2 ≤ count ∧ outline.OpenSuspends count) ↔
      segment.origin = .begun ∧ 2 ≤ segment.suspendIds.length := by
  constructor
  · rintro ⟨count, twice, other, found, begun, rfl⟩
    rw [isOpen, Option.some.injEq] at found
    subst found
    exact ⟨begun, twice⟩
  · rintro ⟨begun, twice⟩
    exact ⟨_, twice, segment, isOpen, begun, rfl⟩

theorem openSuspends_of_none {outline : Outline} (idle : outline.current = none) :
    ¬∃ count, 2 ≤ count ∧ outline.OpenSuspends count := by
  rintro ⟨count, _, segment, found, _⟩
  rw [idle] at found
  cases found

theorem doubled_close (outline : Outline) {segment : Segment} (isOpen : outline.current = some segment)
    (fate : Fate) : (outline.close segment fate).Doubled ↔ outline.Doubled := by
  have closed : (outline.close segment fate).current = none := rfl
  simp only [Doubled, openSuspends_of_some isOpen, openSuspends_of_none closed, or_false]
  simp only [close, List.mem_append, List.mem_singleton, or_and_right, exists_or, exists_eq_left]

theorem doubled_continue {outline : Outline} {segment : Segment} (next : Outline)
    (changed : Segment) (isOpen : outline.current = some segment) (sameClosed : next.closed = outline.closed)
    (isNext : next.current = some changed) (sameOrigin : changed.origin = segment.origin)
    (suspends : segment.suspendIds.length ≤ changed.suspendIds.length) :
    next.Doubled ↔ outline.Doubled ∨ ∃ count, 2 ≤ count ∧ next.OpenSuspends count := by
  simp only [Doubled, openSuspends_of_some isOpen, openSuspends_of_some isNext, sameClosed,
    sameOrigin]
  constructor
  · rintro (closed | again)
    · exact .inl (.inl closed)
    · exact .inr again
  · rintro ((closed | ⟨begun, twice⟩) | again)
    · exact .inl closed
    · exact .inr ⟨begun, by omega⟩
    · exact .inr again

theorem doubled_loadCounter (outline : Outline) (tlsAddr : Str) (role : Role) (counter : Counter) :
    (outline.loadCounter tlsAddr role counter).Doubled ↔
      outline.Doubled ∨
        ∃ count, 2 ≤ count ∧ (outline.loadCounter tlsAddr role counter).OpenSuspends count := by
  cases isOpen : outline.current with
  | none =>
      simp only [Doubled, openSuspends_of_none isOpen, or_false]
      refine or_congr_left ?_
      cases role <;> simp [loadCounter, isOpen, openSegment, close, or_and_right, exists_or]
  | some segment =>
      have goesOn (next : Outline) (changed : Segment) := doubled_continue next changed isOpen
      have closing : ∀ opened : Segment,
          ((outline.close segment segment.fate).openSegment opened).Doubled ↔ outline.Doubled ∨
            ∃ count, 2 ≤ count ∧
              ((outline.close segment segment.fate).openSegment opened).OpenSuspends count := by
        intro opened
        rw [Doubled, Doubled, openSuspends_of_some isOpen]
        refine or_congr_left ?_
        simp only [openSegment, close, List.mem_append, List.mem_singleton, or_and_right, exists_or,
          exists_eq_left]
      cases role with
      | resumes => simpa [loadCounter, isOpen] using closing _
      | begins =>
          cases bounded : segment.bounded with
          | true => simpa [loadCounter, isOpen, bounded] using closing _
          | false =>
              exact goesOn _ (segment.add counter) (by simp [loadCounter, isOpen, bounded])
                (by simp [loadCounter, isOpen, bounded]) rfl (Nat.le_refl _)
      | suspends =>
          exact goesOn _ ((segment.bound outline.loose counter).suspendAt
            (Loader.linkId counter.tsc tlsAddr)) (by simp [loadCounter, isOpen])
            (by simp [loadCounter, isOpen]) rfl (by simp [Segment.suspendAt, Segment.bound])
      | ends =>
          exact goesOn _ (segment.bound outline.loose counter) (by simp [loadCounter, isOpen])
            (by simp [loadCounter, isOpen]) rfl (Nat.le_refl _)
      | plain =>
          cases bounded : segment.bounded with
          | true =>
              exact goesOn _ segment (by simp [loadCounter, isOpen, bounded])
                (by simp [loadCounter, isOpen, bounded]) rfl (Nat.le_refl _)
          | false =>
              exact goesOn _ (segment.add counter) (by simp [loadCounter, isOpen, bounded])
                (by simp [loadCounter, isOpen, bounded]) rfl (Nat.le_refl _)

theorem doubled_endLoad (outline : Outline) : outline.endLoad.Doubled ↔ outline.Doubled := by
  simp only [endLoad]
  split
  · rename_i segment isOpen
    exact doubled_close outline isOpen _
  · exact Iff.rfl

variable (probeMap) in
theorem doubled_loadCounters (loose : List Counter) (tlsAddr : Str) (counters : List Counter) :
    ((fresh loose).loadCounters probeMap tlsAddr counters).Doubled ↔
      SuspendsTwice (counters.map (roleOf probeMap)) := by
  induction counters using List.reverseRecOn with
  | nil =>
      have notTwice : ¬SuspendsTwice [] := by
        rintro ⟨before, since, after, split, _, _, twice⟩
        simp only [List.nil_eq, List.append_eq_nil_iff] at split
        simp [split.1.2] at twice
      simp [loadCounters, fresh, Doubled, OpenSuspends, notTwice]
  | append_singleton counters counter ih =>
      rw [List.map_append, List.map_singleton, suspendsTwice_snoc, loadCounters_snoc,
        doubled_loadCounter, ih, ← loadCounters_snoc]
      simp only [openSuspends_iff, List.map_append, List.map_singleton]

variable (probeMap) in
theorem doubled_loadThreads (outline : Outline) (idle : outline.current = none)
    (threads : List Thread) :
    (outline.loadThreads probeMap threads).Doubled ↔ outline.Doubled ∨
      ∃ thread ∈ threads, SuspendsTwice (thread.counters.map (roleOf probeMap)) := by
  induction threads generalizing outline with
  | nil => simp [loadThreads]
  | cons thread rest ih =>
      have added : (outline.loadThread probeMap thread).Doubled ↔ outline.Doubled ∨
          SuspendsTwice (thread.counters.map (roleOf probeMap)) := by
        have own := doubled_loadCounters probeMap outline.loose thread.tlsAddr
          thread.counters
        rw [← doubled_endLoad] at own
        have ownIdle := loadThread_idle probeMap (fresh outline.loose) thread
        rw [← own, loadThread_fresh probeMap outline idle]
        simp only [Doubled, openSuspends_of_none idle, or_false]
        rw [loadThread] at ownIdle ⊢
        have afterIdle : (after outline.closed outline.stray ((fresh outline.loose).loadCounters
            probeMap thread.tlsAddr thread.counters).endLoad).current = none := ownIdle
        simp only [openSuspends_of_none ownIdle, openSuspends_of_none afterIdle, or_false]
        simp only [after, List.mem_append, or_and_right, exists_or]
      have tail := ih _ (loadThread_idle probeMap outline thread)
      simp only [loadThreads, List.foldl_cons, List.exists_mem_cons_iff] at tail ⊢
      rw [tail, added, or_assoc]

end Outline

end Suspends

section Threads

variable (probeMap : Probe → Probe) (threads : List Thread)

theorem roots_nodup_loadThreads :
    ((Loader.new.loadThreads probeMap threads).fragments.rootFragments.map
      (Loader.new.loadThreads probeMap threads).fragments.txnOf).Nodup ↔
      ∀ thread ∈ threads, ¬SuspendsTwice (thread.counters.map (roleOf probeMap)) := by
  have refines := loadThreads_refines probeMap threads
  have idle := Outline.loadThreads_idle probeMap .empty rfl threads
  have doubled := Outline.doubled_loadThreads probeMap .empty rfl threads
  have fresh : ¬Outline.empty.Doubled := by
    simp [Outline.Doubled, Outline.empty, Outline.OpenSuspends]
  rw [or_iff_right fresh] at doubled
  simp only [Outline.Doubled, Outline.openSuspends_of_none idle, or_false] at doubled
  rw [refines.fragments, roots_nodup_iff, Refines.segments_idle idle]
  constructor
  · intro once thread isThread twice
    obtain ⟨entry, closed, begun, atLeast⟩ := doubled.mpr ⟨thread, isThread, twice⟩
    have atMost := once entry.1 (List.mem_map.mpr ⟨entry, closed, rfl⟩) begun
    omega
  · intro never segment member begun
    obtain ⟨entry, closed, rfl⟩ := List.mem_map.mp member
    by_contra many
    obtain ⟨thread, isThread, twice⟩ := doubled.mp ⟨entry, closed, begun, by omega⟩
    exact never thread isThread twice

/-- With distinct counters and finite links, the join never doubles anything exactly when no
begun transaction suspends more than once. -/
theorem neverDoubled_iff (distinct : (threads.flatMap Thread.counters).Nodup)
    (finite : (Loader.new.loadThreads probeMap threads).fragments.LinksFinite) :
    NeverDoubled probeMap threads ↔
      ∀ thread ∈ threads, ¬SuspendsTwice (thread.counters.map (roleOf probeMap)) := by
  have refines := loadThreads_refines probeMap threads
  have idle := Outline.loadThreads_idle probeMap .empty rfl threads
  have sound := (Outline.Sound.fresh probeMap []).loadThreads threads
  have heldDistinct := (held_loadThreads probeMap threads).nodup_iff.mpr distinct
  rw [← roots_nodup_loadThreads]
  constructor
  · rintro ⟨fuel, loader, called, _, _, _, neverJoined⟩
    by_contra shared
    have joined := joined_of_shared_root refines called shared
    omega
  · intro rootsNodup
    obtain ⟨fuel, loader, called⟩ := (exists_endCollection_iff _).mpr finite
    obtain ⟨new, txns, neverJoined, sameIntact, nodup, counters⟩ :=
      endCollection_numbered refines called sound rootsNodup
    have objects : loader.txns.map Prod.snd =
        refs .intact (Outline.empty.loadThreads probeMap threads).closed ++ new := by
      rw [txns, numbered_snd]
    refine ⟨fuel, loader, called, ?_, ?_, ?_, neverJoined⟩
    · rw [← List.length_map (f := Prod.snd), objects, txns, numbered_keys]
    · intro entry member
      have stored : entry.2 ∈ loader.txns.map Prod.snd := List.mem_map.mpr ⟨entry, member, rfl⟩
      rw [objects] at stored
      rcases List.mem_append.mp stored with intact | isNew
      · obtain ⟨segment, found⟩ := mem_refs.mp intact
        rw [sameIntact entry.2 intact]
        exact cells_nodup refines idle heldDistinct (Outline.segments_closed _ found)
      · have isLeaf : (loader.heap.cell entry.2).counters ∈
            new.map fun txn => (loader.heap.cell txn).counters :=
          List.mem_map.mpr ⟨entry.2, isNew, rfl⟩
        rw [counters, List.mem_flatMap] at isLeaf
        obtain ⟨root, isRoot, inLeaves⟩ := isLeaf
        exact joined_nodup refines idle heldDistinct isRoot (finite root isRoot) inLeaves
    · rw [objects]
      exact nodup

end Threads

theorem not_suspendsTwice_of_count {roles : List Role} (once : roles.count .suspends ≤ 1) :
    ¬SuspendsTwice roles := by
  rintro ⟨before, since, after, rfl, _, _, twice⟩
  rw [List.count_append, List.count_append] at once
  omega

/-- A transaction that suspends once and is resumed in another thread. -/
theorem neverDoubled_suspend_resume :
    NeverDoubled id [⟨List.replicate 16 '1', [⟨0, .txnBeginProbe, [], 1⟩, ⟨1, .txnSuspendProbe, [], 2⟩]⟩,
      ⟨List.replicate 16 '2', [⟨2, .txnResumeProbe, '2' :: List.replicate 16 '1', 3⟩,
        ⟨3, .txnEndProbe, [], 4⟩]⟩] := by
  refine (neverDoubled_iff id _ (by decide) ((exists_endCollection_iff _).mp ⟨3, _, rfl⟩)).mpr ?_
  intro thread isThread
  apply not_suspendsTwice_of_count
  revert thread
  decide

/-- A begun transaction with two suspend counters is joined into itself. -/
theorem not_neverDoubled_suspend_suspend :
    ([(⟨List.replicate 16 '1', [⟨0, .txnBeginProbe, [], 1⟩, ⟨1, .txnSuspendProbe, [], 2⟩,
      ⟨2, .txnSuspendProbe, [], 3⟩]⟩ : Thread)].flatMap Thread.counters).Nodup ∧
    (Loader.new.loadThreads id [⟨List.replicate 16 '1', [⟨0, .txnBeginProbe, [], 1⟩,
      ⟨1, .txnSuspendProbe, [], 2⟩, ⟨2, .txnSuspendProbe, [], 3⟩]⟩]).fragments.LinksFinite ∧
    ¬NeverDoubled id [⟨List.replicate 16 '1', [⟨0, .txnBeginProbe, [], 1⟩,
      ⟨1, .txnSuspendProbe, [], 2⟩, ⟨2, .txnSuspendProbe, [], 3⟩]⟩] := by
  refine ⟨by decide, (exists_endCollection_iff _).mp ⟨2, _, rfl⟩, ?_⟩
  rintro ⟨fuel, loader, called, _, _, _, neverJoined⟩
  have joined := joined_of_shared_root (loadThreads_refines id _) called (by decide)
  omega

end Xpedite.Txn
