import Xpedite.Txn.Collection
import Xpedite.Txn.Following
import Xpedite.Txn.Links

/-!
The fragment store follows the counters: after any threads each fragment goes by a counter
of its own, the links between fragments are those between their counters, and the join
comes by the fragments of the resumed transactions that are reached.
-/

namespace Xpedite.Txn

open Xpedite.Lib

variable {probeMap : Probe → Probe}

/-- The links of the fragment store after these counters; `names` has for each fragment the
counter it goes by. -/
structure Linked (probeMap : Probe → Probe) (load : List Place) (names : List Counter)
    (fragments : TxnFragments) : Prop where
  size : fragments.fragment.size = names.length
  distinct : names.Nodup
  suspended : ∀ place ∈ load, ∀ node linkId, place.Suspends probeMap node linkId → node ∈ names
  resumed : ∀ first, Resumed probeMap load first → first ∈ names
  suspending : ∀ linkId ref, fragments.suspending linkId = some ref ↔
    ∃ node, names[ref]? = some node ∧ LastSuspends probeMap load node linkId
  resuming : ∀ linkId ref, ref ∈ fragments.resuming linkId ↔
    ∃ node, names[ref]? = some node ∧ Resumed probeMap load node ∧ node.data = linkId
  next : ∀ (ref : Nat) node, names[ref]? = some node → ∀ linkId,
    (fragments.fragment.cell ref).next = some linkId ↔ LeadsTo probeMap load node linkId

namespace Linked

variable {load : List Place} {names : List Counter} {fragments : TxnFragments} {place : Place}

theorem new : Linked probeMap [] [] .new where
  size := rfl
  distinct := .nil
  suspended := by simp
  resumed := by simp [Resumed]
  suspending := by simp [TxnFragments.new]
  resuming := by simp [TxnFragments.new]
  next := by simp

theorem resuming_eq_nil (linked : Linked probeMap load names fragments) (linkId : Str) :
    fragments.resuming linkId = [] ↔ ∀ other ∈ load, ¬other.Resumes probeMap linkId := by
  rw [List.eq_nil_iff_forall_not_mem]
  constructor
  · intro none other member resumes
    have resumed : Resumed probeMap load other.counter := ⟨resumes.1, other, member, rfl⟩
    obtain ⟨ref, found⟩ := List.getElem?_of_mem (linked.resumed _ resumed)
    exact none ref ((linked.resuming linkId ref).mpr ⟨_, found, resumed, resumes.2⟩)
  · intro none ref member
    obtain ⟨node, _, ⟨resumes, other, isOther, rfl⟩, data⟩ := (linked.resuming linkId ref).mp member
    exact none other isOther ⟨resumes, data⟩

theorem suspending_iff (linked : Linked probeMap load names fragments) {ref : Nat} {node : Counter}
    (found : names[ref]? = some node) (linkId : Str) :
    fragments.suspending linkId = some ref ↔ LastSuspends probeMap load node linkId := by
  rw [linked.suspending]
  constructor
  · rintro ⟨other, isOther, last⟩
    rw [found, Option.some.injEq] at isOther
    exact isOther ▸ last
  · exact fun last => ⟨node, found, last⟩

theorem skip (linked : Linked probeMap load names fragments)
    (notSuspends : ∀ node linkId, ¬place.Suspends probeMap node linkId)
    (notResumes : roleOf probeMap place.counter ≠ .resumes) :
    Linked probeMap (load ++ [place]) names fragments := by
  have notConnects (node : Counter) (linkId : Str) : ¬place.Connects probeMap load node linkId := by
    rintro (⟨suspends, _⟩ | ⟨resumes, _⟩)
    · exact notSuspends node linkId suspends
    · exact notResumes resumes.1
  have sameResumed (first : Counter) :
      Resumed probeMap (load ++ [place]) first ↔ Resumed probeMap load first := by
    simp [resumed_snoc, notResumes]
  constructor
  case size =>
    exact linked.size
  case distinct =>
    exact linked.distinct
  case suspended =>
    refine List.forall_mem_append.mpr ⟨linked.suspended, List.forall_mem_singleton.mpr ?_⟩
    exact fun node linkId suspends => absurd suspends (notSuspends node linkId)
  case resumed =>
    exact fun first resumed => linked.resumed first ((sameResumed first).mp resumed)
  case suspending =>
    simpa only [lastSuspends_snoc, notSuspends, false_or, not_false_eq_true, implies_true, true_and]
      using linked.suspending
  case resuming =>
    simpa only [sameResumed] using linked.resuming
  case next =>
    simpa only [leadsTo_snoc, notConnects, false_or, not_false_eq_true, implies_true, true_and]
      using linked.next

theorem alloc (linked : Linked probeMap load names fragments) {node : Counter}
    (fresh : node ∉ names) (fragment : TxnFragment) (unlinked : fragment.next = none)
    (roots : List Nat) :
    Linked probeMap load (names ++ [node])
      { fragments with fragment := fragments.fragment.alloc fragment, rootFragments := roots } := by
  have notLast (linkId : Str) : ¬LastSuspends probeMap load node linkId := by
    intro last
    obtain ⟨place, member, suspends⟩ := last.suspended
    exact fresh (linked.suspended place member node linkId suspends)
  have notLeads (linkId : Str) : ¬LeadsTo probeMap load node linkId := by
    intro leadsTo
    obtain ⟨place, member, linkId', suspends⟩ := leadsTo.suspended
    exact fresh (linked.suspended place member node linkId' suspends)
  have notResumed : ¬Resumed probeMap load node := fun resumed => fresh (linked.resumed node resumed)
  constructor
  case size =>
    simp [linked.size]
  case distinct =>
    exact List.nodup_append.mpr ⟨linked.distinct, List.nodup_singleton _, by
      rintro other member _ isNew rfl
      exact fresh (List.mem_singleton.mp isNew ▸ member)⟩
  case suspended =>
    exact fun place member other linkId suspends =>
      List.mem_append_left _ (linked.suspended place member other linkId suspends)
  case resumed =>
    exact fun first resumed => List.mem_append_left _ (linked.resumed first resumed)
  case suspending =>
    intro linkId ref
    rw [linked.suspending]
    refine exists_congr fun other => ?_
    rw [getElem?_snoc]
    constructor
    · exact fun last => ⟨.inl last.1, last.2⟩
    · rintro ⟨found | ⟨_, rfl⟩, last⟩
      · exact ⟨found, last⟩
      · exact absurd last (notLast linkId)
  case resuming =>
    intro linkId ref
    rw [linked.resuming]
    refine exists_congr fun other => ?_
    rw [getElem?_snoc]
    constructor
    · exact fun resumed => ⟨.inl resumed.1, resumed.2⟩
    · rintro ⟨found | ⟨_, rfl⟩, resumed⟩
      · exact ⟨found, resumed⟩
      · exact absurd resumed.1 notResumed
  case next =>
    intro ref other found linkId
    rcases getElem?_snoc.mp found with old | ⟨isNew, rfl⟩
    · have bound := (List.getElem?_eq_some_iff.mp old).1
      rw [Arena.cell_alloc_of_lt _ _ (by rw [linked.size]; exact bound)]
      exact linked.next ref other old linkId
    · rw [isNew, ← linked.size, Arena.cell_alloc_fresh, unlinked]
      exact iff_of_false (by simp) (notLeads linkId)

theorem resume (linked : Linked probeMap load names fragments) (fresh : place.counter ∉ names)
    (resumes : roleOf probeMap place.counter = .resumes) (txn : Nat) :
    Linked probeMap (load ++ [place]) (names ++ [place.counter])
      (fragments.addResumeFragment place.counter.data txn).1 := by
  have allocated := linked.alloc fresh ⟨txn, some place.counter.data, none, none⟩ rfl
    fragments.rootFragments
  have notSuspends (node : Counter) (linkId : Str) : ¬place.Suspends probeMap node linkId :=
    not_suspends_of_role (by simp [resumes])
  have connects (node : Counter) (linkId : Str) : place.Connects probeMap load node linkId ↔
      linkId = place.counter.data ∧ fragments.resuming linkId = [] ∧
        LastSuspends probeMap load node linkId := by
    simp only [Place.Connects, notSuspends, false_and, false_or, Place.Resumes, resumes, true_and]
    rw [linked.resuming_eq_nil, eq_comm]
    rfl
  constructor
  case size =>
    simp only [TxnFragments.addResumeFragment]
    split
    · split <;> simp [TxnFragments.setNext, linked.size]
    · simp [linked.size]
  case distinct =>
    exact allocated.distinct
  case suspended =>
    refine List.forall_mem_append.mpr ⟨allocated.suspended, List.forall_mem_singleton.mpr ?_⟩
    exact fun node linkId suspends => absurd suspends (notSuspends node linkId)
  case resumed =>
    intro first resumed
    rcases resumed_snoc.mp resumed with before | ⟨_, rfl⟩
    · exact allocated.resumed first before
    · simp
  case suspending =>
    intro linkId ref
    rw [addResumeFragment_suspending]
    simpa only [lastSuspends_snoc, notSuspends, false_or, not_false_eq_true, implies_true, true_and]
      using allocated.suspending linkId ref
  case resuming =>
    intro linkId ref
    have before := allocated.resuming linkId ref
    have last : (names ++ [place.counter])[ref]? = some place.counter ↔
        ref = fragments.fragment.size := by
      rw [getElem?_snoc, linked.size]
      constructor
      · rintro (old | ⟨isNew, _⟩)
        · exact absurd (List.mem_of_getElem? old) fresh
        · exact isNew
      · exact fun isNew => .inr ⟨isNew, rfl⟩
    rw [addResumeFragment_resuming]
    by_cases same : linkId = place.counter.data
    · subst same
      rw [if_pos rfl, List.mem_append, List.mem_singleton, before, ← last]
      constructor
      · rintro (⟨node, found, resumed, data⟩ | found)
        · exact ⟨node, found, resumed_snoc.mpr (.inl resumed), data⟩
        · exact ⟨_, found, resumed_snoc.mpr (.inr ⟨resumes, rfl⟩), rfl⟩
      · rintro ⟨node, found, resumed, data⟩
        rcases resumed_snoc.mp resumed with before | ⟨_, rfl⟩
        · exact .inl ⟨node, found, before, data⟩
        · exact .inr found
    · rw [if_neg same, before]
      refine exists_congr fun node => and_congr_right fun _ => ?_
      constructor
      · exact fun resumed => ⟨resumed_snoc.mpr (.inl resumed.1), resumed.2⟩
      · rintro ⟨resumed, data⟩
        rcases resumed_snoc.mp resumed with before | ⟨_, rfl⟩
        · exact ⟨before, data⟩
        · exact absurd data.symm same
  case next =>
    intro ref node found linkId
    have before := allocated.next ref node found
    have isLast := allocated.suspending_iff found place.counter.data
    simp only at before isLast
    rw [addResumeFragment_next, leadsTo_snoc]
    simp only [connects]
    by_cases linksNow : fragments.resuming place.counter.data = [] ∧
        fragments.suspending place.counter.data = some ref
    · rw [if_pos linksNow, Option.some.injEq]
      rw [isLast] at linksNow
      constructor
      · rintro rfl
        exact .inl ⟨rfl, linksNow⟩
      · rintro (⟨same, _⟩ | ⟨none, _⟩)
        · exact same.symm
        · exact absurd ⟨rfl, linksNow⟩ (none place.counter.data)
    · rw [if_neg linksNow, before]
      rw [isLast] at linksNow
      constructor
      · intro leadsTo
        refine .inr ⟨?_, leadsTo⟩
        rintro other ⟨rfl, now⟩
        exact linksNow now
      · rintro (⟨rfl, now⟩ | ⟨_, leadsTo⟩)
        · exact absurd now linksNow
        · exact leadsTo

theorem suspend (linked : Linked probeMap load names fragments) {ref : Nat} {node : Counter}
    {linkId : Str} (found : names[ref]? = some node)
    (suspends : place.Suspends probeMap node linkId) :
    Linked probeMap (load ++ [place]) names (fragments.suspendAt linkId ref) := by
  have notResumes : roleOf probeMap place.counter ≠ .resumes := by simp [suspends.1]
  have isPlace (other : Counter) (otherId : Str) :
      place.Suspends probeMap other otherId ↔ other = node ∧ otherId = linkId := by
    constructor
    · exact fun isOther => isOther.unique suspends
    · rintro ⟨rfl, rfl⟩
      exact suspends
  have connects (other : Counter) (otherId : Str) : place.Connects probeMap load other otherId ↔
      (other = node ∧ otherId = linkId) ∧ fragments.resuming linkId ≠ [] := by
    have noResume : ¬place.Resumes probeMap otherId := not_resumes_of_role notResumes
    rw [Place.Connects, isPlace, Ne, linked.resuming_eq_nil]
    simp only [noResume, false_and, or_false, not_forall, not_not, exists_prop]
    refine and_congr_right ?_
    rintro ⟨_, rfl⟩
    rfl
  have sameResumed (first : Counter) :
      Resumed probeMap (load ++ [place]) first ↔ Resumed probeMap load first := by
    simp [resumed_snoc, notResumes]
  have isRef {other : Nat} : names[other]? = some node ↔ other = ref := by
    constructor
    · intro isOther
      have bound := (List.getElem?_eq_some_iff.mp isOther).1
      exact (List.getElem?_inj bound linked.distinct).mp (isOther.trans found.symm)
    · rintro rfl
      exact found
  constructor
  case size =>
    simp only [TxnFragments.suspendAt]
    split <;> simp [TxnFragments.setNext, linked.size]
  case distinct =>
    exact linked.distinct
  case suspended =>
    refine List.forall_mem_append.mpr ⟨linked.suspended, List.forall_mem_singleton.mpr ?_⟩
    intro other otherId isOther
    rw [((isPlace other otherId).mp isOther).1]
    exact List.mem_of_getElem? found
  case resumed =>
    exact fun first resumed => linked.resumed first ((sameResumed first).mp resumed)
  case suspending =>
    intro otherId other
    rw [suspendAt_suspending]
    simp only [lastSuspends_snoc, isPlace]
    by_cases same : otherId = linkId
    · subst same
      rw [if_pos rfl, Option.some.injEq]
      constructor
      · rintro rfl
        exact ⟨node, found, .inl ⟨rfl, rfl⟩⟩
      · rintro ⟨other', isOther, ⟨rfl, _⟩ | ⟨none, _⟩⟩
        · exact (isRef.mp isOther).symm
        · exact absurd ⟨rfl, rfl⟩ (none node)
    · rw [if_neg same, linked.suspending]
      simp [same]
  case resuming =>
    intro otherId other
    rw [suspendAt_resuming]
    simpa only [sameResumed] using linked.resuming otherId other
  case next =>
    intro other node' isOther otherId
    rw [suspendAt_next, leadsTo_snoc]
    simp only [connects]
    have before := linked.next other node' isOther otherId
    by_cases linksNow : fragments.resuming linkId ≠ [] ∧ other = ref
    · obtain ⟨resumed, rfl⟩ := linksNow
      rw [found, Option.some.injEq] at isOther
      subst isOther
      rw [if_pos ⟨resumed, rfl⟩, Option.some.injEq]
      constructor
      · rintro rfl
        exact .inl ⟨⟨rfl, rfl⟩, resumed⟩
      · rintro (⟨⟨_, same⟩, _⟩ | ⟨none, _⟩)
        · exact same.symm
        · exact absurd ⟨⟨rfl, rfl⟩, resumed⟩ (none linkId)
    · rw [if_neg linksNow, before]
      constructor
      · intro leadsTo
        refine .inr ⟨?_, leadsTo⟩
        rintro _ ⟨⟨rfl, _⟩, resumed⟩
        exact linksNow ⟨resumed, isRef.mp isOther⟩
      · rintro (⟨⟨rfl, _⟩, resumed⟩ | ⟨_, leadsTo⟩)
        · exact absurd ⟨resumed, isRef.mp isOther⟩ linksNow
        · exact leadsTo

end Linked

theorem setNext_txnOf (fragments : TxnFragments) (linkId : Str) (other ref : Nat) :
    (fragments.setNext other linkId).txnOf ref = fragments.txnOf ref := by
  by_cases same : ref = other
  · subst same
    simp [TxnFragments.setNext, TxnFragments.txnOf]
  · simp [TxnFragments.setNext, TxnFragments.txnOf, Arena.cell_modify_of_ne _ _ same]

theorem suspendAt_txnOf (fragments : TxnFragments) (linkId : Str) (other ref : Nat) :
    (fragments.suspendAt linkId other).txnOf ref = fragments.txnOf ref := by
  simp only [TxnFragments.suspendAt]
  split
  · rfl
  · exact setNext_txnOf _ _ _ _

theorem addResumeFragment_txnOf (fragments : TxnFragments) (linkId : Str) (txn ref : Nat) :
    (fragments.addResumeFragment linkId txn).1.txnOf ref =
      ((fragments.fragment.alloc ⟨txn, some linkId, none, none⟩).cell ref).txn := by
  simp only [TxnFragments.addResumeFragment]
  split
  · split
    · exact setNext_txnOf _ _ _ _
    · rfl
  · rfl

theorem addResumeFragment_roots (fragments : TxnFragments) (linkId : Str) (txn : Nat) :
    (fragments.addResumeFragment linkId txn).1.rootFragments = fragments.rootFragments := by
  simp only [TxnFragments.addResumeFragment]
  split
  · split <;> rfl
  · rfl

theorem suspendAt_roots (fragments : TxnFragments) (linkId : Str) (ref : Nat) :
    (fragments.suspendAt linkId ref).rootFragments = fragments.rootFragments := by
  simp only [TxnFragments.suspendAt]
  split <;> rfl

def Heads (segments later : List Segment) : Prop :=
  ∀ (txn : Nat) segment, segments[txn]? = some segment → ∀ first,
    segment.counters.head? = some first →
      ∃ segment', later[txn]? = some segment' ∧ segment'.counters.head? = some first

structure Charted (probeMap : Probe → Probe) (load : List Place) (names : List Counter)
    (outline : Outline) : Prop where
  linked : Linked probeMap load names (fragmentsOf outline.segments)
  loaded : ∀ node ∈ names, ∃ place ∈ load, place.counter = node
  roots : ∀ ref, ref ∈ (fragmentsOf outline.segments).rootFragments ↔
    ∃ node, names[ref]? = some node ∧ IsRoot probeMap load node
  heads : ∀ (ref : Nat) node, names[ref]? = some node → roleOf probeMap node = .resumes →
    ∃ segment, outline.segments[(fragmentsOf outline.segments).txnOf ref]? = some segment ∧
      segment.counters.head? = some node
  current : ∀ segment linkId, outline.current = some segment → segment.origin = .resumed linkId →
    ∃ first, segment.counters.head? = some first ∧
      names[(fragmentsOf (outline.closed.map Prod.fst)).fragment.size]? = some first

namespace Charted

variable {load : List Place} {names : List Counter} {outline outline' : Outline} {place : Place}

theorem empty : Charted probeMap [] [] .empty where
  linked := .new
  loaded := by simp
  roots := by simp [Outline.empty, Outline.segments, fragmentsOf, TxnFragments.new]
  heads := by simp
  current := by simp [Outline.empty]

theorem skip (charted : Charted probeMap load names outline)
    (sameFragments : fragmentsOf outline'.segments = fragmentsOf outline.segments)
    (heads : Heads outline.segments outline'.segments)
    (current : ∀ segment linkId, outline'.current = some segment →
      segment.origin = .resumed linkId → outline'.closed = outline.closed ∧
        ∃ former, outline.current = some former ∧ former.origin = .resumed linkId ∧
          ∀ first, former.counters.head? = some first → segment.counters.head? = some first)
    (notSuspends : ∀ node linkId, ¬place.Suspends probeMap node linkId)
    (notResumes : roleOf probeMap place.counter ≠ .resumes) :
    Charted probeMap (load ++ [place]) names outline' := by
  constructor
  case linked =>
    rw [sameFragments]
    exact charted.linked.skip notSuspends notResumes
  case loaded =>
    intro node member
    obtain ⟨other, isOther, same⟩ := charted.loaded node member
    exact ⟨other, List.mem_append_left _ isOther, same⟩
  case roots =>
    intro ref
    rw [sameFragments, charted.roots]
    refine exists_congr fun node => and_congr_right fun _ => ?_
    rw [isRoot_snoc]
    refine (or_iff_left ?_).symm
    rintro ⟨suspends, begun, _⟩
    exact notSuspends place.counter _ ⟨suspends, rfl, .inr ⟨begun, rfl⟩⟩
  case heads =>
    intro ref node found resumes
    obtain ⟨segment, isSegment, head⟩ := charted.heads ref node found resumes
    rw [sameFragments]
    exact heads _ segment isSegment node head
  case current =>
    intro segment linkId isOpen resumed
    obtain ⟨sameClosed, former, wasOpen, wasResumed, kept⟩ := current segment linkId isOpen resumed
    obtain ⟨first, head, found⟩ := charted.current former linkId wasOpen wasResumed
    exact ⟨first, kept first head, sameClosed ▸ found⟩

theorem resume (charted : Charted probeMap load names outline)
    (fresh : place.counter ∉ load.map Place.counter)
    (resumes : roleOf probeMap place.counter = .resumes)
    (closed : outline'.closed.map Prod.fst = outline.segments)
    (isOpen : outline'.current = some (.start (.resumed place.counter.data) place.counter)) :
    Charted probeMap (load ++ [place]) (names ++ [place.counter]) outline' := by
  have unnamed : place.counter ∉ names := by
    intro member
    obtain ⟨other, isOther, same⟩ := charted.loaded _ member
    exact fresh (List.mem_map.mpr ⟨other, isOther, same⟩)
  have segments : outline'.segments =
      outline.segments ++ [.start (.resumed place.counter.data) place.counter] := by
    rw [Refines.segments_open isOpen, closed]
  have fragments : fragmentsOf outline'.segments = ((fragmentsOf outline.segments).addResumeFragment
      place.counter.data outline.segments.length).1 := by
    rw [segments, fragmentsOf_append]
    rfl
  have size := charted.linked.size
  constructor
  case linked =>
    rw [fragments]
    exact charted.linked.resume unnamed resumes _
  case loaded =>
    intro node member
    rcases List.mem_append.mp member with old | isNew
    · obtain ⟨other, isOther, same⟩ := charted.loaded node old
      exact ⟨other, List.mem_append_left _ isOther, same⟩
    · exact ⟨place, by simp, (List.mem_singleton.mp isNew).symm⟩
  case roots =>
    intro ref
    have notRoot (node : Counter) :
        IsRoot probeMap (load ++ [place]) node ↔ IsRoot probeMap load node := by
      simp [isRoot_snoc, resumes]
    rw [fragments, addResumeFragment_roots, charted.roots]
    refine exists_congr fun node => ?_
    rw [notRoot, getElem?_snoc]
    constructor
    · exact fun root => ⟨.inl root.1, root.2⟩
    · rintro ⟨found | ⟨_, rfl⟩, other, isOther, suspends, _, same⟩
      · exact ⟨found, other, isOther, suspends, by assumption, same⟩
      · rw [same, resumes] at suspends
        cases suspends
  case heads =>
    intro ref node found isResumed
    rw [fragments, addResumeFragment_txnOf, segments]
    rcases getElem?_snoc.mp found with old | ⟨isNew, rfl⟩
    · have bound := (List.getElem?_eq_some_iff.mp old).1
      obtain ⟨segment, isSegment, head⟩ := charted.heads ref node old isResumed
      rw [Arena.cell_alloc_of_lt _ _ (by rw [size]; exact bound)]
      exact ⟨segment, getElem?_snoc.mpr (.inl isSegment), head⟩
    · rw [isNew, ← size, Arena.cell_alloc_fresh]
      exact ⟨_, getElem?_snoc.mpr (.inr ⟨rfl, rfl⟩), rfl⟩
  case current =>
    intro segment linkId isCurrent _
    rw [isOpen, Option.some.injEq] at isCurrent
    rw [← isCurrent, closed, size]
    exact ⟨place.counter, rfl, getElem?_snoc.mpr (.inr ⟨rfl, rfl⟩)⟩

theorem heads_current {segment segment' : Segment} (isOpen : outline.current = some segment)
    (sameClosed : outline'.closed = outline.closed) (isOpen' : outline'.current = some segment')
    (kept : ∀ first, segment.counters.head? = some first → segment'.counters.head? = some first) :
    Heads outline.segments outline'.segments := by
  intro txn other found first head
  rw [Refines.segments_open isOpen] at found
  rw [Refines.segments_open isOpen', sameClosed]
  rcases getElem?_snoc.mp found with old | ⟨isLast, rfl⟩
  · exact ⟨other, getElem?_snoc.mpr (.inl old), head⟩
  · exact ⟨segment', getElem?_snoc.mpr (.inr ⟨isLast, rfl⟩), kept first head⟩

theorem fragmentsOf_current {segment segment' : Segment} (isOpen : outline.current = some segment)
    (sameClosed : outline'.closed = outline.closed) (isOpen' : outline'.current = some segment')
    (sameOrigin : segment'.origin = segment.origin)
    (sameLinks : segment'.suspendIds = segment.suspendIds) :
    fragmentsOf outline'.segments = fragmentsOf outline.segments := by
  rw [Refines.segments_open isOpen, Refines.segments_open isOpen', sameClosed, fragmentsOf_append,
    fragmentsOf_append]
  simp only [TxnFragments.register, sameOrigin, sameLinks]

theorem change {segment : Segment} (charted : Charted probeMap load names outline)
    (segment' : Segment) (isOpen : outline.current = some segment)
    (sameClosed : outline'.closed = outline.closed)
    (isOpen' : outline'.current = some segment') (sameOrigin : segment'.origin = segment.origin)
    (sameLinks : segment'.suspendIds = segment.suspendIds)
    (kept : ∀ first, segment.counters.head? = some first → segment'.counters.head? = some first)
    (notSuspends : ∀ node linkId, ¬place.Suspends probeMap node linkId)
    (notResumes : roleOf probeMap place.counter ≠ .resumes) :
    Charted probeMap (load ++ [place]) names outline' := by
  refine charted.skip (fragmentsOf_current isOpen sameClosed isOpen' sameOrigin sameLinks)
    (heads_current isOpen sameClosed isOpen' kept) ?_ notSuspends notResumes
  intro other linkId isOther resumed
  rw [isOpen', Option.some.injEq] at isOther
  subst isOther
  exact ⟨sameClosed, segment, isOpen, sameOrigin ▸ resumed, kept⟩

theorem append (charted : Charted probeMap load names outline) (segment : Segment)
    (segments : outline'.segments = outline.segments ++ [segment])
    (unlinked : segment.suspendIds = [])
    (notResumed : ∀ linkId, segment.origin ≠ .resumed linkId)
    (current : ∀ other, outline'.current = some other → other = segment)
    (notSuspends : ∀ node linkId, ¬place.Suspends probeMap node linkId)
    (notResumes : roleOf probeMap place.counter ≠ .resumes) :
    Charted probeMap (load ++ [place]) names outline' := by
  refine charted.skip ?_ ?_ ?_ notSuspends notResumes
  · rw [segments, fragmentsOf_append]
    cases origin : segment.origin with
    | begun => simp [TxnFragments.register, origin, unlinked]
    | headless => simp [TxnFragments.register, origin]
    | resumed linkId => exact absurd origin (notResumed linkId)
  · intro txn other found first head
    rw [segments]
    exact ⟨other, getElem?_snoc.mpr (.inl found), head⟩
  · intro other linkId isOpen resumed
    rw [current other isOpen] at resumed
    exact absurd resumed (notResumed linkId)

theorem fragmentsOf_suspend {segment segment' : Segment} {linkId : Str}
    (isOpen : outline.current = some segment) (started : segment.origin ≠ .headless)
    (sameClosed : outline'.closed = outline.closed)
    (isOpen' : outline'.current = some (segment'.suspendAt linkId))
    (sameOrigin : segment'.origin = segment.origin)
    (sameLinks : segment'.suspendIds = segment.suspendIds) :
    fragmentsOf outline'.segments =
      (fragmentsOf outline.segments).addSuspendFragment linkId outline.closed.length
        (segment.resumeRef (fragmentsOf (outline.closed.map Prod.fst))) := by
  have sameRegister (fragments : TxnFragments) (txn : Nat) :
      fragments.register segment' txn = fragments.register segment txn := by
    simp only [TxnFragments.register, sameOrigin, sameLinks]
  rw [Refines.segments_open isOpen, Refines.segments_open isOpen', sameClosed, fragmentsOf_append,
    fragmentsOf_append, register_suspendAt _ _ _ _ (sameOrigin ▸ started), sameRegister,
    List.length_map]
  simp only [Segment.resumeRef, sameOrigin]

theorem suspendBegun {segment : Segment} {linkId : Str}
    (charted : Charted probeMap load names outline) (segment' : Segment)
    (fresh : place.counter ∉ load.map Place.counter)
    (isOpen : outline.current = some segment) (begun : segment.origin = .begun)
    (sameClosed : outline'.closed = outline.closed)
    (isOpen' : outline'.current = some (segment'.suspendAt linkId))
    (sameOrigin : segment'.origin = segment.origin)
    (sameLinks : segment'.suspendIds = segment.suspendIds)
    (kept : ∀ first, segment.counters.head? = some first → segment'.counters.head? = some first)
    (suspends : place.Suspends probeMap place.counter linkId)
    (begunBefore : BegunBefore probeMap place.before) :
    Charted probeMap (load ++ [place]) (names ++ [place.counter]) outline' := by
  have unnamed : place.counter ∉ names := by
    intro member
    obtain ⟨other, isOther, same⟩ := charted.loaded _ member
    exact fresh (List.mem_map.mpr ⟨other, isOther, same⟩)
  have allocated := charted.linked.alloc unnamed
    ⟨outline.closed.length, none, some linkId, none⟩ rfl
    ((fragmentsOf outline.segments).rootFragments ++ [(fragmentsOf outline.segments).fragment.size])
  have size := charted.linked.size
  have last : (names ++ [place.counter])[(fragmentsOf outline.segments).fragment.size]? =
      some place.counter := getElem?_snoc.mpr (.inr ⟨size, rfl⟩)
  have fragments : fragmentsOf outline'.segments = ({ fragmentsOf outline.segments with
      fragment := (fragmentsOf outline.segments).fragment.alloc
        ⟨outline.closed.length, none, some linkId, none⟩
      rootFragments := (fragmentsOf outline.segments).rootFragments ++
        [(fragmentsOf outline.segments).fragment.size] } : TxnFragments).suspendAt linkId
          (fragmentsOf outline.segments).fragment.size := by
    rw [fragmentsOf_suspend isOpen (by simp [begun]) sameClosed isOpen' sameOrigin sameLinks]
    simp only [Segment.resumeRef, begun]
    rfl
  have heads := heads_current isOpen sameClosed isOpen' kept
  constructor
  case linked =>
    rw [fragments]
    exact allocated.suspend last suspends
  case loaded =>
    intro node member
    rcases List.mem_append.mp member with old | isNew
    · obtain ⟨other, isOther, same⟩ := charted.loaded node old
      exact ⟨other, List.mem_append_left _ isOther, same⟩
    · exact ⟨place, by simp, (List.mem_singleton.mp isNew).symm⟩
  case roots =>
    intro ref
    rw [fragments, suspendAt_roots, List.mem_append, List.mem_singleton, charted.roots]
    simp only [isRoot_snoc, getElem?_snoc]
    constructor
    · rintro (⟨node, found, root⟩ | rfl)
      · exact ⟨node, .inl found, .inl root⟩
      · exact ⟨_, .inr ⟨size, rfl⟩, .inr ⟨suspends.1, begunBefore, rfl⟩⟩
    · rintro ⟨node, found | ⟨isNew, rfl⟩, root | ⟨_, _, same⟩⟩
      · exact .inl ⟨node, found, root⟩
      · exact absurd (List.mem_of_getElem? found) (same ▸ unnamed)
      · obtain ⟨other, isOther, _, _, same⟩ := root
        exact absurd (List.mem_map.mpr ⟨other, isOther, same⟩) fresh
      · exact .inr (isNew.trans size.symm)
  case heads =>
    intro ref node found resumes
    rcases getElem?_snoc.mp found with old | ⟨_, rfl⟩
    · have bound := (List.getElem?_eq_some_iff.mp old).1
      obtain ⟨other, isSegment, head⟩ := charted.heads ref node old resumes
      rw [fragments, suspendAt_txnOf]
      simp only [TxnFragments.txnOf]
      rw [Arena.cell_alloc_of_lt _ _ (by rw [size]; exact bound)]
      exact heads _ other isSegment node head
    · rw [suspends.1] at resumes
      cases resumes
  case current =>
    intro other otherId isOther resumed
    rw [isOpen', Option.some.injEq] at isOther
    rw [← isOther] at resumed
    simp [Segment.suspendAt, sameOrigin, begun] at resumed

theorem suspendResumed {segment : Segment} {linkId resumeId : Str} {first : Counter}
    (charted : Charted probeMap load names outline) (segment' : Segment)
    (isOpen : outline.current = some segment) (isResumed : segment.origin = .resumed resumeId)
    (head : segment.counters.head? = some first)
    (sameClosed : outline'.closed = outline.closed)
    (isOpen' : outline'.current = some (segment'.suspendAt linkId))
    (sameOrigin : segment'.origin = segment.origin)
    (sameLinks : segment'.suspendIds = segment.suspendIds)
    (kept : ∀ first, segment.counters.head? = some first → segment'.counters.head? = some first)
    (suspends : place.Suspends probeMap first linkId)
    (notBegun : ¬BegunBefore probeMap place.before) :
    Charted probeMap (load ++ [place]) names outline' := by
  obtain ⟨other, isHead, found⟩ := charted.current segment resumeId isOpen isResumed
  rw [head, Option.some.injEq] at isHead
  subst isHead
  have fragments : fragmentsOf outline'.segments = (fragmentsOf outline.segments).suspendAt linkId
      (fragmentsOf (outline.closed.map Prod.fst)).fragment.size := by
    rw [fragmentsOf_suspend isOpen (by simp [isResumed]) sameClosed isOpen' sameOrigin sameLinks]
    simp only [Segment.resumeRef, isResumed]
    rfl
  have heads := heads_current isOpen sameClosed isOpen' kept
  constructor
  case linked =>
    rw [fragments]
    exact charted.linked.suspend found suspends
  case loaded =>
    intro node member
    obtain ⟨other, isOther, same⟩ := charted.loaded node member
    exact ⟨other, List.mem_append_left _ isOther, same⟩
  case roots =>
    intro ref
    rw [fragments, suspendAt_roots, charted.roots]
    simp only [isRoot_snoc, notBegun, false_and, and_false, or_false]
  case heads =>
    intro ref node isNode resumes
    obtain ⟨other, isSegment, isHead⟩ := charted.heads ref node isNode resumes
    rw [fragments, suspendAt_txnOf]
    exact heads _ other isSegment node isHead
  case current =>
    intro other otherId isOther resumed
    rw [isOpen', Option.some.injEq] at isOther
    subst isOther
    exact ⟨first, kept first head, sameClosed ▸ found⟩

theorem keep (charted : Charted probeMap load names outline)
    (notSuspends : ∀ node linkId, ¬place.Suspends probeMap node linkId)
    (notResumes : roleOf probeMap place.counter ≠ .resumes)
    (stays : outline.current = none ∨ roleOf probeMap place.counter ≠ .suspends) :
    Charted probeMap (load ++ [place]) names
      (outline.loadCounter place.tlsAddr (roleOf probeMap place.counter) place.counter) := by
  have same (outline' : Outline) (sameClosed : outline'.closed = outline.closed)
      (sameCurrent : outline'.current = outline.current) :
      Charted probeMap (load ++ [place]) names outline' := by
    have segments : outline'.segments = outline.segments := by
      simp only [Outline.segments, sameClosed, sameCurrent]
    refine charted.skip (by rw [segments]) ?_ ?_ notSuspends notResumes
    · rw [segments]
      exact fun txn segment found first head => ⟨segment, found, head⟩
    · intro segment linkId isOpen resumed
      exact ⟨sameClosed, segment, sameCurrent ▸ isOpen, resumed, fun _ head => head⟩
  cases isOpen : outline.current with
  | none =>
      cases role : roleOf probeMap place.counter with
      | resumes => exact absurd role notResumes
      | begins =>
          exact charted.append (.start .begun place.counter)
            (by simp [Outline.loadCounter, isOpen, Outline.openSegment, Outline.segments]) rfl
            (by simp [Segment.start])
            (by simp [Outline.loadCounter, isOpen, Outline.openSegment, eq_comm])
            notSuspends notResumes
      | suspends =>
          exact charted.append ⟨.headless, place.counter :: outline.loose, false, []⟩
            (by simp [Outline.loadCounter, isOpen, Outline.close, Outline.segments]) rfl
            (by simp) (by simp [Outline.loadCounter, isOpen, Outline.close]) notSuspends notResumes
      | ends =>
          exact charted.append ⟨.headless, place.counter :: outline.loose, false, []⟩
            (by simp [Outline.loadCounter, isOpen, Outline.close, Outline.segments]) rfl
            (by simp) (by simp [Outline.loadCounter, isOpen, Outline.close]) notSuspends notResumes
      | plain =>
          exact same _ (by simp [Outline.loadCounter, isOpen]) (by simp [Outline.loadCounter, isOpen])
  | some segment =>
      cases role : roleOf probeMap place.counter with
      | resumes => exact absurd role notResumes
      | begins =>
          cases bounded : segment.bounded with
          | true =>
              exact charted.append (.start .begun place.counter)
                (by simp [Outline.loadCounter, isOpen, bounded, Outline.openSegment, Outline.close,
                  Outline.segments]) rfl (by simp [Segment.start])
                (by simp [Outline.loadCounter, isOpen, bounded, Outline.openSegment, Outline.close,
                  eq_comm])
                notSuspends notResumes
          | false =>
              exact charted.change (segment.add place.counter) isOpen
                (by simp [Outline.loadCounter, isOpen, bounded])
                (by simp [Outline.loadCounter, isOpen, bounded]) rfl rfl
                (fun _ => head?_append_of_some) notSuspends notResumes
      | suspends => exact absurd role (stays.resolve_left (by simp [isOpen]))
      | ends =>
          exact charted.change (segment.bound outline.loose place.counter) isOpen
            (by simp only [Outline.loadCounter, isOpen]) (by simp only [Outline.loadCounter, isOpen])
            rfl rfl (fun _ head => head?_bound head _ _) notSuspends notResumes
      | plain =>
          cases bounded : segment.bounded with
          | true =>
              exact same _ (by simp [Outline.loadCounter, isOpen, bounded])
                (by simp [Outline.loadCounter, isOpen, bounded])
          | false =>
              exact charted.change (segment.add place.counter) isOpen
                (by simp [Outline.loadCounter, isOpen, bounded])
                (by simp [Outline.loadCounter, isOpen, bounded]) rfl rfl
                (fun _ => head?_append_of_some) notSuspends notResumes

theorem snoc (charted : Charted probeMap load names outline)
    (opened : Opened probeMap place.before outline)
    (fresh : place.counter ∉ load.map Place.counter) :
    ∃ names', Charted probeMap (load ++ [place]) names'
      (outline.loadCounter place.tlsAddr (roleOf probeMap place.counter) place.counter) := by
  by_cases resumes : roleOf probeMap place.counter = .resumes
  · refine ⟨_, charted.resume fresh resumes ?_ ?_⟩ <;> rw [resumes] <;>
      cases isOpen : outline.current <;>
      simp [Outline.loadCounter, isOpen, Outline.openSegment, Outline.close, Outline.segments]
  · by_cases suspends : roleOf probeMap place.counter = .suspends
    · cases opened with
      | idle isOpen unopened =>
          exact ⟨names, charted.keep (fun _ _ => not_suspends_of_idle unopened) resumes (.inl isOpen)⟩
      | begun segment isOpen begun begunBefore =>
          exact ⟨_, charted.suspendBegun (segment.bound outline.loose place.counter) fresh
            isOpen begun
            (by simp only [suspends, Outline.loadCounter, isOpen])
            (by simp only [suspends, Outline.loadCounter, isOpen]) rfl rfl
            (fun _ head => head?_bound head _ _) ⟨suspends, rfl, .inr ⟨begunBefore, rfl⟩⟩ begunBefore⟩
      | resumed segment earlier first between isOpen origin head split isResume others ordered
          bounded =>
          have resumedBy : ResumedBy probeMap place.before first :=
            ⟨earlier, between, split, isResume, others, ordered⟩
          exact ⟨names, charted.suspendResumed (segment.bound outline.loose place.counter)
            isOpen origin head
            (by simp only [suspends, Outline.loadCounter, isOpen])
            (by simp only [suspends, Outline.loadCounter, isOpen]) rfl rfl
            (fun _ head => head?_bound head _ _) ⟨suspends, rfl, .inl resumedBy⟩
            fun begun => begun.2 first resumedBy⟩
    · exact ⟨names, charted.keep (fun _ _ => not_suspends_of_role suspends) resumes (.inr suspends)⟩

theorem endLoad (charted : Charted probeMap load names outline) :
    Charted probeMap load names outline.endLoad := by
  have segments : outline.endLoad.segments = outline.segments := by
    cases isOpen : outline.current with
    | none => simp only [Outline.endLoad, isOpen]
    | some segment => simp [Outline.endLoad, isOpen, Outline.close, Outline.segments]
  have idle : outline.endLoad.current = none := by
    cases isOpen : outline.current with
    | none => simp only [Outline.endLoad, isOpen]
    | some segment => simp [Outline.endLoad, isOpen, Outline.close]
  constructor
  case linked =>
    exact segments ▸ charted.linked
  case loaded =>
    exact charted.loaded
  case roots =>
    exact segments ▸ charted.roots
  case heads =>
    exact segments ▸ charted.heads
  case current =>
    simp [idle]

end Charted

theorem opened_loadCounters {outline : Outline} (idle : outline.current = none) (tlsAddr : Str)
    (counters : List Counter) :
    Opened probeMap counters (outline.loadCounters probeMap tlsAddr counters) := by
  induction counters using List.reverseRecOn with
  | nil => exact .idle idle (by simp)
  | append_singleton counters counter ih =>
      rw [Outline.loadCounters_snoc]
      exact ih.snoc tlsAddr counter

theorem places_snoc (tlsAddr : Str) (counters : List Counter) (counter : Counter) :
    (⟨tlsAddr, counters ++ [counter]⟩ : Thread).places =
      (⟨tlsAddr, counters⟩ : Thread).places ++ [⟨tlsAddr, counters, counter⟩] := by
  simp only [Thread.places, List.zipIdx_append, List.map_append, List.zipIdx_cons, List.zipIdx_nil,
    List.map_cons, List.map_nil, Nat.zero_add, List.take_left]
  congr 1
  refine List.map_congr_left fun entry member => ?_
  have bound := (List.getElem?_eq_some_iff.mp (List.mem_zipIdx_iff_getElem?.mp member)).1
  rw [List.take_append_of_le_length (Nat.le_of_lt bound)]

theorem places_counters (thread : Thread) : thread.places.map Place.counter = thread.counters := by
  rw [Thread.places, List.map_map]
  exact List.zipIdx_map_fst 0 thread.counters

section Threads

variable {load : List Place} {names : List Counter} {outline : Outline}

theorem Charted.loadCounters (charted : Charted probeMap load names outline)
    (idle : outline.current = none) (tlsAddr : Str) {counters : List Counter}
    (distinct : (load.map Place.counter ++ counters).Nodup) :
    ∃ names', Charted probeMap (load ++ (⟨tlsAddr, counters⟩ : Thread).places) names'
      (outline.loadCounters probeMap tlsAddr counters) := by
  induction counters using List.reverseRecOn with
  | nil => exact ⟨names, by simpa [Thread.places, Outline.loadCounters] using charted⟩
  | append_singleton counters counter ih =>
      rw [← List.append_assoc] at distinct
      obtain ⟨names', before⟩ := ih (List.nodup_append.mp distinct).1
      have fresh : counter ∉
          (load ++ (⟨tlsAddr, counters⟩ : Thread).places).map Place.counter := by
        rw [List.map_append, places_counters]
        exact fun member => (List.nodup_append.mp distinct).2.2 counter member counter (by simp) rfl
      rw [places_snoc, ← List.append_assoc, Outline.loadCounters_snoc]
      exact @Charted.snoc probeMap _ _ _ ⟨tlsAddr, counters, counter⟩ before
        (opened_loadCounters idle tlsAddr counters) fresh

theorem Charted.loadThreads (charted : Charted probeMap load names outline)
    (idle : outline.current = none) {threads : List Thread}
    (distinct : (load.map Place.counter ++ threads.flatMap Thread.counters).Nodup) :
    ∃ names', Charted probeMap (load ++ placesOf threads) names'
      (outline.loadThreads probeMap threads) := by
  induction threads generalizing load names outline with
  | nil => exact ⟨names, by simpa [placesOf, Outline.loadThreads] using charted⟩
  | cons thread rest ih =>
      rw [List.flatMap_cons, ← List.append_assoc] at distinct
      obtain ⟨names', first⟩ :=
        charted.loadCounters idle thread.tlsAddr (List.nodup_append.mp distinct).1
      obtain ⟨final, all⟩ := ih first.endLoad (Outline.loadThread_idle probeMap outline thread) (by
        rw [List.map_append, places_counters]
        exact distinct)
      refine ⟨final, ?_⟩
      rw [placesOf, List.flatMap_cons, ← List.append_assoc]
      exact all

end Threads

section Reached

variable {load : List Place} {names : List Counter} {outline : Outline}

theorem Linked.mem_children {fragments : TxnFragments}
    (linked : Linked probeMap load names fragments) {parent : Nat} {node : Counter}
    (found : names[parent]? = some node) (child : Nat) :
    child ∈ fragments.children parent ↔
      ∃ first, names[child]? = some first ∧ Follows probeMap load node first := by
  have next := linked.next parent node found
  rw [TxnFragments.children]
  cases isNext : (fragments.fragment.cell parent).next with
  | none =>
      refine iff_of_false (by simp [TxnFragments.follow]) ?_
      rintro ⟨first, _, _, leadsTo⟩
      rw [← next, isNext] at leadsTo
      cases leadsTo
  | some linkId =>
      have leadsTo := (next linkId).mp isNext
      rw [TxnFragments.follow, linked.resuming]
      refine exists_congr fun first => and_congr_right fun _ => ?_
      constructor
      · rintro ⟨resumed, rfl⟩
        exact ⟨resumed, leadsTo⟩
      · rintro ⟨resumed, leadsThere⟩
        rw [← next, isNext, Option.some.injEq] at leadsThere
        exact ⟨resumed, leadsThere.symm⟩

theorem Linked.below_iff {fragments : TxnFragments}
    (linked : Linked probeMap load names fragments) {parent : Nat} {node : Counter}
    (found : names[parent]? = some node) (ref : Nat) :
    Below fragments.children (fragments.children parent) ref ↔
      ∃ first, names[ref]? = some first ∧
        Relation.TransGen (Follows probeMap load) node first := by
  refine @below_iff_transGen _ _ fragments.children (fun ref node => names[ref]? = some node)
    (Follows probeMap load) (fun _ _ isName => linked.mem_children isName) ?_ parent node found ref
  exact fun _ first follows => List.getElem?_of_mem (linked.resumed first follows.1)

theorem Charted.reached_iff (charted : Charted probeMap load names outline) (ref : Nat) :
    (fragmentsOf outline.segments).Reached ref ↔
      ∃ first, names[ref]? = some first ∧ Reached probeMap load first := by
  constructor
  · rintro ⟨root, isRoot, isBelow⟩
    obtain ⟨node, found, root⟩ := (charted.roots root).mp isRoot
    obtain ⟨first, isFirst, reaches⟩ := (charted.linked.below_iff found ref).mp isBelow
    exact ⟨first, isFirst, node, root, reaches⟩
  · rintro ⟨first, isFirst, node, root, reaches⟩
    obtain ⟨place, member, suspends, begun, rfl⟩ := root
    obtain ⟨rootRef, found⟩ := List.getElem?_of_mem
      (charted.linked.suspended place member place.counter _ ⟨suspends, rfl, .inr ⟨begun, rfl⟩⟩)
    exact ⟨rootRef, (charted.roots rootRef).mpr ⟨_, found, place, member, suspends, begun, rfl⟩,
      (charted.linked.below_iff found ref).mpr ⟨first, isFirst, reaches⟩⟩

theorem Charted.linksFinite_iff (charted : Charted probeMap load names outline) :
    (fragmentsOf outline.segments).LinksFinite ↔
      ∀ first, Reached probeMap load first →
        ¬Relation.TransGen (Follows probeMap load) first first := by
  have linked := charted.linked
  have finite {root : Nat} (isRoot : root ∈ (fragmentsOf outline.segments).rootFragments) :
      {node | Relation.ReflTransGen
        (fun parent child => child ∈ (fragmentsOf outline.segments).children parent)
          root node}.Finite := by
    refine (Set.finite_lt_nat names.length).subset fun ref reaches => ?_
    obtain ⟨node, found, _⟩ := (charted.roots root).mp isRoot
    rcases Relation.ReflTransGen.cases_head reaches with rfl | ⟨top, isTop, rest⟩
    · exact (List.getElem?_eq_some_iff.mp found).1
    · obtain ⟨first, isFirst, _⟩ := (linked.below_iff found ref).mp ⟨top, isTop, rest⟩
      exact (List.getElem?_eq_some_iff.mp isFirst).1
  have self {ref : Nat} {first : Counter} (found : names[ref]? = some first) :
      Below (fragmentsOf outline.segments).children
          ((fragmentsOf outline.segments).children ref) ref ↔
        Relation.TransGen (Follows probeMap load) first first := by
    rw [linked.below_iff found]
    constructor
    · rintro ⟨other, isOther, reaches⟩
      rw [found, Option.some.injEq] at isOther
      exact isOther ▸ reaches
    · exact fun reaches => ⟨first, found, reaches⟩
  constructor
  · intro linksFinite first reached
    obtain ⟨ref, found⟩ : ∃ ref : Nat, names[ref]? = some first := by
      obtain ⟨_, _, reaches⟩ := reached
      obtain ⟨_, _, follows⟩ := Relation.TransGen.tail'_iff.mp reaches
      exact List.getElem?_of_mem (linked.resumed first follows.1)
    obtain ⟨root, isRoot, isBelow⟩ := (charted.reached_iff ref).mpr ⟨first, found, reached⟩
    rw [← self found]
    exact (acc_iff_not_below_self (finite isRoot)).mp (linksFinite root isRoot) ref isBelow
  · intro acyclic root isRoot
    refine (acc_iff_not_below_self (finite isRoot)).mpr fun ref isBelow => ?_
    obtain ⟨first, found, reached⟩ := (charted.reached_iff ref).mp ⟨root, isRoot, isBelow⟩
    rw [self found]
    exact acyclic first reached

end Reached

end Xpedite.Txn
