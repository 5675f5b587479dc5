import Xpedite.Txn.Charted

/-!
Where the counters are after the collection.  A resumed transaction has its
counters in `txns` when the join comes by it, and in `compromisedTxns` when its
thread stops before it has an end or suspend counter; nothing makes sure that
exactly one of these happens.
-/

namespace Xpedite.Txn

open Xpedite.Lib

variable {probeMap : Probe → Probe}

namespace Outline

def Tracks (probeMap : Probe → Probe) (first : Counter) (rest : List Counter) (outline : Outline) :
    Prop :=
  (∃ segment, outline.current = some segment ∧ segment.origin = .resumed first.data ∧
    segment.counters.head? = some first ∧
    (segment.bounded = false ↔ ∀ counter ∈ rest, (roleOf probeMap counter).continues)) ∨
  (∃ segment, (segment, Fate.linked) ∈ outline.closed ∧ segment.origin = .resumed first.data ∧
    segment.counters.head? = some first ∧
    ¬∀ counter ∈ rest, (roleOf probeMap counter).continues)

theorem fate_resumed {segment : Segment} {linkId : Str} (resumed : segment.origin = .resumed linkId) :
    segment.fate = .linked := by
  simp [Segment.fate, Segment.isLinked, resumed]

theorem closed_subset_loadCounter (outline : Outline) (tlsAddr : Str) (role : Role)
    (counter : Counter) : outline.closed ⊆ (outline.loadCounter tlsAddr role counter).closed := by
  intro entry member
  cases isOpen : outline.current with
  | none => cases role <;> simp [loadCounter, isOpen, openSegment, close, member]
  | some segment =>
      cases bounded : segment.bounded <;> cases role <;>
        simp [loadCounter, isOpen, openSegment, close, bounded, member]

theorem tracks_snoc {first : Counter} {rest : List Counter} {outline : Outline}
    (tracks : Tracks probeMap first rest outline) (tlsAddr : Str) (counter : Counter) :
    Tracks probeMap first (rest ++ [counter])
      (outline.loadCounter tlsAddr (roleOf probeMap counter) counter) := by
  have allSnoc : (∀ other ∈ rest ++ [counter], (roleOf probeMap other).continues) ↔
      (∀ other ∈ rest, (roleOf probeMap other).continues) ∧ (roleOf probeMap counter).continues := by
    simp [or_imp, forall_and]
  rcases tracks with ⟨segment, isOpen, resumed, head, bounds⟩ | ⟨segment, closed, resumed, head, stopped⟩
  · have linked := fate_resumed resumed
    cases role : roleOf probeMap counter with
    | resumes =>
        right
        refine ⟨segment, ?_, resumed, head, ?_⟩
        · simp [loadCounter, isOpen, close, openSegment, linked]
        · rw [allSnoc, role]
          simp [Role.continues]
    | begins =>
        cases bounded : segment.bounded with
        | true =>
            right
            refine ⟨segment, ?_, resumed, head, ?_⟩
            · simp [loadCounter, isOpen, close, openSegment, linked, bounded]
            · rw [allSnoc, ← bounds, bounded]
              simp
        | false =>
            left
            refine ⟨segment.add counter, ?_, resumed, head?_append_of_some head, ?_⟩
            · simp [loadCounter, isOpen, bounded]
            · rw [allSnoc, ← bounds, role]
              simp [Segment.add, bounded, Role.continues]
    | suspends =>
        left
        refine ⟨(segment.bound outline.loose counter).suspendAt
          (Loader.linkId counter.tsc tlsAddr), ?_, resumed, ?_, ?_⟩
        · simp [loadCounter, isOpen]
        · exact head?_append_of_some (head?_append_of_some head)
        · rw [allSnoc, role]
          simp [Segment.bound, Segment.suspendAt, Role.continues]
    | ends =>
        left
        refine ⟨segment.bound outline.loose counter, ?_, resumed, ?_, ?_⟩
        · simp [loadCounter, isOpen]
        · exact head?_append_of_some (head?_append_of_some head)
        · rw [allSnoc, role]
          simp [Segment.bound, Role.continues]
    | plain =>
        left
        cases bounded : segment.bounded with
        | true =>
            refine ⟨segment, ?_, resumed, head, ?_⟩
            · simp [loadCounter, isOpen, bounded]
            · rw [allSnoc, ← bounds, bounded]
              simp
        | false =>
            refine ⟨segment.add counter, ?_, resumed, head?_append_of_some head, ?_⟩
            · simp [loadCounter, isOpen, bounded]
            · rw [allSnoc, ← bounds, role]
              simp [Segment.add, bounded, Role.continues]
  · right
    refine ⟨segment, closed_subset_loadCounter _ _ _ _ closed, resumed, head, ?_⟩
    rw [allSnoc]
    exact fun all => stopped all.1

theorem tracks_resume (outline : Outline) (tlsAddr : Str) {first : Counter}
    (resumes : roleOf probeMap first = .resumes) :
    Tracks probeMap first [] (outline.loadCounter tlsAddr (roleOf probeMap first) first) := by
  left
  refine ⟨.start (.resumed first.data) first, ?_, rfl, rfl, by simp [Segment.start]⟩
  rw [resumes]
  cases isOpen : outline.current <;> simp [loadCounter, isOpen, openSegment]

theorem tracks_loadCounters (outline : Outline) (tlsAddr : Str) (before : List Counter)
    {first : Counter} (resumes : roleOf probeMap first = .resumes) (rest : List Counter) :
    Tracks probeMap first rest
      (outline.loadCounters probeMap tlsAddr (before ++ first :: rest)) := by
  induction rest using List.reverseRecOn with
  | nil =>
      rw [loadCounters_snoc]
      exact tracks_resume _ tlsAddr resumes
  | append_singleton rest counter ih =>
      rw [← List.cons_append, ← List.append_assoc, loadCounters_snoc]
      exact tracks_snoc ih tlsAddr counter

theorem resume_opens (outline : Outline) (thread : Thread) {before rest : List Counter}
    {first : Counter} (split : thread.counters = before ++ first :: rest)
    (resumes : roleOf probeMap first = .resumes) :
    ∃ segment fate, (segment, fate) ∈ (outline.loadThread probeMap thread).closed ∧
      segment.origin = .resumed first.data ∧ segment.counters.head? = some first ∧
      (fate = .compromised ↔ ∀ counter ∈ rest, (roleOf probeMap counter).continues) := by
  have tracks := tracks_loadCounters outline thread.tlsAddr before resumes rest
  rw [← split] at tracks
  simp only [loadThread]
  rcases tracks with ⟨segment, isOpen, resumed, head, bounds⟩ | ⟨segment, closed, resumed, head, stopped⟩
  · refine ⟨segment, segment.finalFate, by simp [endLoad, isOpen, close], resumed, head, ?_⟩
    rw [← bounds, Segment.finalFate, fate_resumed resumed]
    cases segment.bounded <;> simp
  · refine ⟨segment, .linked, ?_, resumed, head, by simp [stopped]⟩
    simp only [endLoad]
    split
    · exact List.mem_append_left _ closed
    · exact closed

variable (probeMap) in
theorem closed_subset_loadThreads (outline : Outline) (idle : outline.current = none)
    (threads : List Thread) : outline.closed ⊆ (outline.loadThreads probeMap threads).closed := by
  induction threads generalizing outline with
  | nil => exact List.Subset.refl _
  | cons thread rest ih =>
      intro entry member
      refine ih _ (loadThread_idle probeMap outline thread) ?_
      rw [loadThread_fresh probeMap outline idle]
      exact List.mem_append_left _ member

theorem resume_opens_threads {threads : List Thread} {thread : Thread} (isThread : thread ∈ threads)
    {before rest : List Counter} {first : Counter}
    (split : thread.counters = before ++ first :: rest)
    (resumes : roleOf probeMap first = .resumes) :
    ∃ (ref : Nat) (segment : Segment) (fate : Fate),
      (empty.loadThreads probeMap threads).closed[ref]? = some (segment, fate) ∧
      segment.origin = .resumed first.data ∧ segment.counters.head? = some first ∧
      (fate = .compromised ↔ ∀ counter ∈ rest, (roleOf probeMap counter).continues) := by
  obtain ⟨earlier, later, rfl⟩ := List.append_of_mem isThread
  obtain ⟨segment, fate, isClosed, resumed, head, cut⟩ :=
    resume_opens (empty.loadThreads probeMap earlier) thread split resumes
  have stays := closed_subset_loadThreads probeMap _
    (loadThread_idle probeMap (empty.loadThreads probeMap earlier) thread) later isClosed
  have sameRun : ((empty.loadThreads probeMap earlier).loadThread probeMap thread).loadThreads
      probeMap later = empty.loadThreads probeMap (earlier ++ thread :: later) := by
    simp [loadThreads]
  rw [sameRun] at stays
  obtain ⟨ref, found⟩ := List.getElem?_of_mem stays
  exact ⟨ref, segment, fate, found, resumed, head, cut⟩

theorem closed_unique {outline : Outline} (distinct : outline.held.Nodup) {first second : Nat}
    {left right : Segment × Fate} {counter : Counter}
    (foundLeft : outline.closed[first]? = some left)
    (foundRight : outline.closed[second]? = some right)
    (inLeft : counter ∈ left.1.counters) (inRight : counter ∈ right.1.counters) :
    first = second := by
  simp only [held, List.append_assoc, List.nodup_append] at distinct
  exact index_eq_of_nodup_flatMap distinct.1 foundLeft foundRight inLeft inRight

theorem not_loose_of_closed {outline : Outline} (distinct : outline.held.Nodup)
    {entry : Segment × Fate} {counter : Counter} (closed : entry ∈ outline.closed)
    (member : counter ∈ entry.1.counters) : counter ∉ outline.loose ∧ counter ∉ outline.stray := by
  have inClosed : counter ∈ outline.closed.flatMap fun entry => entry.1.counters :=
    List.mem_flatMap.mpr ⟨entry, closed, member⟩
  simp only [held, List.append_assoc, List.nodup_append] at distinct
  have apart := distinct.2.2 counter inClosed
  constructor
  · intro isLoose
    exact apart counter (by simp [isLoose]) rfl
  · intro isStray
    exact apart counter (by simp [isStray]) rfl

end Outline

namespace Loader

def InTxns (loader : Loader) (counter : Counter) : Prop :=
  ∃ entry ∈ loader.txns, counter ∈ (loader.heap.cell entry.2).counters

def InCompromised (loader : Loader) (counter : Counter) : Prop :=
  ∃ txn ∈ loader.compromisedTxns, counter ∈ (loader.heap.cell txn).counters

end Loader

/-- The collection returns, no counter is lost, and none is reported both as part of an intact
and of a compromised transaction. -/
def Conserves (probeMap : Probe → Probe) (threads : List Thread) : Prop :=
  ∃ fuel loader, (Loader.new.loadThreads probeMap threads).endCollection fuel = some loader ∧
    (∀ thread ∈ threads, ∀ counter ∈ thread.counters,
      loader.InTxns counter ∨ loader.InCompromised counter ∨ counter ∈ loader.nonTxnCounters ∨
        counter ∈ loader.ephemeralCounters) ∧
    ∀ counter, ¬(loader.InTxns counter ∧ loader.InCompromised counter)

section Settled

variable {outline : Outline} {loader loader' : Loader}

def JoinSettles (outline : Outline) (fragments : TxnFragments) : Prop :=
  ∀ ref segment fate linkId, outline.closed[ref]? = some (segment, fate) →
    segment.origin = .resumed linkId →
    ((∃ fragment, fragments.Reached fragment ∧ fragments.txnOf fragment = ref) ↔
      fate ≠ .compromised)

theorem collected_resumed (sound : outline.Sound probeMap) {fragments : TxnFragments} {ref : Nat}
    {segment : Segment} {fate : Fate} {linkId : Str}
    (found : outline.closed[ref]? = some (segment, fate))
    (resumed : segment.origin = .resumed linkId) :
    Collected outline fragments ref ↔
      ∃ fragment, fragments.Reached fragment ∧ fragments.txnOf fragment = ref := by
  constructor
  · rintro (intact | ⟨other, isOther, begun, _⟩ | reached)
    · obtain ⟨other, isOther⟩ := mem_refs.mp intact
      rw [found, Option.some.injEq, Prod.mk.injEq] at isOther
      have begun := (sound.closed _ (List.mem_of_getElem? found)).2
      rw [isOther.2, FateSound, resumed] at begun
      cases begun.1
    · rw [outline.segments_closed found, Option.some.injEq] at isOther
      rw [← isOther, resumed] at begun
      cases begun
    · exact reached
  · exact fun reached => .inr (.inr reached)

theorem not_suspended_of_compromised (sound : outline.Sound probeMap) {ref : Nat}
    {segment : Segment} (found : outline.closed[ref]? = some (segment, .compromised)) :
    ¬IsSuspended outline.segments ref := by
  rintro ⟨other, isOther, _, suspends⟩
  rw [outline.segments_closed found, Option.some.injEq] at isOther
  subst isOther
  obtain ⟨segmentSound, unbounded⟩ := sound.closed _ (List.mem_of_getElem? found)
  exact suspends (segmentSound.unlinked unbounded)

theorem not_intact_of_compromised {ref : Nat} {segment : Segment}
    (found : outline.closed[ref]? = some (segment, .compromised)) :
    ref ∉ refs .intact outline.closed := by
  intro intact
  obtain ⟨other, isOther⟩ := mem_refs.mp intact
  rw [found, Option.some.injEq, Prod.mk.injEq] at isOther
  cases isOther.2

theorem Outline.mem_held_of_closed (outline : Outline) {ref : Nat} {entry : Segment × Fate}
    {counter : Counter} (found : outline.closed[ref]? = some entry)
    (member : counter ∈ entry.1.counters) : counter ∈ outline.held := by
  simp only [Outline.held, List.append_assoc, List.mem_append, List.mem_flatMap]
  exact .inl ⟨entry, List.mem_of_getElem? found, member⟩

variable (refines : Refines outline loader) (sound : outline.Sound probeMap)
variable (distinct : outline.held.Nodup) {fuel : Nat}
variable (called : loader.endCollection fuel = some loader')

include refines sound called

theorem inCompromised_iff (counter : Counter) :
    loader'.InCompromised counter ↔ ∃ (ref : Nat) (segment : Segment),
      outline.closed[ref]? = some (segment, Fate.compromised) ∧ counter ∈ segment.counters := by
  obtain ⟨compromised, _, _, frame, _⟩ := endCollection_collects refines sound called
  have cell {ref : Nat} {segment : Segment}
      (found : outline.closed[ref]? = some (segment, .compromised)) :
      (loader'.heap.cell ref).counters = segment.counters := by
    rw [frame ref (refines.closed_lt found) (not_intact_of_compromised found)
      (not_suspended_of_compromised sound found), (refines.closed_cell found).1]
  rw [Loader.InCompromised, compromised, refines.compromised]
  constructor
  · rintro ⟨ref, member, held⟩
    obtain ⟨segment, found⟩ := mem_refs.mp member
    exact ⟨ref, segment, found, cell found ▸ held⟩
  · rintro ⟨ref, segment, found, held⟩
    exact ⟨ref, mem_refs.mpr ⟨segment, found⟩, cell found ▸ held⟩

include distinct

theorem inTxns_iff (idle : outline.current = none) {ref : Nat} {segment : Segment} {fate : Fate}
    {counter : Counter} (found : outline.closed[ref]? = some (segment, fate))
    (member : counter ∈ segment.counters) :
    loader'.InTxns counter ↔ Collected outline loader.fragments ref := by
  obtain ⟨_, _, _, _, collects⟩ := endCollection_collects refines sound called
  rw [Loader.InTxns, collects]
  constructor
  · rintro ⟨txn, collected, held⟩
    have allocated : txn < outline.closed.length := by
      rw [← List.length_map (f := Prod.fst), ← Refines.segments_idle idle]
      rcases collected with intact | ⟨other, isOther, _⟩ | ⟨fragment, reached, rfl⟩
      · obtain ⟨other, isOther⟩ := mem_refs.mp intact
        exact (List.getElem?_eq_some_iff.mp (outline.segments_closed isOther)).1
      · exact (List.getElem?_eq_some_iff.mp isOther).1
      · obtain ⟨other, _, isOther, _⟩ := reached_isResumed refines reached
        exact (List.getElem?_eq_some_iff.mp isOther).1
    have isClosed := List.getElem?_eq_getElem allocated
    rw [(refines.closed_entry isClosed).1] at held
    have same := Outline.closed_unique distinct isClosed found held member
    exact same ▸ collected
  · intro collected
    exact ⟨ref, collected, by rwa [(refines.closed_cell found).1]⟩

theorem compromised_iff {ref : Nat} {segment : Segment} {fate : Fate} {counter : Counter}
    (found : outline.closed[ref]? = some (segment, fate)) (member : counter ∈ segment.counters) :
    loader'.InCompromised counter ↔ fate = .compromised := by
  rw [inCompromised_iff refines sound called]
  constructor
  · rintro ⟨other, otherSegment, isOther, inOther⟩
    have same := Outline.closed_unique distinct isOther found inOther member
    rw [same, found, Option.some.injEq, Prod.mk.injEq] at isOther
    exact isOther.2
  · rintro rfl
    exact ⟨ref, segment, found, member⟩

theorem accounted_iff (idle : outline.current = none) :
    ((∀ counter ∈ outline.held,
      loader'.InTxns counter ∨ loader'.InCompromised counter ∨ counter ∈ loader'.nonTxnCounters ∨
        counter ∈ loader'.ephemeralCounters) ∧
      ∀ counter, ¬(loader'.InTxns counter ∧ loader'.InCompromised counter)) ↔
    JoinSettles outline loader.fragments := by
  obtain ⟨_, stray, loose, _, _⟩ := endCollection_collects refines sound called
  have inTxns {ref : Nat} {segment : Segment} {fate : Fate} {counter : Counter}
      (found : outline.closed[ref]? = some (segment, fate)) (member : counter ∈ segment.counters) :=
    inTxns_iff refines sound distinct called idle found member
  have inCompromised {ref : Nat} {segment : Segment} {fate : Fate} {counter : Counter}
      (found : outline.closed[ref]? = some (segment, fate)) (member : counter ∈ segment.counters) :=
    compromised_iff refines sound distinct called found member
  rw [stray, loose, refines.stray, refines.loose]
  constructor
  · rintro ⟨accounted, exclusive⟩ ref segment fate linkId found resumed
    obtain ⟨first, rest, split, _⟩ := (sound.closed _ (List.mem_of_getElem? found)).1.opened
    have member : first ∈ segment.counters := by
      rw [show segment.counters = first :: rest from split]
      exact List.mem_cons_self
    rw [← collected_resumed sound found resumed, ← inTxns found member, Ne,
      ← inCompromised found member]
    constructor
    · exact fun inside both => exclusive first ⟨inside, both⟩
    · intro notCompromised
      obtain ⟨notLoose, notStray⟩ :=
        Outline.not_loose_of_closed distinct (List.mem_of_getElem? found) member
      rcases accounted first (outline.mem_held_of_closed found member) with
        inside | isCompromised | isStray | isLoose
      · exact inside
      · exact absurd isCompromised notCompromised
      · exact absurd isStray notStray
      · exact absurd isLoose notLoose
  · intro settles
    constructor
    · intro counter held
      simp only [Outline.held, idle, Option.toList_none, List.flatMap_nil, List.append_nil,
        List.mem_append, List.mem_flatMap] at held
      rcases held with (⟨⟨segment, fate⟩, isClosed, member⟩ | isLoose) | isStray
      · obtain ⟨ref, found⟩ := List.getElem?_of_mem isClosed
        rw [inTxns found member, inCompromised found member]
        obtain ⟨segmentSound, fateSound⟩ := sound.closed _ isClosed
        cases fate with
        | intact => exact .inl (.inl (mem_refs.mpr ⟨segment, found⟩))
        | compromised => exact .inr (.inl rfl)
        | linked =>
            left
            cases origin : segment.origin with
            | begun =>
                refine .inr (.inl ⟨segment, outline.segments_closed found, origin, ?_⟩)
                have linked : segment.isLinked = true := fateSound.1
                simpa [Segment.isLinked, origin] using linked
            | resumed linkId =>
                exact .inr (.inr ((settles ref segment _ linkId found origin).mpr (by simp)))
            | headless => exact absurd origin fateSound.2
      · exact .inr (.inr (.inr isLoose))
      · exact .inr (.inr (.inl isStray))
    · rintro counter ⟨inside, isCompromised⟩
      obtain ⟨ref, segment, found, member⟩ :=
        (inCompromised_iff refines sound called counter).mp isCompromised
      rcases (inTxns found member).mp inside with intact | suspended | reached
      · exact not_intact_of_compromised found intact
      · exact not_suspended_of_compromised sound found suspended
      · obtain ⟨fragment, isReached, rfl⟩ := reached
        obtain ⟨other, linkId, isOther, resumed⟩ := reached_isResumed refines isReached
        rw [outline.segments_closed found, Option.some.injEq] at isOther
        subst isOther
        exact (settles _ segment _ linkId found resumed).mp ⟨fragment, isReached, rfl⟩ rfl

end Settled

theorem Reached.resumes {load : List Place} {first : Counter}
    (reached : Reached probeMap load first) : Resumed probeMap load first := by
  obtain ⟨_, _, reaches⟩ := reached
  obtain ⟨_, _, follows⟩ := Relation.TransGen.tail'_iff.mp reaches
  exact follows.1

theorem exists_closed_of_idle {outline : Outline} (idle : outline.current = none) {ref : Nat}
    {segment : Segment} (found : outline.segments[ref]? = some segment) :
    ∃ fate, outline.closed[ref]? = some (segment, fate) := by
  rw [Refines.segments_idle idle, List.getElem?_map, Option.map_eq_some_iff] at found
  obtain ⟨⟨_, fate⟩, isClosed, rfl⟩ := found
  exact ⟨fate, isClosed⟩

/-- The join comes by the fragments of the resumed transactions that are reached. -/
theorem reached_iff_join {load : List Place} {names : List Counter} {outline : Outline}
    (charted : Charted probeMap load names outline) (idle : outline.current = none)
    (distinct : outline.held.Nodup) {ref : Nat} {segment : Segment} {fate : Fate} {first : Counter}
    (found : outline.closed[ref]? = some (segment, fate))
    (head : segment.counters.head? = some first) :
    Reached probeMap load first ↔
      ∃ fragment, (fragmentsOf outline.segments).Reached fragment ∧
        (fragmentsOf outline.segments).txnOf fragment = ref := by
  constructor
  · intro reached
    obtain ⟨fragment, isFragment⟩ :=
      List.getElem?_of_mem (charted.linked.resumed first reached.resumes)
    refine ⟨fragment, (charted.reached_iff fragment).mpr ⟨first, isFragment, reached⟩, ?_⟩
    obtain ⟨other, isOther, sameHead⟩ := charted.heads fragment first isFragment reached.resumes.1
    obtain ⟨otherFate, isClosed⟩ := exists_closed_of_idle idle isOther
    exact Outline.closed_unique distinct isClosed found (List.mem_of_head? sameHead)
      (List.mem_of_head? head)
  · rintro ⟨fragment, isReached, rfl⟩
    obtain ⟨other, isFragment, reached⟩ := (charted.reached_iff fragment).mp isReached
    obtain ⟨_, isSegment, sameHead⟩ := charted.heads fragment other isFragment reached.resumes.1
    rw [outline.segments_closed found, Option.some.injEq] at isSegment
    rw [← isSegment, head, Option.some.injEq] at sameHead
    exact sameHead ▸ reached

section Threads

variable (probeMap) (threads : List Thread)

theorem held_loadThreads :
    (Outline.empty.loadThreads probeMap threads).held.Perm (threads.flatMap Thread.counters) := by
  have perm := Outline.loadThreads_held probeMap Outline.empty threads
  simpa [Outline.held, Outline.empty] using perm

variable (distinct : (threads.flatMap Thread.counters).Nodup)

include distinct

theorem charted_loadThreads :
    ∃ names, Charted probeMap (placesOf threads) names
      (Outline.empty.loadThreads probeMap threads) := by
  have charted : Charted probeMap [] [] .empty := .empty
  exact charted.loadThreads rfl distinct

theorem joinSettles_iff :
    JoinSettles (Outline.empty.loadThreads probeMap threads)
        (Loader.new.loadThreads probeMap threads).fragments ↔
      ∀ thread ∈ threads, ∀ before first rest, thread.counters = before ++ first :: rest →
        roleOf probeMap first = .resumes →
        (Reached probeMap (placesOf threads) first ↔
          ¬∀ counter ∈ rest, (roleOf probeMap counter).continues) := by
  have refines := loadThreads_refines probeMap threads
  have idle := Outline.loadThreads_idle probeMap .empty rfl threads
  obtain ⟨names, charted⟩ := charted_loadThreads probeMap threads distinct
  rw [refines.fragments]
  have sound := (Outline.Sound.fresh probeMap []).loadThreads threads
  have perm := held_loadThreads probeMap threads
  have heldDistinct := perm.nodup_iff.mpr distinct
  constructor
  · intro settles thread isThread before first rest split resumes
    obtain ⟨ref, segment, fate, found, resumed, head, cut⟩ :=
      Outline.resume_opens_threads isThread split resumes
    rw [reached_iff_join charted idle heldDistinct found head, ← cut]
    exact settles ref segment fate first.data found resumed
  · intro settled ref segment fate linkId found resumed
    obtain ⟨first, tail, counters, opened⟩ := (sound.closed _ (List.mem_of_getElem? found)).1.opened
    have sameCounters : segment.counters = first :: tail := counters
    have head : segment.counters.head? = some first := by rw [sameCounters]; rfl
    have isRole : roleOf probeMap first = .resumes := by
      rw [resumed] at opened
      exact opened.1
    have inHeld : first ∈ (Outline.empty.loadThreads probeMap threads).held := by
      simp only [Outline.held, List.append_assoc, List.mem_append, List.mem_flatMap]
      exact .inl ⟨_, List.mem_of_getElem? found, List.mem_of_head? head⟩
    obtain ⟨thread, isThread, inThread⟩ := List.mem_flatMap.mp (perm.mem_iff.mp inHeld)
    obtain ⟨before, rest, split⟩ := List.append_of_mem inThread
    obtain ⟨other, otherSegment, otherFate, isOther, _, otherHead, cut⟩ :=
      Outline.resume_opens_threads isThread split isRole
    have same := Outline.closed_unique heldDistinct isOther found (List.mem_of_head? otherHead)
      (List.mem_of_head? head)
    rw [same, found, Option.some.injEq, Prod.mk.injEq] at isOther
    rw [← reached_iff_join charted idle heldDistinct found head, isOther.2, Ne, cut]
    exact settled thread isThread before first rest split isRole

/-- Counters are conserved exactly when no resumed transaction that is reached leads back to
itself and a resumed transaction is reached just when its thread goes on to end, suspend or
resume. -/
theorem conserves_iff :
    Conserves probeMap threads ↔
      (∀ first, Reached probeMap (placesOf threads) first →
        ¬Relation.TransGen (Follows probeMap (placesOf threads)) first first) ∧
      ∀ thread ∈ threads, ∀ before first rest, thread.counters = before ++ first :: rest →
        roleOf probeMap first = .resumes →
        (Reached probeMap (placesOf threads) first ↔
          ¬∀ counter ∈ rest, (roleOf probeMap counter).continues) := by
  have refines := loadThreads_refines probeMap threads
  have idle := Outline.loadThreads_idle probeMap .empty rfl threads
  have sound := (Outline.Sound.fresh probeMap []).loadThreads threads
  have perm := held_loadThreads probeMap threads
  have heldDistinct := perm.nodup_iff.mpr distinct
  have sameCounters (counter : Counter) : counter ∈ (Outline.empty.loadThreads probeMap threads).held ↔
      ∃ thread ∈ threads, counter ∈ thread.counters := by
    rw [perm.mem_iff, List.mem_flatMap]
  obtain ⟨names, charted⟩ := charted_loadThreads probeMap threads distinct
  rw [← joinSettles_iff probeMap threads distinct, ← charted.linksFinite_iff, ← refines.fragments,
    ← exists_endCollection_iff]
  constructor
  · rintro ⟨fuel, loader, called, accounted, exclusive⟩
    refine ⟨⟨fuel, loader, called⟩, ?_⟩
    refine (accounted_iff refines sound heldDistinct called idle).mp ⟨?_, exclusive⟩
    intro counter held
    obtain ⟨thread, isThread, member⟩ := (sameCounters counter).mp held
    exact accounted thread isThread counter member
  · rintro ⟨⟨fuel, loader, called⟩, settles⟩
    obtain ⟨accounted, exclusive⟩ :=
      (accounted_iff refines sound heldDistinct called idle).mpr settles
    refine ⟨fuel, loader, called, ?_, exclusive⟩
    intro thread isThread counter member
    exact accounted counter ((sameCounters counter).mpr ⟨thread, isThread, member⟩)

end Threads

section Resumed

def beginning : Counter := ⟨0, .txnBeginProbe, [], 1⟩

def suspending : Counter := ⟨1, .txnSuspendProbe, [], 2⟩

def resuming : Counter := ⟨2, .txnResumeProbe, '2' :: List.replicate 16 '1', 3⟩

def ending : Counter := ⟨3, .txnEndProbe, [], 4⟩

def suspendedAndResumed : List Thread :=
  [⟨List.replicate 16 '1', [beginning, suspending]⟩, ⟨List.replicate 16 '2', [resuming, ending]⟩]

theorem conserves_suspendedAndResumed : Conserves id suspendedAndResumed := by
  have load : placesOf suspendedAndResumed =
      [⟨List.replicate 16 '1', [], beginning⟩, ⟨List.replicate 16 '1', [beginning], suspending⟩,
        ⟨List.replicate 16 '2', [], resuming⟩, ⟨List.replicate 16 '2', [resuming], ending⟩] := rfl
  have begun : BegunBefore id [beginning] := by
    refine ⟨⟨_, List.mem_singleton.mpr rfl, by decide⟩, fun first resumedBy => ?_⟩
    obtain ⟨member, resumes⟩ := resumedBy.mem
    rw [List.mem_singleton.mp member] at resumes
    exact absurd resumes (by decide)
  have suspends : Place.Suspends id ⟨List.replicate 16 '1', [beginning], suspending⟩ suspending
      ('2' :: List.replicate 16 '1') := ⟨by decide, by decide, .inr ⟨begun, rfl⟩⟩
  have follows : Follows id (placesOf suspendedAndResumed) suspending resuming := by
    rw [load]
    refine ⟨⟨by decide, ⟨List.replicate 16 '2', [], resuming⟩, by simp, rfl⟩,
      [⟨List.replicate 16 '1', [], beginning⟩, ⟨List.replicate 16 '1', [beginning], suspending⟩],
      ⟨List.replicate 16 '2', [], resuming⟩, [⟨List.replicate 16 '2', [resuming], ending⟩], rfl,
      .inr ⟨⟨by decide, rfl⟩, ?_, [⟨List.replicate 16 '1', [], beginning⟩], _, [], rfl, suspends,
        by simp⟩, ?_⟩
    · intro other member resumes
      have role := resumes.1
      simp only [List.mem_cons, List.not_mem_nil, or_false] at member
      rcases member with rfl | rfl <;> exact absurd role (by decide)
    · intro between other after split linkId connects
      have isLast : other = ⟨List.replicate 16 '2', [resuming], ending⟩ := by
        cases between with
        | nil => exact (List.cons.inj split).1.symm
        | cons first rest => simp at split
      rcases connects with ⟨isSuspends, _⟩ | ⟨isResumes, _⟩
      · exact absurd (isLast ▸ isSuspends.1) (by decide)
      · exact absurd (isLast ▸ isResumes.1) (by decide)
  have reached : Reached id (placesOf suspendedAndResumed) resuming := by
    refine ⟨suspending, ⟨⟨List.replicate 16 '1', [beginning], suspending⟩, ?_, by decide, begun, rfl⟩,
      .single follows⟩
    simp [load]
  refine (conserves_iff id suspendedAndResumed (by decide)).mpr ⟨?_, ?_⟩
  · intro first isReached cycle
    obtain ⟨next, isNext, _⟩ := Relation.TransGen.head'_iff.mp cycle
    obtain ⟨place, member, linkId, isSuspends⟩ := isNext.2.suspended
    -- only `suspending` leads on, and it is no resumed counter
    have same : first = suspending := by
      have role := isSuspends.1
      simp only [load, List.mem_cons, List.not_mem_nil, or_false] at member
      rcases member with rfl | rfl | rfl | rfl
      · exact absurd role (by decide)
      · exact (isSuspends.unique suspends).1
      · exact absurd role (by decide)
      · exact absurd role (by decide)
    exact absurd (same ▸ isReached.resumes.1) (by decide)
  · intro thread isThread before first rest split resumes
    have isResuming : first = resuming ∧ rest = [ending] := by
      simp only [suspendedAndResumed, List.mem_cons, List.not_mem_nil, or_false] at isThread
      rcases isThread with rfl | rfl <;> rcases before with _ | ⟨_, _ | ⟨_, before⟩⟩ <;>
        simp only [List.nil_append, List.cons_append, List.cons.injEq] at split
      · exact absurd (split.1 ▸ resumes) (by decide)
      · exact absurd (split.2.1 ▸ resumes) (by decide)
      · simp at split
      · exact ⟨split.1.symm, split.2.symm⟩
      · exact absurd (split.2.1 ▸ resumes) (by decide)
      · simp at split
    obtain ⟨rfl, rfl⟩ := isResuming
    have ends : roleOf id ending = .ends := by decide
    refine iff_of_true reached fun continues => ?_
    exact absurd (continues ending (by simp)) (by simp [Role.continues, ends])

end Resumed

/-- A resume counter without a suspended transaction to resume, then an end counter: both
counters are gone after the collection. -/
theorem not_conserves_orphaned_resume :
    ¬Conserves id [⟨List.replicate 16 '1',
      [⟨0, .txnResumeProbe, ['f'], 1⟩, ⟨1, .txnEndProbe, [], 2⟩]⟩] := by
  rintro ⟨fuel, loader, called, accounted, _⟩
  have noTxns : loader.txns = [] := by
    cases called
    decide
  have noCompromised : loader.compromisedTxns = [] := by
    cases called
    decide
  have noStray : loader.nonTxnCounters = [] := by
    cases called
    decide
  have noLoose : loader.ephemeralCounters = [] := by
    cases called
    decide
  rcases accounted _ (List.mem_singleton.mpr rfl) ⟨0, .txnResumeProbe, ['f'], 1⟩ (by simp) with
    ⟨entry, member, _⟩ | ⟨txn, member, _⟩ | isStray | isLoose
  · simp [noTxns] at member
  · simp [noCompromised] at member
  · simp [noStray] at isStray
  · simp [noLoose] at isLoose

end Xpedite.Txn
