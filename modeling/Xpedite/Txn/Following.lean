import Mathlib.Logic.Relation
import Xpedite.Lib.Snoc
import Xpedite.Txn.Streams

/-!
Which resumed transactions the join comes by, told from the counters alone.  A suspended
transaction leads to those that resume one of its link ids; which one is decided by the
last counter that connected the two in the order of loading.
-/

namespace Xpedite.Txn

open Xpedite.Lib

structure Place where
  tlsAddr : Str
  before : List Counter
  counter : Counter

def Thread.places (thread : Thread) : List Place :=
  thread.counters.zipIdx.map fun (counter, index) =>
    ⟨thread.tlsAddr, thread.counters.take index, counter⟩

def placesOf (threads : List Thread) : List Place := threads.flatMap Thread.places

variable (probeMap : Probe → Probe)

/-- The transaction that is open after these counters was resumed by `first`: a begin counter
behind an end or suspend counter would have opened another one. -/
def ResumedBy (counters : List Counter) (first : Counter) : Prop :=
  ∃ earlier between, counters = earlier ++ first :: between ∧ roleOf probeMap first = .resumes ∧
    (∀ counter ∈ between, roleOf probeMap counter ≠ .resumes) ∧
    between.Pairwise fun counter later =>
      (roleOf probeMap counter).bounds → roleOf probeMap later ≠ .begins

def BegunBefore (counters : List Counter) : Prop :=
  (∃ counter ∈ counters, roleOf probeMap counter = .begins) ∧
    ∀ first, ¬ResumedBy probeMap counters first

/-- A suspended transaction goes by the counter that resumed it, one that began by the counter
that suspends it. -/
def Place.Suspends (place : Place) (node : Counter) (linkId : Str) : Prop :=
  roleOf probeMap place.counter = .suspends ∧
    linkId = Loader.linkId place.counter.tsc place.tlsAddr ∧
    (ResumedBy probeMap place.before node ∨
      BegunBefore probeMap place.before ∧ node = place.counter)

def Place.Resumes (place : Place) (linkId : Str) : Prop :=
  roleOf probeMap place.counter = .resumes ∧ place.counter.data = linkId

/-- No other transaction was suspended with the link id since. -/
def LastSuspends (load : List Place) (node : Counter) (linkId : Str) : Prop :=
  ∃ earlier place later, load = earlier ++ place :: later ∧
    place.Suspends probeMap node linkId ∧
    ∀ other ∈ later, ∀ node', ¬other.Suspends probeMap node' linkId

/-- The transaction is suspended with a link id that was resumed already, or it is the last one
that was suspended with the link id when that is resumed for the first time. -/
def Place.Connects (earlier : List Place) (place : Place) (node : Counter) (linkId : Str) : Prop :=
  (place.Suspends probeMap node linkId ∧ ∃ other ∈ earlier, other.Resumes probeMap linkId) ∨
    (place.Resumes probeMap linkId ∧ (∀ other ∈ earlier, ¬other.Resumes probeMap linkId) ∧
      LastSuspends probeMap earlier node linkId)

def LeadsTo (load : List Place) (node : Counter) (linkId : Str) : Prop :=
  ∃ earlier place later, load = earlier ++ place :: later ∧
    place.Connects probeMap earlier node linkId ∧
    ∀ between other after, later = between ++ other :: after →
      ∀ linkId', ¬other.Connects probeMap (earlier ++ place :: between) node linkId'

def Resumed (load : List Place) (first : Counter) : Prop :=
  roleOf probeMap first = .resumes ∧ ∃ place ∈ load, place.counter = first

def Follows (load : List Place) (node first : Counter) : Prop :=
  Resumed probeMap load first ∧ LeadsTo probeMap load node first.data

/-- A counter that suspends a transaction that began. -/
def IsRoot (load : List Place) (root : Counter) : Prop :=
  ∃ place ∈ load, roleOf probeMap place.counter = .suspends ∧
    BegunBefore probeMap place.before ∧ place.counter = root

def Reached (load : List Place) (first : Counter) : Prop :=
  ∃ root, IsRoot probeMap load root ∧ Relation.TransGen (Follows probeMap load) root first

variable {probeMap}

section Open

variable {counters : List Counter} {counter first other : Counter}

theorem split_unique {earlier earlier' between between' : List Counter}
    (same : earlier ++ first :: between = earlier' ++ other :: between')
    (resumes : roleOf probeMap first = .resumes) (resumes' : roleOf probeMap other = .resumes)
    (none : ∀ counter ∈ between, roleOf probeMap counter ≠ .resumes)
    (none' : ∀ counter ∈ between', roleOf probeMap counter ≠ .resumes) :
    first = other ∧ between = between' := by
  rcases List.append_eq_append_iff.mp same with ⟨gap, _, tail⟩ | ⟨gap, _, tail⟩
  · cases gap with
    | nil =>
        rw [List.nil_append, List.cons.injEq] at tail
        exact tail
    | cons head rest =>
        rw [List.cons_append, List.cons.injEq] at tail
        exact absurd resumes' (none other (by simp [tail.2]))
  · cases gap with
    | nil =>
        rw [List.nil_append, List.cons.injEq] at tail
        exact ⟨tail.1.symm, tail.2.symm⟩
    | cons head rest =>
        rw [List.cons_append, List.cons.injEq] at tail
        exact absurd resumes (none' first (by simp [tail.2]))

theorem ResumedBy.unique (resumed : ResumedBy probeMap counters first)
    (resumed' : ResumedBy probeMap counters other) : first = other := by
  obtain ⟨_, _, rfl, resumes, none, _⟩ := resumed
  obtain ⟨_, _, same, resumes', none', _⟩ := resumed'
  exact (split_unique same resumes resumes' none none').1

theorem ResumedBy.mem (resumed : ResumedBy probeMap counters first) :
    first ∈ counters ∧ roleOf probeMap first = .resumes := by
  obtain ⟨_, _, rfl, resumes, _⟩ := resumed
  exact ⟨by simp, resumes⟩

theorem ResumedBy.of_snoc (resumed : ResumedBy probeMap (counters ++ [counter]) first)
    (other : roleOf probeMap counter ≠ .resumes) : ResumedBy probeMap counters first := by
  obtain ⟨earlier, between, split, resumes, none, ordered⟩ := resumed
  rcases snoc_eq_append_cons.mp split with ⟨_, _, rfl⟩ | ⟨between, rfl, rfl⟩
  · exact absurd resumes other
  · exact ⟨earlier, between, rfl, resumes, fun c member => none c (by simp [member]),
      (List.pairwise_append.mp ordered).1⟩

theorem BegunBefore.snoc (begun : BegunBefore probeMap counters) {counter : Counter}
    (other : roleOf probeMap counter ≠ .resumes) :
    BegunBefore probeMap (counters ++ [counter]) := by
  obtain ⟨⟨opener, member, begins⟩, none⟩ := begun
  exact ⟨⟨opener, by simp [member], begins⟩, fun first resumed => none first (resumed.of_snoc other)⟩

end Open

theorem head?_append_of_some {first : Counter} {counters more : List Counter}
    (head : counters.head? = some first) : (counters ++ more).head? = some first := by
  rw [List.head?_append, head]
  rfl

theorem head?_bound {segment : Segment} {first : Counter}
    (head : segment.counters.head? = some first) (loose : List Counter) (counter : Counter) :
    (segment.bound loose counter).counters.head? = some first :=
  head?_append_of_some (head?_append_of_some head)

inductive Opened (probeMap : Probe → Probe) (counters : List Counter) (outline : Outline) : Prop where
  | idle (isOpen : outline.current = none)
      (unopened : ∀ counter ∈ counters,
        roleOf probeMap counter ≠ .resumes ∧ roleOf probeMap counter ≠ .begins)
  | begun (segment : Segment) (isOpen : outline.current = some segment)
      (origin : segment.origin = .begun) (begun : BegunBefore probeMap counters)
  | resumed (segment : Segment) (earlier : List Counter) (first : Counter) (between : List Counter)
      (isOpen : outline.current = some segment) (origin : segment.origin = .resumed first.data)
      (head : segment.counters.head? = some first)
      (split : counters = earlier ++ first :: between)
      (resumes : roleOf probeMap first = .resumes)
      (others : ∀ counter ∈ between, roleOf probeMap counter ≠ .resumes)
      (ordered : between.Pairwise fun counter later =>
        (roleOf probeMap counter).bounds → roleOf probeMap later ≠ .begins)
      (bounded : segment.bounded = true ↔ ∃ counter ∈ between, (roleOf probeMap counter).bounds)

namespace Opened

variable {counters : List Counter} {outline : Outline} {counter : Counter}

theorem idle_snoc (isOpen : outline.current = none)
    (unopened : ∀ counter ∈ counters,
      roleOf probeMap counter ≠ .resumes ∧ roleOf probeMap counter ≠ .begins) (tlsAddr : Str) :
    Opened probeMap (counters ++ [counter])
      (outline.loadCounter tlsAddr (roleOf probeMap counter) counter) := by
  have unopened_snoc (notResumes : roleOf probeMap counter ≠ .resumes)
      (notBegins : roleOf probeMap counter ≠ .begins) :
      ∀ other ∈ counters ++ [counter],
        roleOf probeMap other ≠ .resumes ∧ roleOf probeMap other ≠ .begins :=
    List.forall_mem_append.mpr ⟨unopened, List.forall_mem_singleton.mpr ⟨notResumes, notBegins⟩⟩
  cases role : roleOf probeMap counter with
  | resumes =>
      exact .resumed (.start (.resumed counter.data) counter) counters counter []
        (by simp [Outline.loadCounter, isOpen, Outline.openSegment]) rfl rfl rfl role (by simp)
        .nil (by simp [Segment.start])
  | begins =>
      refine .begun (.start .begun counter)
        (by simp [Outline.loadCounter, isOpen, Outline.openSegment]) rfl
        ⟨⟨counter, by simp, role⟩, ?_⟩
      intro first resumed
      obtain ⟨member, resumes⟩ := (resumed.of_snoc (by simp [role])).mem
      exact (unopened first member).1 resumes
  | suspends =>
      exact .idle (by simp [Outline.loadCounter, isOpen, Outline.close])
        (unopened_snoc (by simp [role]) (by simp [role]))
  | ends =>
      exact .idle (by simp [Outline.loadCounter, isOpen, Outline.close])
        (unopened_snoc (by simp [role]) (by simp [role]))
  | plain =>
      exact .idle (by simp [Outline.loadCounter, isOpen])
        (unopened_snoc (by simp [role]) (by simp [role]))

theorem begun_snoc {segment : Segment} (isOpen : outline.current = some segment)
    (origin : segment.origin = .begun) (begun : BegunBefore probeMap counters) (tlsAddr : Str) :
    Opened probeMap (counters ++ [counter])
      (outline.loadCounter tlsAddr (roleOf probeMap counter) counter) := by
  cases role : roleOf probeMap counter with
  | resumes =>
      exact .resumed (.start (.resumed counter.data) counter) counters counter []
        (by simp [Outline.loadCounter, isOpen, Outline.close, Outline.openSegment]) rfl rfl rfl role
        (by simp) .nil (by simp [Segment.start])
  | begins =>
      have stillBegun := @BegunBefore.snoc probeMap counters begun counter (by simp [role])
      cases bounded : segment.bounded with
      | true =>
          exact .begun (.start .begun counter)
            (by simp [Outline.loadCounter, isOpen, bounded, Outline.close, Outline.openSegment]) rfl
            stillBegun
      | false =>
          exact .begun (segment.add counter)
            (by simp [Outline.loadCounter, isOpen, bounded]) origin stillBegun
  | suspends =>
      exact .begun
        ((segment.bound outline.loose counter).suspendAt (Loader.linkId counter.tsc tlsAddr))
        (by simp only [Outline.loadCounter, isOpen]) origin (begun.snoc (by simp [role]))
  | ends =>
      exact .begun (segment.bound outline.loose counter)
        (by simp only [Outline.loadCounter, isOpen]) origin (begun.snoc (by simp [role]))
  | plain =>
      have stillBegun := @BegunBefore.snoc probeMap counters begun counter (by simp [role])
      cases bounded : segment.bounded with
      | true =>
          exact .begun segment (by simp [Outline.loadCounter, isOpen, bounded]) origin stillBegun
      | false =>
          exact .begun (segment.add counter)
            (by simp [Outline.loadCounter, isOpen, bounded]) origin stillBegun

theorem pairwise_snoc {between : List Counter}
    (ordered : between.Pairwise fun counter later =>
      (roleOf probeMap counter).bounds → roleOf probeMap later ≠ .begins)
    (unbounded : roleOf probeMap counter = .begins →
      ¬∃ bounding ∈ between, (roleOf probeMap bounding).bounds) :
    (between ++ [counter]).Pairwise fun counter later =>
      (roleOf probeMap counter).bounds → roleOf probeMap later ≠ .begins := by
  refine List.pairwise_append.mpr ⟨ordered, List.pairwise_singleton _ _, ?_⟩
  intro bounding member later isLater bounds begins
  rw [List.mem_singleton.mp isLater] at begins
  exact unbounded begins ⟨bounding, member, bounds⟩

theorem resumed_snoc {segment : Segment} {earlier between : List Counter} {first : Counter}
    (isOpen : outline.current = some segment) (origin : segment.origin = .resumed first.data)
    (head : segment.counters.head? = some first) (split : counters = earlier ++ first :: between)
    (resumes : roleOf probeMap first = .resumes)
    (others : ∀ counter ∈ between, roleOf probeMap counter ≠ .resumes)
    (ordered : between.Pairwise fun counter later =>
      (roleOf probeMap counter).bounds → roleOf probeMap later ≠ .begins)
    (bounded : segment.bounded = true ↔ ∃ counter ∈ between, (roleOf probeMap counter).bounds)
    (tlsAddr : Str) :
    Opened probeMap (counters ++ [counter])
      (outline.loadCounter tlsAddr (roleOf probeMap counter) counter) := by
  have splitSnoc : counters ++ [counter] = earlier ++ first :: (between ++ [counter]) := by
    simp [split]
  have othersSnoc (notResumes : roleOf probeMap counter ≠ .resumes) :
      ∀ other ∈ between ++ [counter], roleOf probeMap other ≠ .resumes :=
    List.forall_mem_append.mpr ⟨others, List.forall_mem_singleton.mpr notResumes⟩
  have boundedSnoc : (∃ other ∈ between ++ [counter], (roleOf probeMap other).bounds) ↔
      segment.bounded = true ∨ (roleOf probeMap counter).bounds := by
    rw [bounded]
    simp [or_and_right, exists_or]
  cases role : roleOf probeMap counter with
  | resumes =>
      exact .resumed (.start (.resumed counter.data) counter) counters counter []
        (by simp [Outline.loadCounter, isOpen, Outline.close, Outline.openSegment]) rfl rfl rfl role
        (by simp) .nil (by simp [Segment.start])
  | begins =>
      cases isBounded : segment.bounded with
      | true =>
          refine .begun (.start .begun counter)
            (by simp [Outline.loadCounter, isOpen, isBounded, Outline.close, Outline.openSegment])
            rfl ⟨⟨counter, by simp, role⟩, ?_⟩
          rintro other ⟨earlier', between', same, resumes', none', ordered'⟩
          obtain ⟨_, rfl⟩ := split_unique (splitSnoc.symm.trans same) resumes resumes'
            (othersSnoc (by simp [role])) none'
          obtain ⟨bounding, member, bounds⟩ := bounded.mp isBounded
          exact (List.pairwise_append.mp ordered').2.2 bounding member counter (by simp) bounds role
      | false =>
          refine .resumed (segment.add counter) earlier first (between ++ [counter])
            (by simp [Outline.loadCounter, isOpen, isBounded]) origin
            (head?_append_of_some head) splitSnoc resumes (othersSnoc (by simp [role]))
            (pairwise_snoc ordered fun _ => ?_) ?_
          · simp [← bounded, isBounded]
          · rw [boundedSnoc, role]
            simp [Segment.add, Role.bounds]
  | suspends =>
      refine .resumed ((segment.bound outline.loose counter).suspendAt
          (Loader.linkId counter.tsc tlsAddr)) earlier first (between ++ [counter])
        (by simp only [Outline.loadCounter, isOpen]) origin (head?_bound head _ _) splitSnoc resumes
        (othersSnoc (by simp [role])) (pairwise_snoc ordered (by simp [role])) ?_
      rw [boundedSnoc, role]
      simp [Segment.suspendAt, Segment.bound, Role.bounds]
  | ends =>
      refine .resumed (segment.bound outline.loose counter) earlier first (between ++ [counter])
        (by simp only [Outline.loadCounter, isOpen]) origin (head?_bound head _ _) splitSnoc resumes
        (othersSnoc (by simp [role])) (pairwise_snoc ordered (by simp [role])) ?_
      rw [boundedSnoc, role]
      simp [Segment.bound, Role.bounds]
  | plain =>
      have plainBounded (segment' : Segment) (same : segment'.bounded = segment.bounded) :
          segment'.bounded = true ↔
            ∃ other ∈ between ++ [counter], (roleOf probeMap other).bounds := by
        rw [boundedSnoc, role, same]
        simp [Role.bounds]
      cases isBounded : segment.bounded with
      | true =>
          exact .resumed segment earlier first (between ++ [counter])
            (by simp [Outline.loadCounter, isOpen, isBounded]) origin head splitSnoc resumes
            (othersSnoc (by simp [role])) (pairwise_snoc ordered (by simp [role]))
            (plainBounded _ rfl)
      | false =>
          exact .resumed (segment.add counter) earlier first (between ++ [counter])
            (by simp [Outline.loadCounter, isOpen, isBounded]) origin
            (head?_append_of_some head) splitSnoc resumes (othersSnoc (by simp [role]))
            (pairwise_snoc ordered (by simp [role])) (plainBounded _ rfl)

theorem snoc (opened : Opened probeMap counters outline) (tlsAddr : Str) (counter : Counter) :
    Opened probeMap (counters ++ [counter])
      (outline.loadCounter tlsAddr (roleOf probeMap counter) counter) := by
  cases opened with
  | idle isOpen unopened => exact idle_snoc isOpen unopened tlsAddr
  | begun segment isOpen origin begun => exact begun_snoc isOpen origin begun tlsAddr
  | resumed segment earlier first between isOpen origin head split resumes others ordered bounded =>
      exact resumed_snoc isOpen origin head split resumes others ordered bounded tlsAddr

end Opened

section Suspends

variable {place : Place} {node node' : Counter} {linkId : Str} {outline : Outline}

theorem Place.Suspends.unique {linkId' : Str} (suspends : place.Suspends probeMap node linkId)
    (suspends' : place.Suspends probeMap node' linkId') : node = node' ∧ linkId = linkId' := by
  obtain ⟨_, rfl, resumed | ⟨begun, rfl⟩⟩ := suspends <;>
    obtain ⟨_, rfl, resumed' | ⟨begun', rfl⟩⟩ := suspends'
  · exact ⟨resumed.unique resumed', rfl⟩
  · exact absurd resumed (begun'.2 node)
  · exact absurd resumed' (begun.2 node')
  · exact ⟨rfl, rfl⟩

theorem not_suspends_of_idle (unopened : ∀ counter ∈ place.before,
    roleOf probeMap counter ≠ .resumes ∧ roleOf probeMap counter ≠ .begins) :
    ¬place.Suspends probeMap node linkId := by
  rintro ⟨_, _, resumed | ⟨⟨⟨opener, member, begins⟩, _⟩, _⟩⟩
  · exact (unopened node resumed.mem.1).1 resumed.mem.2
  · exact (unopened opener member).2 begins

theorem not_suspends_of_role (other : roleOf probeMap place.counter ≠ .suspends) :
    ¬place.Suspends probeMap node linkId := fun suspends => other suspends.1

theorem not_resumes_of_role (other : roleOf probeMap place.counter ≠ .resumes) :
    ¬place.Resumes probeMap linkId := fun resumes => other resumes.1

end Suspends

section Snoc

variable {load : List Place} {place : Place} {node : Counter} {linkId : Str}

theorem lastSuspends_snoc :
    LastSuspends probeMap (load ++ [place]) node linkId ↔
      place.Suspends probeMap node linkId ∨
        (∀ node', ¬place.Suspends probeMap node' linkId) ∧
          LastSuspends probeMap load node linkId := by
  constructor
  · rintro ⟨earlier, last, later, split, suspends, none⟩
    rcases snoc_eq_append_cons.mp split with ⟨_, _, rfl⟩ | ⟨later, rfl, rfl⟩
    · exact .inl suspends
    · exact .inr ⟨none place (by simp), earlier, last, later, rfl, suspends,
        fun other member => none other (by simp [member])⟩
  · rintro (suspends | ⟨none, earlier, last, later, rfl, suspends, others⟩)
    · exact ⟨load, place, [], rfl, suspends, by simp⟩
    · refine ⟨earlier, last, later ++ [place], by simp, suspends, ?_⟩
      exact List.forall_mem_append.mpr ⟨others, List.forall_mem_singleton.mpr none⟩

theorem leadsTo_snoc :
    LeadsTo probeMap (load ++ [place]) node linkId ↔
      place.Connects probeMap load node linkId ∨
        (∀ linkId', ¬place.Connects probeMap load node linkId') ∧
          LeadsTo probeMap load node linkId := by
  constructor
  · rintro ⟨earlier, last, later, split, connects, none⟩
    rcases snoc_eq_append_cons.mp split with ⟨_, rfl, rfl⟩ | ⟨later, rfl, rfl⟩
    · exact .inl connects
    · refine .inr ⟨none later place [] rfl, earlier, last, later, rfl, connects, ?_⟩
      rintro between other after rfl
      exact none between other (after ++ [place]) (by simp)
  · rintro (connects | ⟨none, earlier, last, later, rfl, connects, others⟩)
    · exact ⟨load, place, [], rfl, connects, by simp⟩
    · refine ⟨earlier, last, later ++ [place], by simp, connects, ?_⟩
      intro between other after split
      rcases snoc_eq_append_cons.mp split with ⟨_, rfl, rfl⟩ | ⟨after, rfl, rfl⟩
      · exact none
      · exact others between other after rfl

theorem resumed_snoc {first : Counter} :
    Resumed probeMap (load ++ [place]) first ↔
      Resumed probeMap load first ∨
        (roleOf probeMap place.counter = .resumes ∧ place.counter = first) := by
  simp only [Resumed, List.mem_append, List.mem_singleton, or_and_right, exists_or, exists_eq_left,
    and_or_left]
  refine or_congr_right ⟨?_, ?_⟩
  · rintro ⟨resumes, rfl⟩
    exact ⟨resumes, rfl⟩
  · rintro ⟨resumes, rfl⟩
    exact ⟨resumes, rfl⟩

theorem isRoot_snoc {root : Counter} :
    IsRoot probeMap (load ++ [place]) root ↔
      IsRoot probeMap load root ∨
        (roleOf probeMap place.counter = .suspends ∧ BegunBefore probeMap place.before ∧
          place.counter = root) := by
  simp only [IsRoot, List.mem_append, List.mem_singleton, or_and_right, exists_or, exists_eq_left]

end Snoc

theorem LeadsTo.suspended {load : List Place} {node : Counter} {linkId : Str}
    (leadsTo : LeadsTo probeMap load node linkId) :
    ∃ place ∈ load, ∃ linkId', place.Suspends probeMap node linkId' := by
  obtain ⟨earlier, place, later, rfl, connects, _⟩ := leadsTo
  rcases connects with ⟨suspends, _⟩ | ⟨_, _, before, other, after, rfl, suspends, _⟩
  · exact ⟨place, by simp, linkId, suspends⟩
  · exact ⟨other, by simp, linkId, suspends⟩

theorem LastSuspends.suspended {load : List Place} {node : Counter} {linkId : Str}
    (last : LastSuspends probeMap load node linkId) :
    ∃ place ∈ load, place.Suspends probeMap node linkId := by
  obtain ⟨earlier, place, later, rfl, suspends, _⟩ := last
  exact ⟨place, by simp, suspends⟩

end Xpedite.Txn
