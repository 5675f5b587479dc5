import Xpedite.Txn.LoaderRefines
import Xpedite.Txn.Streams

/-!
Loading several threads into one loader, compared with a fresh loader for each
thread.  Counters that a thread leaves loose are still there for the next thread,
and an end counter without a transaction adopts them.
-/

namespace Xpedite.Txn

open Xpedite.Lib

def LeavesLoose (roles : List Role) : Prop :=
  ¬OpensBegun roles ∧ ∃ earlier, roles = earlier ++ [.plain]

def EndsFirst (roles : List Role) : Prop :=
  ∃ plains rest, roles = plains ++ .ends :: rest ∧ ∀ role ∈ plains, role = .plain

def AllPlain (roles : List Role) : Prop := ∀ role ∈ roles, role = .plain

def LooseAfter (threads : List (List Role)) : Prop :=
  ∃ before left between, threads = before ++ left :: between ∧ LeavesLoose left ∧
    ∀ roles ∈ between, AllPlain roles

/-- A thread ends without a begin while counters of an earlier thread are loose. -/
def Leaks (threads : List (List Role)) : Prop :=
  ∃ before roles after, threads = before ++ roles :: after ∧ LooseAfter before ∧ EndsFirst roles

theorem looseAfter_snoc (threads : List (List Role)) (roles : List Role) :
    LooseAfter (threads ++ [roles]) ↔ LeavesLoose roles ∨ (AllPlain roles ∧ LooseAfter threads) := by
  constructor
  · rintro ⟨before, left, between, split, leaves, plains⟩
    rcases snoc_eq_append_cons.mp split with ⟨_, _, rfl⟩ | ⟨earlier, rfl, start⟩
    · exact .inl leaves
    · refine .inr ⟨plains roles (by simp), before, left, earlier, start, leaves, ?_⟩
      exact fun other member => plains other (by simp [member])
  · rintro (leaves | ⟨plain, before, left, between, rfl, leaves, plains⟩)
    · exact ⟨threads, roles, [], rfl, leaves, by simp⟩
    · refine ⟨before, left, between ++ [roles], by simp, leaves, ?_⟩
      intro other member
      rcases List.mem_append.mp member with old | new
      · exact plains other old
      · rw [List.mem_singleton.mp new]
        exact plain

theorem leaks_snoc (threads : List (List Role)) (roles : List Role) :
    Leaks (threads ++ [roles]) ↔ Leaks threads ∨ (LooseAfter threads ∧ EndsFirst roles) := by
  constructor
  · rintro ⟨before, other, after, split, loose, ends⟩
    rcases snoc_eq_append_cons.mp split with ⟨_, rfl, rfl⟩ | ⟨earlier, _, start⟩
    · exact .inr ⟨loose, ends⟩
    · exact .inl ⟨before, other, earlier, start, loose, ends⟩
  · rintro (⟨before, other, after, rfl, loose, ends⟩ | ⟨loose, ends⟩)
    · exact ⟨before, other, after ++ [roles], by simp, loose, ends⟩
    · exact ⟨threads, roles, [], rfl, loose, ends⟩

theorem allPlain_snoc (roles : List Role) (role : Role) :
    AllPlain (roles ++ [role]) ↔ AllPlain roles ∧ role = .plain := by
  simp [AllPlain, or_imp, forall_and]

theorem leavesLoose_snoc (roles : List Role) (role : Role) :
    LeavesLoose (roles ++ [role]) ↔ role = .plain ∧ ¬OpensBegun roles := by
  constructor
  · rintro ⟨closed, earlier, split⟩
    obtain ⟨_, rfl⟩ := List.append_singleton_inj.mp split
    exact ⟨rfl, fun opens => closed ((opensBegun_snoc_plain roles).mpr opens)⟩
  · rintro ⟨rfl, closed⟩
    exact ⟨fun opens => closed ((opensBegun_snoc_plain roles).mp opens), roles, rfl⟩

theorem not_opensBegun_of_allPlain {roles : List Role} (plains : AllPlain roles) :
    ¬OpensBegun roles := by
  rintro ⟨since, ⟨before, rfl, _, _⟩, begins⟩
  cases plains .begins (by simp [begins])

theorem not_endsFirst_begins (roles : List Role) : ¬EndsFirst (.begins :: roles) := by
  rintro ⟨plains, rest, split, all⟩
  cases plains with
  | nil => simp at split
  | cons first plains =>
      have plain := all first (by simp)
      simp [plain] at split

theorem endsFirst_plain (roles : List Role) : EndsFirst (.plain :: roles) ↔ EndsFirst roles := by
  constructor
  · rintro ⟨plains, rest, split, all⟩
    cases plains with
    | nil => simp at split
    | cons first plains =>
        simp only [List.cons_append, List.cons.injEq] at split
        exact ⟨plains, rest, split.2, fun role member => all role (by simp [member])⟩
  · rintro ⟨plains, rest, rfl, all⟩
    exact ⟨.plain :: plains, rest, rfl, by simpa using all⟩

def countersOf (fate : Fate) (closed : List (Segment × Fate)) : List (List Counter) :=
  closed.filterMap fun entry => if entry.2 = fate then some entry.1.counters else none

theorem countersOf_append (fate : Fate) (first second : List (Segment × Fate)) :
    countersOf fate (first ++ second) = countersOf fate first ++ countersOf fate second :=
  List.filterMap_append

theorem map_refs (fate : Fate) (closed : List (Segment × Fate)) (counters : Nat → List Counter)
    (cells : ∀ ref segment fate, closed[ref]? = some (segment, fate) →
      counters ref = segment.counters) :
    (refs fate closed).map counters = countersOf fate closed := by
  induction closed using List.reverseRecOn with
  | nil => rfl
  | append_singleton closed entry ih =>
      obtain ⟨segment, fate'⟩ := entry
      have earlier := ih fun ref segment fate found => cells ref segment fate (by
        have bound : ref < closed.length := (List.getElem?_eq_some_iff.mp found).1
        rw [List.getElem?_append_left bound, found])
      have final : counters closed.length = segment.counters :=
        cells closed.length segment fate' (by simp)
      rw [refs_append, List.map_append, earlier, countersOf_append]
      by_cases same : fate' = fate <;> simp [countersOf, same, final]

variable {probeMap : Probe → Probe}

namespace Outline

def LooseSettled (outline : Outline) : Prop :=
  ∀ segment, outline.current = some segment → segment.bounded = false → outline.loose = []

theorem looseSettled_loadCounter {outline : Outline} (settled : outline.LooseSettled)
    (tlsAddr : Str) (role : Role) (counter : Counter) :
    (outline.loadCounter tlsAddr role counter).LooseSettled := by
  cases isOpen : outline.current with
  | none => cases role <;> simp [LooseSettled, loadCounter, isOpen, openSegment, close]
  | some segment =>
      cases bounded : segment.bounded with
      | true =>
          cases role <;> simp [LooseSettled, loadCounter, isOpen, openSegment, bounded,
            Segment.bound, Segment.suspendAt]
      | false =>
          have empty := settled segment isOpen bounded
          cases role <;> simp [LooseSettled, loadCounter, isOpen, openSegment, bounded, empty,
            Segment.add, Segment.bound]

variable (probeMap) in
theorem looseSettled_loadCounters (loose : List Counter) (tlsAddr : Str) (counters : List Counter) :
    ((fresh loose).loadCounters probeMap tlsAddr counters).LooseSettled := by
  induction counters using List.reverseRecOn with
  | nil => simp [LooseSettled, loadCounters, fresh]
  | append_singleton counters counter ih =>
      rw [loadCounters_snoc]
      exact looseSettled_loadCounter ih _ _ _

def Unlinked (roles : List Role) : Prop := ∀ role ∈ roles, role ≠ .resumes ∧ role ≠ .suspends

theorem loose_plain {outline : Outline} (settled : outline.LooseSettled)
    (resumeless : ¬outline.OpenResumed) (tlsAddr : Str) (counter : Counter) :
    (outline.loadCounter tlsAddr .plain counter).loose ≠ [] ↔ ¬outline.OpenBegun := by
  cases isOpen : outline.current with
  | none => simp [loadCounter, isOpen, OpenBegun]
  | some segment =>
      cases bounded : segment.bounded with
      | true => simp [loadCounter, isOpen, bounded, OpenBegun]
      | false =>
          have empty := settled segment isOpen bounded
          have begun : segment.origin = .begun := by
            by_contra other
            exact resumeless ⟨segment, isOpen, other, bounded⟩
          simp [loadCounter, isOpen, bounded, OpenBegun, empty, begun]

theorem loose_begins {outline : Outline} (settled : outline.LooseSettled) (tlsAddr : Str)
    (counter : Counter) : (outline.loadCounter tlsAddr .begins counter).loose = [] := by
  cases isOpen : outline.current with
  | none => simp [loadCounter, isOpen, openSegment]
  | some segment =>
      cases bounded : segment.bounded with
      | true => simp [loadCounter, isOpen, bounded, openSegment]
      | false => simp [loadCounter, isOpen, bounded, settled segment isOpen bounded]

theorem loose_ends (outline : Outline) (tlsAddr : Str) (counter : Counter) :
    (outline.loadCounter tlsAddr .ends counter).loose = [] := by
  cases isOpen : outline.current <;> simp [loadCounter, isOpen]

theorem not_opensResumed {roles : List Role} (unlinked : Unlinked roles) : ¬OpensResumed roles := by
  rintro ⟨before, since, rfl, _⟩
  exact (unlinked .resumes (by simp)).1 rfl

theorem loose_loadCounters (loose : List Counter) (tlsAddr : Str) (counters : List Counter)
    (unlinked : Unlinked (counters.map (roleOf probeMap))) :
    ((fresh loose).loadCounters probeMap tlsAddr counters).loose ≠ [] ↔
      LeavesLoose (counters.map (roleOf probeMap)) ∨
        (AllPlain (counters.map (roleOf probeMap)) ∧ loose ≠ []) := by
  induction counters using List.reverseRecOn with
  | nil => simp [loadCounters, fresh, LeavesLoose, AllPlain]
  | append_singleton counters counter ih =>
      rw [List.map_append, List.map_singleton] at unlinked ⊢
      have earlier : Unlinked (counters.map (roleOf probeMap)) :=
        fun role member => unlinked role (List.mem_append_left _ member)
      have settled := looseSettled_loadCounters probeMap loose tlsAddr counters
      obtain ⟨begun, resumed⟩ := open_iff probeMap loose tlsAddr counters
      rw [loadCounters_snoc, leavesLoose_snoc, allPlain_snoc]
      cases role : roleOf probeMap counter with
      | resumes => exact absurd role (unlinked _ (by simp)).1
      | suspends => exact absurd role (unlinked _ (by simp)).2
      | begins => simp [loose_begins settled]
      | ends => simp [loose_ends]
      | plain =>
          rw [loose_plain settled (by rw [resumed]; exact not_opensResumed earlier), begun]
          constructor
          · exact fun closed => .inl ⟨rfl, closed⟩
          · rintro (⟨_, closed⟩ | ⟨⟨plains, _⟩, _⟩)
            · exact closed
            · exact not_opensBegun_of_allPlain plains

theorem endLoad_loose (outline : Outline) : outline.endLoad.loose = outline.loose := by
  cases isOpen : outline.current <;> simp [endLoad, isOpen, close]

/-- What a thread does with the counters that were loose before it: they stay loose, they
are set aside by a begin counter, or the first end counter adopts them. -/
theorem loadCounters_fresh (tlsAddr : Str) (counters : List Counter)
    (unlinked : Unlinked (counters.map (roleOf probeMap))) :
    (¬EndsFirst (counters.map (roleOf probeMap)) ∧
      ∀ loose, (fresh loose).loadCounters probeMap tlsAddr counters = fresh (loose ++ counters)) ∨
    (¬EndsFirst (counters.map (roleOf probeMap)) ∧ ∃ plains later, ∀ loose,
      (fresh loose).loadCounters probeMap tlsAddr counters = after [] (loose ++ plains) later) ∨
    (EndsFirst (counters.map (roleOf probeMap)) ∧ ∃ first plains later, ∀ loose,
      (fresh loose).loadCounters probeMap tlsAddr counters =
        after [(⟨.headless, first :: (loose ++ plains), false, []⟩, .compromised)] [] later) := by
  induction counters with
  | nil =>
      left
      constructor
      · rintro ⟨plains, rest, split, _⟩
        simp at split
      · simp [loadCounters]
  | cons counter rest ih =>
      have tail := ih fun role member => unlinked role (List.mem_cons_of_mem _ member)
      have step (loose : List Counter) :
          (fresh loose).loadCounters probeMap tlsAddr (counter :: rest) =
            ((fresh loose).loadCounter tlsAddr (roleOf probeMap counter) counter).loadCounters
              probeMap tlsAddr rest := rfl
      rw [List.map_cons] at unlinked ⊢
      cases role : roleOf probeMap counter with
      | resumes => exact absurd role (unlinked _ (by simp)).1
      | suspends => exact absurd role (unlinked _ (by simp)).2
      | begins =>
          right; left
          constructor
          · exact not_endsFirst_begins _
          · refine ⟨[], (⟨[], some (.start .begun counter), [], []⟩ : Outline).loadCounters probeMap
              tlsAddr rest, fun loose => ?_⟩
            rw [step, role, ← loadCounters_after]
            simp [loadCounter, fresh, openSegment, after]
      | ends =>
          right; right
          constructor
          · exact ⟨[], _, rfl, by simp⟩
          · refine ⟨counter, [], (fresh []).loadCounters probeMap tlsAddr rest, fun loose => ?_⟩
            rw [step, role, ← loadCounters_after]
            simp [loadCounter, fresh, close, after]
      | plain =>
          have grows (loose : List Counter) : (fresh loose).loadCounter tlsAddr .plain counter =
              fresh (loose ++ [counter]) := rfl
          rw [endsFirst_plain]
          rcases tail with ⟨other, loads⟩ | ⟨other, plains, later, loads⟩ |
            ⟨ends, first, plains, later, loads⟩
          · left
            refine ⟨other, fun loose => ?_⟩
            rw [step, role, grows, loads]
            simp
          · right; left
            refine ⟨other, counter :: plains, later, fun loose => ?_⟩
            rw [step, role, grows, loads]
            simp
          · right; right
            refine ⟨ends, first, counter :: plains, later, fun loose => ?_⟩
            rw [step, role, grows, loads]
            simp

theorem countersOf_loadThread (loose : List Counter) (thread : Thread)
    (unlinked : Unlinked (thread.counters.map (roleOf probeMap))) :
    countersOf .intact ((fresh loose).loadThread probeMap thread).closed =
        countersOf .intact ((fresh []).loadThread probeMap thread).closed ∧
      (countersOf .compromised ((fresh loose).loadThread probeMap thread).closed).length =
        (countersOf .compromised ((fresh []).loadThread probeMap thread).closed).length ∧
      (countersOf .compromised ((fresh loose).loadThread probeMap thread).closed =
        countersOf .compromised ((fresh []).loadThread probeMap thread).closed ↔
          ¬(loose ≠ [] ∧ EndsFirst (thread.counters.map (roleOf probeMap)))) := by
  simp only [loadThread]
  rcases loadCounters_fresh thread.tlsAddr thread.counters unlinked with
    ⟨other, loads⟩ | ⟨other, plains, later, loads⟩ | ⟨ends, first, plains, later, loads⟩
  · simp only [loads]
    simp [other, endLoad, fresh]
  · simp only [loads, endLoad_after]
    simp [other, after]
  · simp only [loads, endLoad_after]
    simp [ends, after, countersOf]

theorem loadThreads_snoc (outline : Outline) (threads : List Thread) (thread : Thread) :
    outline.loadThreads probeMap (threads ++ [thread]) =
      (outline.loadThreads probeMap threads).loadThread probeMap thread := by
  simp [loadThreads]

theorem loose_loadThreads (threads : List Thread)
    (unlinked : ∀ thread ∈ threads, Unlinked (thread.counters.map (roleOf probeMap))) :
    (empty.loadThreads probeMap threads).loose ≠ [] ↔
      LooseAfter (threads.map fun thread => thread.counters.map (roleOf probeMap)) := by
  induction threads using List.reverseRecOn with
  | nil => simp [loadThreads, empty, LooseAfter]
  | append_singleton threads thread ih =>
      have idle := loadThreads_idle probeMap empty rfl threads
      have earlier := ih fun other member => unlinked other (List.mem_append_left _ member)
      have own := loose_loadCounters (empty.loadThreads probeMap threads).loose thread.tlsAddr
        thread.counters (unlinked thread (by simp))
      rw [← endLoad_loose] at own
      rw [List.map_append, List.map_singleton, looseAfter_snoc, ← earlier, loadThreads_snoc,
        loadThread_fresh probeMap _ idle]
      exact own

theorem countersOf_loadThreads (threads : List Thread)
    (unlinked : ∀ thread ∈ threads, Unlinked (thread.counters.map (roleOf probeMap))) :
    countersOf .intact (empty.loadThreads probeMap threads).closed =
        threads.flatMap (fun thread => countersOf .intact (empty.loadThread probeMap thread).closed) ∧
      (countersOf .compromised (empty.loadThreads probeMap threads).closed).length =
        (threads.flatMap fun thread =>
          countersOf .compromised (empty.loadThread probeMap thread).closed).length ∧
      (countersOf .compromised (empty.loadThreads probeMap threads).closed =
        threads.flatMap (fun thread =>
          countersOf .compromised (empty.loadThread probeMap thread).closed) ↔
        ¬Leaks (threads.map fun thread => thread.counters.map (roleOf probeMap))) := by
  induction threads using List.reverseRecOn with
  | nil => simp [loadThreads, empty, countersOf, Leaks]
  | append_singleton threads thread ih =>
      have allEarlier : ∀ other ∈ threads, Unlinked (other.counters.map (roleOf probeMap)) :=
        fun other member => unlinked other (List.mem_append_left _ member)
      obtain ⟨intact, sizes, compromised⟩ := ih allEarlier
      have idle := loadThreads_idle probeMap empty rfl threads
      obtain ⟨ownIntact, ownSizes, ownCompromised⟩ := countersOf_loadThread
        (empty.loadThreads probeMap threads).loose thread (unlinked thread (by simp))
      have added (fate : Fate) :
          countersOf fate (empty.loadThreads probeMap (threads ++ [thread])).closed =
            countersOf fate (empty.loadThreads probeMap threads).closed ++ countersOf fate
              ((fresh (empty.loadThreads probeMap threads).loose).loadThread probeMap thread).closed := by
        rw [loadThreads_snoc, loadThread_fresh probeMap _ idle]
        exact countersOf_append _ _ _
      have own : (fresh []).loadThread probeMap thread = empty.loadThread probeMap thread := rfl
      rw [own] at ownIntact ownSizes ownCompromised
      simp only [added, List.flatMap_append, List.flatMap_singleton, List.map_append,
        List.map_singleton, leaks_snoc]
      refine ⟨by rw [intact, ownIntact], by simp only [List.length_append, sizes, ownSizes], ?_⟩
      rw [← loose_loadThreads threads allEarlier, not_or, ← compromised, ← ownCompromised]
      constructor
      · exact fun same => List.append_inj same sizes
      · rintro ⟨first, second⟩
        rw [first, second]

end Outline

namespace Loader

def intactCounters (loader : Loader) : List (List Counter) :=
  loader.txns.map fun entry => (loader.heap.cell entry.2).counters

def compromisedCounters (loader : Loader) : List (List Counter) :=
  loader.compromisedTxns.map fun txn => (loader.heap.cell txn).counters

end Loader

theorem Refines.intactCounters {outline : Outline} {loader : Loader}
    (refines : Refines outline loader) :
    loader.intactCounters = countersOf .intact outline.closed := by
  have cells := map_refs .intact outline.closed (fun ref => (loader.heap.cell ref).counters)
    fun ref segment fate found => (refines.closed_cell found).1
  rw [← cells, ← numbered_snd (refs .intact outline.closed), ← refines.txns, List.map_map]
  rfl

theorem Refines.compromisedCounters {outline : Outline} {loader : Loader}
    (refines : Refines outline loader) :
    loader.compromisedCounters = countersOf .compromised outline.closed := by
  have cells := map_refs .compromised outline.closed (fun ref => (loader.heap.cell ref).counters)
    fun ref segment fate found => (refines.closed_cell found).1
  rw [← cells, ← refines.compromised]
  rfl

/-- Each thread is loaded as if it had a loader of its own. -/
structure Isolated (probeMap : Probe → Probe) (threads : List Thread) : Prop where
  intact : (Loader.new.loadThreads probeMap threads).intactCounters =
    threads.flatMap fun thread => (Loader.new.loadThread probeMap thread).intactCounters
  compromised : (Loader.new.loadThreads probeMap threads).compromisedCounters =
    threads.flatMap fun thread => (Loader.new.loadThread probeMap thread).compromisedCounters
  unmixed : ∀ counters ∈ (Loader.new.loadThreads probeMap threads).intactCounters ++
    (Loader.new.loadThreads probeMap threads).compromisedCounters,
    ∃ thread ∈ threads, counters ⊆ thread.counters

theorem countersOf_subset {fate : Fate} {outline : Outline} {counters : List Counter}
    (member : counters ∈ countersOf fate outline.closed) : counters ⊆ outline.held := by
  obtain ⟨entry, closed, same⟩ := List.mem_filterMap.mp member
  simp only [Option.ite_none_right_eq_some, Option.some.injEq] at same
  intro counter held
  rw [← same.2] at held
  simp only [Outline.held, List.append_assoc, List.mem_append, List.mem_flatMap]
  exact .inl ⟨entry, closed, held⟩

variable (probeMap)

/-- Streams of begin, end and plain counters are loaded in isolation exactly when no thread
ends without a begin while counters of an earlier thread are loose. -/
theorem isolated_iff (threads : List Thread)
    (unlinked : ∀ thread ∈ threads, ∀ counter ∈ thread.counters,
      (probeMap counter.probe).canResumeTxn = false ∧ (probeMap counter.probe).canSuspendTxn = false) :
    Isolated probeMap threads ↔
      ¬Leaks (threads.map fun thread => thread.counters.map (roleOf probeMap)) := by
  have allUnlinked : ∀ thread ∈ threads,
      Outline.Unlinked (thread.counters.map (roleOf probeMap)) := by
    intro thread member role isRole
    obtain ⟨counter, held, rfl⟩ := List.mem_map.mp isRole
    exact Probe.role_unlinked (unlinked thread member counter held)
  have own (thread : Thread) := loadThreads_refines probeMap [thread]
  obtain ⟨intact, _, compromised⟩ := Outline.countersOf_loadThreads threads allUnlinked
  have all := loadThreads_refines probeMap threads
  have ownIntact (thread : Thread) : (Loader.new.loadThread probeMap thread).intactCounters =
      countersOf .intact (Outline.empty.loadThread probeMap thread).closed :=
    (own thread).intactCounters
  have ownCompromised (thread : Thread) :
      (Loader.new.loadThread probeMap thread).compromisedCounters =
        countersOf .compromised (Outline.empty.loadThread probeMap thread).closed :=
    (own thread).compromisedCounters
  rw [← compromised, ← all.compromisedCounters]
  simp only [← ownCompromised]
  constructor
  · exact fun isolated => isolated.compromised
  · intro same
    have sameIntact : (Loader.new.loadThreads probeMap threads).intactCounters =
        threads.flatMap fun thread => (Loader.new.loadThread probeMap thread).intactCounters := by
      simp only [all.intactCounters, ownIntact, intact]
    refine ⟨sameIntact, same, ?_⟩
    have onlyOwn {fate : Fate} {thread : Thread} {counters : List Counter}
        (member : counters ∈ countersOf fate (Outline.empty.loadThread probeMap thread).closed) :
        counters ⊆ thread.counters := by
      intro counter held
      have inOutline := countersOf_subset member held
      have perm := Outline.loadThread_held probeMap Outline.empty thread
      simpa [Outline.held, Outline.empty] using perm.mem_iff.mp inOutline
    intro counters member
    rw [sameIntact, same, List.mem_append, List.mem_flatMap, List.mem_flatMap] at member
    rcases member with ⟨thread, isThread, inOwn⟩ | ⟨thread, isThread, inOwn⟩
    · rw [ownIntact] at inOwn
      exact ⟨thread, isThread, onlyOwn inOwn⟩
    · rw [ownCompromised] at inOwn
      exact ⟨thread, isThread, onlyOwn inOwn⟩

/-- The second thread starts with an end counter, but the first one leaves nothing loose. -/
def closedThenEnds : List Thread :=
  [⟨List.replicate 16 '1', [⟨0, .probe, [], 1⟩, ⟨1, .txnBeginProbe, [], 2⟩, ⟨2, .txnEndProbe, [], 3⟩]⟩,
    ⟨List.replicate 16 '2', [⟨3, .txnEndProbe, [], 4⟩, ⟨4, .txnBeginProbe, [], 5⟩]⟩]

theorem isolated_closedThenEnds : Isolated id closedThenEnds := by
  refine (isolated_iff id closedThenEnds (by decide)).mpr ?_
  have roles : (closedThenEnds.map fun thread => thread.counters.map (roleOf id)) =
      ([] ++ [[.plain, .begins] ++ [.ends]]) ++ [[.ends, .begins]] := rfl
  rw [roles, leaks_snoc, leaks_snoc, looseAfter_snoc, leavesLoose_snoc]
  rintro ((⟨_, _, _, split, -⟩ | ⟨⟨_, _, _, split, -⟩, -⟩) | ⟨(⟨other, -⟩ | ⟨-, _, _, _, split, -⟩), -⟩)
  · simp at split
  · simp at split
  · cases other
  · simp at split

/-- A plain counter in the first thread, an end counter in the second: the compromised
transaction holds both. -/
theorem not_isolated_plain_end :
    ¬Isolated id [⟨List.replicate 16 '1', [⟨0, .probe, [], 1⟩]⟩,
      ⟨List.replicate 16 '2', [⟨1, .txnEndProbe, [], 2⟩]⟩] := by
  intro isolated
  exact absurd isolated.compromised (by decide)

end Xpedite.Txn
