import Xpedite.Txn.LoaderRefines
import Xpedite.Txn.Streams

/-!
Which transactions the loader reports as intact.  A begin counter and the end of a
thread look at the end probe of the transaction they close, a resume counter does
not: it hands an unfinished transaction to `txns`.
-/

namespace Xpedite.Txn

open Xpedite.Lib

variable (probeMap : Probe → Probe)

def ResumesInside (roles : List Role) : Prop :=
  ∃ before after, roles = before ++ .resumes :: after ∧ OpensBegun before

/-- The transactions in `txns` begin and end properly, the others that were cut short are
in `compromisedTxns`; resumed ones may also be left to the fragment store. -/
structure ReportsBounded (loader : Loader) : Prop where
  intact : ∀ entry ∈ loader.txns,
    (loader.heap.cell entry.2).hasEndProbe = true ∧
    (∃ first rest, (loader.heap.cell entry.2).counters = first :: rest ∧
      (probeMap first.probe).canBeginTxn = true) ∧
    ∃ counter ∈ (loader.heap.cell entry.2).counters,
      (probeMap counter.probe).canEndTxn = true ∨ (probeMap counter.probe).canSuspendTxn = true
  cutShort : ∀ txn < loader.heap.size, (loader.heap.cell txn).hasEndProbe = false →
    txn ∉ loader.txns.map Prod.snd ∧
    (txn ∈ loader.compromisedTxns ∨
      ∃ first rest, (loader.heap.cell txn).counters = first :: rest ∧
        (probeMap first.probe).canResumeTxn = true)

theorem not_resumesInside_nil : ¬ResumesInside [] := by
  rintro ⟨before, after, split, _⟩
  simp at split

theorem resumesInside_snoc (roles : List Role) (role : Role) :
    ResumesInside (roles ++ [role]) ↔ ResumesInside roles ∨ (role = .resumes ∧ OpensBegun roles) := by
  constructor
  · rintro ⟨before, after, split, opens⟩
    rcases snoc_eq_append_cons.mp split with ⟨_, rfl, rfl⟩ | ⟨earlier, _, start⟩
    · exact .inr ⟨rfl, opens⟩
    · exact .inl ⟨before, earlier, start, opens⟩
  · rintro (⟨before, after, rfl, opens⟩ | ⟨rfl, opens⟩)
    · exact ⟨before, after ++ [role], by simp, opens⟩
    · exact ⟨roles, [], rfl, opens⟩

namespace Outline

def IntactBounded (outline : Outline) : Prop :=
  ∀ entry ∈ outline.closed, entry.2 = .intact → entry.1.bounded = true

theorem intactBounded_close (outline : Outline) (segment : Segment) (fate : Fate) :
    (outline.close segment fate).IntactBounded ↔
      outline.IntactBounded ∧ (fate = .intact → segment.bounded = true) := by
  simp only [IntactBounded, close, List.mem_append, List.mem_singleton, or_imp, forall_and,
    forall_eq]

variable {probeMap}

theorem fate_intact_of_begun {segment : Segment} (sound : segment.Sound probeMap)
    (begun : segment.origin = .begun) (unbounded : segment.bounded = false) :
    segment.fate = .intact := by
  simp [Segment.fate, Segment.isLinked, begun, sound.unlinked unbounded]

theorem begun_of_fate_intact {segment : Segment} (started : segment.origin ≠ .headless)
    (intact : segment.fate = .intact) : segment.origin = .begun := by
  have sound := fateSound_fate started
  rw [intact] at sound
  exact sound.1

theorem intactBounded_loadCounter {outline : Outline} (sound : outline.Sound probeMap)
    (tlsAddr : Str) (role : Role) (counter : Counter) :
    (outline.loadCounter tlsAddr role counter).IntactBounded ↔
      outline.IntactBounded ∧ ¬(role = .resumes ∧ outline.OpenBegun) := by
  cases isOpen : outline.current with
  | none =>
      have closedBegun : ¬outline.OpenBegun := by simp [OpenBegun, isOpen]
      have stranded := intactBounded_close outline
        ⟨.headless, counter :: outline.loose, false, []⟩ .compromised
      simp only [reduceCtorEq, false_implies, and_true] at stranded
      cases role <;> simp only [loadCounter, isOpen, closedBegun, and_false, not_false_eq_true, and_true]
      · exact Iff.rfl
      · exact Iff.rfl
      · exact stranded
      · exact stranded
      · exact Iff.rfl
  | some segment =>
      obtain ⟨segmentSound, started⟩ := sound.current segment isOpen
      have closing := intactBounded_close outline segment segment.fate
      cases role with
      | resumes =>
          simp only [loadCounter, isOpen, true_and]
          refine closing.trans (and_congr_right fun _ => ?_)
          constructor
          · rintro bounded ⟨other, found, begun, unbounded⟩
            rw [isOpen, Option.some.injEq] at found
            subst found
            rw [bounded (fate_intact_of_begun segmentSound begun unbounded)] at unbounded
            cases unbounded
          · intro notOpen intact
            by_contra unbounded
            exact notOpen ⟨segment, isOpen, begun_of_fate_intact started intact,
              by simpa using unbounded⟩
      | begins =>
          cases bounded : segment.bounded with
          | true =>
              simp only [loadCounter, isOpen, bounded, ↓reduceIte, reduceCtorEq, false_and,
                not_false_eq_true, and_true]
              exact closing.trans (and_iff_left fun _ => bounded)
          | false => simp [loadCounter, isOpen, bounded, IntactBounded]
      | suspends => simp [loadCounter, isOpen, IntactBounded]
      | ends => simp [loadCounter, isOpen, IntactBounded]
      | plain => cases bounded : segment.bounded <;> simp [loadCounter, isOpen, bounded, IntactBounded]

theorem intactBounded_endLoad (outline : Outline) :
    outline.endLoad.IntactBounded ↔ outline.IntactBounded := by
  cases isOpen : outline.current with
  | none => simp only [endLoad, isOpen]
  | some segment =>
      simp only [endLoad, isOpen, intactBounded_close, Segment.finalFate]
      refine and_iff_left fun intact => ?_
      by_contra unbounded
      simp [unbounded] at intact

theorem intactBounded_loadCounters (loose : List Counter) (tlsAddr : Str) (counters : List Counter) :
    ((fresh loose).loadCounters probeMap tlsAddr counters).IntactBounded ↔
      ¬ResumesInside (counters.map (roleOf probeMap)) := by
  induction counters using List.reverseRecOn with
  | nil => exact iff_of_true (by simp [loadCounters, fresh, IntactBounded]) not_resumesInside_nil
  | append_singleton counters counter ih =>
      have sound := (Sound.fresh probeMap loose).loadCounters tlsAddr counters
      rw [loadCounters_snoc, intactBounded_loadCounter sound, ih,
        (open_iff probeMap loose tlsAddr counters).1, List.map_append, List.map_singleton,
        resumesInside_snoc, not_or]

theorem intactBounded_loadThreads (outline : Outline) (idle : outline.current = none)
    (threads : List Thread) :
    (outline.loadThreads probeMap threads).IntactBounded ↔ outline.IntactBounded ∧
      ∀ thread ∈ threads, ¬ResumesInside (thread.counters.map (roleOf probeMap)) := by
  induction threads generalizing outline with
  | nil => simp [loadThreads]
  | cons thread rest ih =>
      have added : (outline.loadThread probeMap thread).IntactBounded ↔ outline.IntactBounded ∧
          ¬ResumesInside (thread.counters.map (roleOf probeMap)) := by
        rw [loadThread_fresh probeMap outline idle,
          ← intactBounded_loadCounters outline.loose thread.tlsAddr, ← intactBounded_endLoad
            ((fresh outline.loose).loadCounters probeMap thread.tlsAddr thread.counters)]
        simp only [IntactBounded, after, List.mem_append, or_imp, forall_and]
        rfl
      have tail := ih _ (loadThread_idle probeMap outline thread)
      simp only [loadThreads, List.foldl_cons, List.forall_mem_cons] at tail ⊢
      rw [tail, added, and_assoc]

end Outline

variable {probeMap}

theorem reportsBounded_iff {outline : Outline} {loader : Loader} (refines : Refines outline loader)
    (sound : outline.Sound probeMap) (idle : outline.current = none) :
    ReportsBounded probeMap loader ↔ outline.IntactBounded := by
  have inTxns (txn : Nat) : txn ∈ loader.txns.map Prod.snd ↔ txn ∈ refs .intact outline.closed := by
    rw [refines.txns, numbered_snd]
  constructor
  · intro reports entry member intact
    obtain ⟨ref, bound, rfl⟩ := List.getElem_of_mem member
    have found : outline.closed[ref]? = some (outline.closed[ref].1, .intact) := by
      rw [List.getElem?_eq_getElem bound, ← intact]
    have inserted := (inTxns ref).mpr (mem_refs.mpr ⟨_, found⟩)
    obtain ⟨stored, isStored, same⟩ := List.mem_map.mp inserted
    have hasEnd := (reports.intact stored isStored).1
    rwa [same, (refines.closed_cell found).2] at hasEnd
  · intro bounded
    constructor
    · intro entry member
      have inserted := (inTxns entry.2).mp (List.mem_map.mpr ⟨entry, member, rfl⟩)
      obtain ⟨segment, found⟩ := mem_refs.mp inserted
      obtain ⟨segmentSound, begun, _⟩ := sound.closed _ (List.mem_of_getElem? found)
      have isBounded := bounded _ (List.mem_of_getElem? found) rfl
      obtain ⟨counters, hasEnd⟩ := refines.closed_cell found
      obtain ⟨first, rest, split, opened⟩ := segmentSound.opened
      rw [counters, hasEnd]
      rw [begun] at opened
      obtain ⟨counter, held, bounds⟩ := segmentSound.bounds isBounded
      exact ⟨isBounded, ⟨first, rest, split, Probe.canBeginTxn_of_role opened⟩,
        counter, held, Probe.canEndTxn_of_bounds bounds⟩
    · intro txn allocated cut
      rw [refines.size, Refines.segments_idle idle, List.length_map] at allocated
      obtain ⟨⟨segment, fate⟩, found⟩ : ∃ entry, outline.closed[txn]? = some entry :=
        ⟨_, List.getElem?_eq_getElem allocated⟩
      obtain ⟨counters, hasEnd⟩ := refines.closed_cell found
      obtain ⟨segmentSound, fateSound⟩ := sound.closed _ (List.mem_of_getElem? found)
      rw [hasEnd] at cut
      rw [inTxns, counters, refines.compromised]
      constructor
      · intro inserted
        obtain ⟨other, foundIntact⟩ := mem_refs.mp inserted
        rw [found, Option.some.injEq, Prod.mk.injEq] at foundIntact
        have isBounded := bounded _ (List.mem_of_getElem? found) foundIntact.2
        rw [cut] at isBounded
        cases isBounded
      · cases fate with
        | intact =>
            have isBounded := bounded _ (List.mem_of_getElem? found) rfl
            rw [cut] at isBounded
            cases isBounded
        | compromised => exact .inl (mem_refs.mpr ⟨segment, found⟩)
        | linked =>
            right
            obtain ⟨first, rest, split, opened⟩ := segmentSound.opened
            cases origin : segment.origin with
            | headless => exact absurd origin fateSound.2
            | begun =>
                have unlinked : segment.suspendIds = [] := segmentSound.unlinked cut
                have linked : segment.isLinked = true := fateSound.1
                simp [Segment.isLinked, origin, unlinked] at linked
            | resumed linkId =>
                rw [origin] at opened
                exact ⟨first, rest, split, Probe.canResumeTxn_of_role opened.1⟩

variable (probeMap)

/-- Only bounded transactions are reported intact, exactly when no resume counter cuts a
begun transaction short. -/
theorem loadThreads_reportsBounded_iff (threads : List Thread) :
    ReportsBounded probeMap (Loader.new.loadThreads probeMap threads) ↔
      ∀ thread ∈ threads, ¬ResumesInside (thread.counters.map (roleOf probeMap)) := by
  have idle := Outline.loadThreads_idle probeMap .empty rfl threads
  have sound := (Outline.Sound.fresh probeMap []).loadThreads threads
  rw [reportsBounded_iff (loadThreads_refines probeMap threads) sound idle,
    Outline.intactBounded_loadThreads .empty rfl threads]
  exact and_iff_right (by simp [Outline.IntactBounded, Outline.empty])

/-- A begin counter followed by a resume counter: the begun transaction has no end probe
and is reported intact. -/
theorem not_reportsBounded_begin_resume :
    ¬ReportsBounded id (Loader.new.loadThreads id
      [⟨List.replicate 16 '1', [⟨0, .txnBeginProbe, [], 1⟩, ⟨1, .txnResumeProbe, ['f'], 2⟩]⟩]) := by
  intro reports
  have hasEnd := (reports.intact (.int 1, 0) (by decide)).1
  exact absurd hasEnd (by decide)

end Xpedite.Txn
