import Mathlib.Data.List.DropRight
import Xpedite.Txn.Isolation

/-!
How a stream of begin, end and plain counters is cut up.  A `Split` names the counters before the
first begin counter, the segments with the gap behind each of them, and an opening at the very end
that no end counter has closed.
-/

namespace Xpedite.Txn

open Xpedite.Lib

structure Split where
  lead : List Counter
  parts : List (List Counter × List Counter)
  tail : List Counter

section Shape

variable (probeMap : Probe → Probe)

def Free (role : Role) (counters : List Counter) : Prop :=
  ∀ counter ∈ counters, roleOf probeMap counter ≠ role

/-- From a begin counter to an end counter, where no begin counter is behind an end counter. -/
def IsSegment (counters : List Counter) : Prop :=
  ∃ first before after last, counters = first :: before ++ after ++ [last] ∧
    roleOf probeMap first = .begins ∧ roleOf probeMap last = .ends ∧
    Free probeMap .ends before ∧ Free probeMap .begins after

def IsOpening (counters : List Counter) : Prop :=
  ∃ first before, counters = first :: before ∧ roleOf probeMap first = .begins ∧
    Free probeMap .ends before

structure Split.Covers (split : Split) (counters : List Counter) : Prop where
  whole : counters =
    split.lead ++ split.parts.flatMap (fun part => part.1 ++ part.2) ++ split.tail
  lead : Free probeMap .begins split.lead
  segments : ∀ part ∈ split.parts, IsSegment probeMap part.1
  gaps : ∀ part ∈ split.parts, Free probeMap .begins part.2 ∧ Free probeMap .ends part.2
  tail : split.tail = [] ∨ IsOpening probeMap split.tail

def Split.loose (split : Split) : List Counter :=
  split.lead.rtakeWhile fun counter => roleOf probeMap counter ≠ .ends

def Split.between (split : Split) : List (List Counter) :=
  split.loose probeMap :: split.parts.map Prod.snd

theorem Split.between_ne_nil (split : Split) : split.between probeMap ≠ [] := List.cons_ne_nil _ _

end Shape

section Free

variable {probeMap : Probe → Probe} {role : Role}

theorem free_nil : Free probeMap role [] := List.forall_mem_nil _

theorem free_append {first second : List Counter} :
    Free probeMap role (first ++ second) ↔
      Free probeMap role first ∧ Free probeMap role second := List.forall_mem_append

theorem free_singleton {counter : Counter} :
    Free probeMap role [counter] ↔ roleOf probeMap counter ≠ role := List.forall_mem_singleton

end Free

section Exists

variable {probeMap : Probe → Probe}

theorem IsOpening.snoc {counters : List Counter} {counter : Counter}
    (opening : IsOpening probeMap counters) (other : roleOf probeMap counter ≠ .ends) :
    IsOpening probeMap (counters ++ [counter]) := by
  obtain ⟨first, before, rfl, begins, free⟩ := opening
  exact ⟨first, before ++ [counter], rfl, begins, free_append.mpr ⟨free, free_singleton.mpr other⟩⟩

theorem IsOpening.close {counters : List Counter} {counter : Counter}
    (opening : IsOpening probeMap counters) (ends : roleOf probeMap counter = .ends) :
    IsSegment probeMap (counters ++ [counter]) := by
  obtain ⟨first, before, rfl, begins, free⟩ := opening
  exact ⟨first, before, [], counter, by simp, begins, ends, free, free_nil⟩

theorem IsSegment.extend {counters gap : List Counter} {counter : Counter}
    (segment : IsSegment probeMap counters) (beginless : Free probeMap .begins gap)
    (ends : roleOf probeMap counter = .ends) :
    IsSegment probeMap (counters ++ gap ++ [counter]) := by
  obtain ⟨first, before, after, last, rfl, begins, lastEnds, free, rest⟩ := segment
  refine ⟨first, before, after ++ [last] ++ gap, counter, by simp, begins, ends, free, ?_⟩
  refine free_append.mpr ⟨free_append.mpr ⟨rest, free_singleton.mpr ?_⟩, beginless⟩
  rw [lastEnds]
  exact Role.noConfusion

theorem Split.Covers.snoc {split : Split} {counters : List Counter}
    (covers : split.Covers probeMap counters) (counter : Counter) :
    ∃ next : Split, next.Covers probeMap (counters ++ [counter]) := by
  obtain ⟨lead, parts, tail⟩ := split
  obtain ⟨rfl, leadFree, segments, gaps, none | opening⟩ := covers
  · dsimp only at leadFree segments gaps none ⊢
    subst none
    by_cases begins : roleOf probeMap counter = .begins
    · exact ⟨⟨lead, parts, [counter]⟩, by simp, leadFree, segments, gaps,
        .inr ⟨counter, [], rfl, begins, free_nil⟩⟩
    · rcases List.eq_nil_or_concat' parts with rfl | ⟨earlier, ⟨segment, gap⟩, rfl⟩
      · exact ⟨⟨lead ++ [counter], [], []⟩, by simp,
          free_append.mpr ⟨leadFree, free_singleton.mpr begins⟩, segments, gaps, .inl rfl⟩
      · rw [List.forall_mem_append, List.forall_mem_singleton] at segments gaps
        by_cases ends : roleOf probeMap counter = .ends
        · refine ⟨⟨lead, earlier ++ [(segment ++ gap ++ [counter], [])], []⟩, by simp, leadFree,
            ?_, ?_, .inl rfl⟩
          · exact List.forall_mem_append.mpr
              ⟨segments.1, List.forall_mem_singleton.mpr (segments.2.extend gaps.2.1 ends)⟩
          · exact List.forall_mem_append.mpr
              ⟨gaps.1, List.forall_mem_singleton.mpr ⟨free_nil, free_nil⟩⟩
        · refine ⟨⟨lead, earlier ++ [(segment, gap ++ [counter])], []⟩, by simp, leadFree, ?_, ?_,
            .inl rfl⟩
          · exact List.forall_mem_append.mpr
              ⟨segments.1, List.forall_mem_singleton.mpr segments.2⟩
          · refine List.forall_mem_append.mpr ⟨gaps.1, List.forall_mem_singleton.mpr ⟨?_, ?_⟩⟩
            · exact free_append.mpr ⟨gaps.2.1, free_singleton.mpr begins⟩
            · exact free_append.mpr ⟨gaps.2.2, free_singleton.mpr ends⟩
  · by_cases ends : roleOf probeMap counter = .ends
    · refine ⟨⟨lead, parts ++ [(tail ++ [counter], [])], []⟩, by simp, leadFree, ?_, ?_, .inl rfl⟩
      · exact List.forall_mem_append.mpr
          ⟨segments, List.forall_mem_singleton.mpr (opening.close ends)⟩
      · exact List.forall_mem_append.mpr
          ⟨gaps, List.forall_mem_singleton.mpr ⟨free_nil, free_nil⟩⟩
    · exact ⟨⟨lead, parts, tail ++ [counter]⟩, by simp, leadFree, segments, gaps,
        .inr (opening.snoc ends)⟩

variable (probeMap) in
theorem exists_split (counters : List Counter) :
    ∃ split : Split, split.Covers probeMap counters := by
  induction counters using List.reverseRecOn with
  | nil => exact ⟨⟨[], [], []⟩, rfl, free_nil, List.forall_mem_nil _, List.forall_mem_nil _, .inl rfl⟩
  | append_singleton counters counter ih =>
      obtain ⟨split, covers⟩ := ih
      exact covers.snoc counter

end Exists

namespace Outline

variable {probeMap : Probe → Probe} {tlsAddr : Str} {closed : List (Segment × Fate)}
  {stray : List Counter}

def begun (counters : List Counter) (bounded : Bool) : Segment := ⟨.begun, counters, bounded, []⟩

theorem loadCounters_append (outline : Outline) (first second : List Counter) :
    outline.loadCounters probeMap tlsAddr (first ++ second) =
      (outline.loadCounters probeMap tlsAddr first).loadCounters probeMap tlsAddr second :=
  List.foldl_append

theorem loadCounters_before {before : List Counter}
    (unlinked : Unlinked (before.map (roleOf probeMap))) (free : Free probeMap .ends before)
    (counters : List Counter) :
    (⟨closed, some (begun counters false), [], stray⟩ : Outline).loadCounters probeMap tlsAddr before =
      ⟨closed, some (begun (counters ++ before) false), [], stray⟩ := by
  induction before generalizing counters with
  | nil => rw [List.append_nil]; rfl
  | cons counter before ih =>
      have step : (⟨closed, some (begun counters false), [], stray⟩ : Outline).loadCounter tlsAddr
          (roleOf probeMap counter) counter =
            ⟨closed, some (begun (counters ++ [counter]) false), [], stray⟩ := by
        cases role : roleOf probeMap counter with
        | resumes => exact absurd role (unlinked _ List.mem_cons_self).1
        | suspends => exact absurd role (unlinked _ List.mem_cons_self).2
        | ends => exact absurd role (free counter List.mem_cons_self)
        | begins => rfl
        | plain => rfl
      have rest := ih (fun role listed => unlinked role (List.mem_cons_of_mem _ listed))
        (fun other listed => free other (List.mem_cons_of_mem _ listed)) (counters ++ [counter])
      rw [List.append_assoc, List.singleton_append] at rest
      exact (congrArg (fun outline => outline.loadCounters probeMap tlsAddr before) step).trans rest

theorem loadCounters_after_end {after : List Counter}
    (unlinked : Unlinked (after.map (roleOf probeMap))) (free : Free probeMap .begins after)
    {counters loose : List Counter} {bounded : Bool} (settled : bounded = false → loose = []) :
    ∃ counters' loose' bounded',
      (⟨closed, some (begun counters bounded), loose, stray⟩ : Outline).loadCounters probeMap tlsAddr
          after = ⟨closed, some (begun counters' bounded'), loose', stray⟩ ∧
        counters' ++ loose' = counters ++ loose ++ after ∧ (bounded' = false → loose' = []) := by
  induction after generalizing counters loose bounded with
  | nil => exact ⟨counters, loose, bounded, rfl, (List.append_nil _).symm, settled⟩
  | cons counter after ih =>
      have later : Unlinked (after.map (roleOf probeMap)) :=
        fun role listed => unlinked role (List.mem_cons_of_mem _ listed)
      have laterFree : Free probeMap .begins after :=
        fun other listed => free other (List.mem_cons_of_mem _ listed)
      have step : ∃ counters' loose' bounded',
          (⟨closed, some (begun counters bounded), loose, stray⟩ : Outline).loadCounter tlsAddr
              (roleOf probeMap counter) counter =
                ⟨closed, some (begun counters' bounded'), loose', stray⟩ ∧
            counters' ++ loose' = counters ++ loose ++ [counter] ∧
            (bounded' = false → loose' = []) := by
        cases role : roleOf probeMap counter with
        | resumes => exact absurd role (unlinked _ List.mem_cons_self).1
        | suspends => exact absurd role (unlinked _ List.mem_cons_self).2
        | begins => exact absurd role (free counter List.mem_cons_self)
        | ends =>
            exact ⟨counters ++ loose ++ [counter], [], true, rfl, List.append_nil _, fun _ => rfl⟩
        | plain =>
            cases bounded with
            | true =>
                exact ⟨counters, loose ++ [counter], true, rfl, by simp, fun open_ => Bool.noConfusion open_⟩
            | false =>
                refine ⟨counters ++ [counter], loose, false, rfl, ?_, settled⟩
                rw [settled rfl, List.append_nil, List.append_nil]
      obtain ⟨middle, between, flag, stepped, joined, kept⟩ := step
      obtain ⟨last, loose', bounded', rest, total, final⟩ := ih later laterFree kept
      refine ⟨last, loose', bounded', ?_, ?_, final⟩
      · exact (congrArg (fun outline => outline.loadCounters probeMap tlsAddr after) stepped).trans rest
      · rw [total, joined, List.append_assoc, List.singleton_append]

def Ready (outline : Outline) : Prop :=
  outline.current = none ∨ ∃ counters, outline.current = some (begun counters true)

def settled (outline : Outline) : List (Segment × Fate) :=
  outline.closed ++ outline.current.toList.map fun segment => (segment, .intact)

theorem loadCounter_first {outline : Outline} (ready : outline.Ready) (counter : Counter) :
    outline.loadCounter tlsAddr .begins counter =
      ⟨outline.settled, some (begun [counter] false), [], outline.stray ++ outline.loose⟩ := by
  obtain ⟨closed, current, loose, stray⟩ := outline
  rcases ready with none | ⟨counters, isOpen⟩
  · dsimp only at none
    subst none
    simp [loadCounter, openSegment, settled, begun, Segment.start]
  · dsimp only at isOpen
    subst isOpen
    rfl

theorem loadCounters_opening {outline : Outline} (ready : outline.Ready) {counters : List Counter}
    (unlinked : Unlinked (counters.map (roleOf probeMap))) (opening : IsOpening probeMap counters) :
    outline.loadCounters probeMap tlsAddr counters =
      ⟨outline.settled, some (begun counters false), [], outline.stray ++ outline.loose⟩ := by
  obtain ⟨first, before, rfl, begins, free⟩ := opening
  have step : outline.loadCounter tlsAddr .begins first =
      ⟨outline.settled, some (begun [first] false), [], outline.stray ++ outline.loose⟩ :=
    loadCounter_first ready first
  have rest : Unlinked (before.map (roleOf probeMap)) :=
    fun role listed => unlinked role (List.mem_cons_of_mem _ listed)
  rw [← begins] at step
  exact (congrArg (fun outline => outline.loadCounters probeMap tlsAddr before) step).trans
    (loadCounters_before rest free [first])

theorem unlinked_append {first second : List Counter} :
    Unlinked ((first ++ second).map (roleOf probeMap)) ↔
      Unlinked (first.map (roleOf probeMap)) ∧ Unlinked (second.map (roleOf probeMap)) := by
  rw [List.map_append]
  exact List.forall_mem_append

theorem loadCounters_segment {outline : Outline} (ready : outline.Ready) {counters : List Counter}
    (unlinked : Unlinked (counters.map (roleOf probeMap))) (segment : IsSegment probeMap counters) :
    outline.loadCounters probeMap tlsAddr counters =
      ⟨outline.settled, some (begun counters true), [], outline.stray ++ outline.loose⟩ := by
  obtain ⟨first, before, after, last, rfl, begins, ends, free, beginless⟩ := segment
  rw [unlinked_append, unlinked_append] at unlinked
  have opened : outline.loadCounters probeMap tlsAddr (first :: before) = _ :=
    loadCounters_opening ready unlinked.1.1 ⟨first, before, rfl, begins, free⟩
  obtain ⟨held, loose, bounded, stepped, total, _⟩ :=
    loadCounters_after_end unlinked.1.2 beginless
      (fun _ => rfl : false = false → ([] : List Counter) = [])
  rw [List.append_nil] at total
  rw [loadCounters_snoc, loadCounters_append, opened, stepped, ends, ← total]
  rfl

theorem loadCounters_gap {gap : List Counter} (unlinked : Unlinked (gap.map (roleOf probeMap)))
    (beginless : Free probeMap .begins gap) (endless : Free probeMap .ends gap)
    (counters loose : List Counter) :
    (⟨closed, some (begun counters true), loose, stray⟩ : Outline).loadCounters probeMap tlsAddr gap =
      ⟨closed, some (begun counters true), loose ++ gap, stray⟩ := by
  induction gap generalizing loose with
  | nil => rw [List.append_nil]; rfl
  | cons counter gap ih =>
      have step : (⟨closed, some (begun counters true), loose, stray⟩ : Outline).loadCounter tlsAddr
          (roleOf probeMap counter) counter =
            ⟨closed, some (begun counters true), loose ++ [counter], stray⟩ := by
        cases role : roleOf probeMap counter with
        | resumes => exact absurd role (unlinked _ List.mem_cons_self).1
        | suspends => exact absurd role (unlinked _ List.mem_cons_self).2
        | begins => exact absurd role (beginless counter List.mem_cons_self)
        | ends => exact absurd role (endless counter List.mem_cons_self)
        | plain => rfl
      have rest := ih (fun role listed => unlinked role (List.mem_cons_of_mem _ listed))
        (fun other listed => beginless other (List.mem_cons_of_mem _ listed))
        (fun other listed => endless other (List.mem_cons_of_mem _ listed)) (loose ++ [counter])
      rw [List.append_assoc, List.singleton_append] at rest
      exact (congrArg (fun outline => outline.loadCounters probeMap tlsAddr gap) step).trans rest

def headless (counters : List Counter) : Segment × Fate :=
  (⟨.headless, counters, false, []⟩, .compromised)

def fates (heads : List (List Counter)) (split : Split) : List (Segment × Fate) :=
  heads.map headless ++ split.parts.map (fun part => (begun part.1 true, .intact)) ++
    if split.tail = [] then [] else [(begun split.tail false, .compromised)]

theorem loadCounters_lead {lead : List Counter} (unlinked : Unlinked (lead.map (roleOf probeMap)))
    (free : Free probeMap .begins lead) :
    ∃ heads : List (List Counter), (∀ head ∈ heads, head ⊆ lead) ∧
      empty.loadCounters probeMap tlsAddr lead =
        ⟨heads.map headless, none,
          lead.rtakeWhile fun counter => roleOf probeMap counter ≠ .ends, []⟩ := by
  induction lead using List.reverseRecOn with
  | nil => exact ⟨[], List.forall_mem_nil _, rfl⟩
  | append_singleton lead counter ih =>
      rw [unlinked_append] at unlinked
      rw [free_append, free_singleton] at free
      obtain ⟨heads, inside, loaded⟩ := ih unlinked.1 free.1
      have wider : ∀ head ∈ heads, head ⊆ lead ++ [counter] := fun head listed =>
        List.Subset.trans (inside head listed) (List.subset_append_left _ _)
      rw [loadCounters_snoc, loaded, List.rtakeWhile_concat]
      cases role : roleOf probeMap counter with
      | resumes => exact absurd role (unlinked.2 _ List.mem_cons_self).1
      | suspends => exact absurd role (unlinked.2 _ List.mem_cons_self).2
      | begins => exact absurd role free.2
      | ends =>
          refine ⟨heads ++ [counter :: lead.rtakeWhile fun counter => roleOf probeMap counter ≠ .ends],
            List.forall_mem_append.mpr ⟨wider, List.forall_mem_singleton.mpr ?_⟩, ?_⟩
          · refine List.cons_subset.mpr ⟨by simp, ?_⟩
            exact List.Subset.trans (List.rtakeWhile_suffix _ _).subset (List.subset_append_left _ _)
          · simp [loadCounter, close, headless]
      | plain => exact ⟨heads, wider, by simp [loadCounter]⟩

theorem loadCounters_parts {heads : List (Segment × Fate)} {loose : List Counter}
    {parts : List (List Counter × List Counter)}
    (unlinked : Unlinked ((parts.flatMap fun part => part.1 ++ part.2).map (roleOf probeMap)))
    (segments : ∀ part ∈ parts, IsSegment probeMap part.1)
    (gaps : ∀ part ∈ parts, Free probeMap .begins part.2 ∧ Free probeMap .ends part.2) :
    ∃ outline : Outline,
      (⟨heads, none, loose, []⟩ : Outline).loadCounters probeMap tlsAddr
          (parts.flatMap fun part => part.1 ++ part.2) = outline ∧
        outline.Ready ∧
        outline.settled = heads ++ parts.map (fun part => (begun part.1 true, .intact)) ∧
        outline.stray = (loose :: parts.map Prod.snd).dropLast.flatten ∧
        outline.loose = (loose :: parts.map Prod.snd).getLast (List.cons_ne_nil _ _) := by
  induction parts using List.reverseRecOn with
  | nil => exact ⟨_, rfl, .inl rfl, rfl, rfl, rfl⟩
  | append_singleton parts part ih =>
      obtain ⟨segment, gap⟩ := part
      rw [List.flatMap_append, List.flatMap_singleton, unlinked_append, unlinked_append] at unlinked
      rw [List.forall_mem_append, List.forall_mem_singleton] at segments gaps
      obtain ⟨outline, loaded, ready, closed, stray, free⟩ := ih unlinked.1 segments.1 gaps.1
      rw [List.flatMap_append, List.flatMap_singleton, loadCounters_append, loadCounters_append,
        loaded, loadCounters_segment ready unlinked.2.1 segments.2,
        loadCounters_gap unlinked.2.2 gaps.2.1 gaps.2.2, List.nil_append]
      refine ⟨_, rfl, .inr ⟨segment, rfl⟩, ?_, ?_, ?_⟩
      · rw [settled, closed]
        simp
      · rw [stray, free, List.map_append, ← List.cons_append, List.map_singleton,
          List.dropLast_concat, ← List.flatten_concat, List.dropLast_append_getLast]
      · simp

theorem endLoad_ready {outline : Outline} (ready : outline.Ready) :
    outline.endLoad = ⟨outline.settled, none, outline.loose, outline.stray⟩ := by
  obtain ⟨closed, current, loose, stray⟩ := outline
  rcases ready with none | ⟨counters, isOpen⟩
  · dsimp only at none
    subst none
    simp [endLoad, settled]
  · dsimp only at isOpen
    subst isOpen
    rfl

theorem loadThread_split {split : Split} {thread : Thread}
    (unlinked : Unlinked (thread.counters.map (roleOf probeMap)))
    (covers : split.Covers probeMap thread.counters) :
    ∃ heads : List (List Counter), (∀ head ∈ heads, head ⊆ split.lead) ∧
      empty.loadThread probeMap thread =
        { closed := fates heads split
          current := none
          loose :=
            if split.tail = [] then (split.between probeMap).getLast (split.between_ne_nil probeMap) else []
          stray :=
            if split.tail = [] then (split.between probeMap).dropLast.flatten
            else (split.between probeMap).flatten } := by
  rw [covers.whole, unlinked_append, unlinked_append] at unlinked
  obtain ⟨heads, inside, led⟩ := loadCounters_lead unlinked.1.1 covers.lead
  have led : empty.loadCounters probeMap thread.tlsAddr split.lead =
      ⟨heads.map headless, none, split.loose probeMap, []⟩ := led
  obtain ⟨outline, loaded, ready, closed, stray, free⟩ :=
    loadCounters_parts unlinked.1.2 covers.segments covers.gaps
  have lastLoose : outline.loose =
      (split.between probeMap).getLast (split.between_ne_nil probeMap) := free
  have earlierStray : outline.stray = (split.between probeMap).dropLast.flatten := stray
  have allStray : outline.stray ++ outline.loose = (split.between probeMap).flatten := by
    rw [earlierStray, lastLoose, ← List.flatten_concat, List.dropLast_append_getLast]
  refine ⟨heads, inside, ?_⟩
  rw [loadThread, covers.whole, loadCounters_append, loadCounters_append, led, loaded, fates, ← closed,
    ← lastLoose, ← earlierStray, ← allStray]
  rcases covers.tail with none | opening
  · rw [none, if_pos rfl, if_pos rfl, if_pos rfl, List.append_nil]
    exact endLoad_ready ready
  · have full : split.tail ≠ [] := by
      obtain ⟨first, before, shape, _⟩ := opening
      rw [shape]
      exact List.cons_ne_nil _ _
    rw [if_neg full, if_neg full, if_neg full, loadCounters_opening ready unlinked.2 opening]
    rfl

end Outline

theorem fragmentsOf_of_unlinked {segments : List Segment}
    (unlinked : ∀ segment ∈ segments, segment.suspendIds = [] ∧
      ∀ linkId, segment.origin ≠ .resumed linkId) : fragmentsOf segments = TxnFragments.new := by
  induction segments using List.reverseRecOn with
  | nil => rfl
  | append_singleton segments segment ih =>
      rw [List.forall_mem_append, List.forall_mem_singleton] at unlinked
      rw [fragmentsOf_append, ih unlinked.1, TxnFragments.register]
      cases origin : segment.origin with
      | resumed linkId => exact absurd origin (unlinked.2.2 linkId)
      | begun => rw [unlinked.2.1]; rfl
      | headless => rfl

theorem endCollection_of_rootless {loader : Loader} (none : loader.fragments.rootFragments = [])
    (fuel : Nat) : loader.endCollection fuel = some loader := by
  have joined : loader.fragments.join fuel loader.heap loader.nextTxnId =
      some ⟨loader.heap, loader.nextTxnId, []⟩ := by
    rw [TxnFragments.join, none, joinRoots]
  rw [Loader.endCollection, joined]
  rfl

structure Split.Loaded (probeMap : Probe → Probe) (split : Split) (loader : Loader) : Prop where
  ids : loader.txns.map Prod.fst = (List.range' 1 split.parts.length).map TxnId.int
  intact : loader.intactCounters = split.parts.map Prod.fst
  compromised : ∃ heads : List (List Counter), (∀ head ∈ heads, head ⊆ split.lead) ∧
    loader.compromisedCounters = heads ++ if split.tail = [] then [] else [split.tail]
  nonTxn : loader.nonTxnCounters =
    if split.tail = [] then (split.between probeMap).dropLast.flatten
    else (split.between probeMap).flatten
  ephemeral : loader.ephemeralCounters =
    if split.tail = [] then (split.between probeMap).getLast (split.between_ne_nil probeMap) else []

theorem countersOf_split (fate : Fate) (heads : List (List Counter)) (split : Split) :
    countersOf fate (Outline.fates heads split) =
      match fate with
      | .intact => split.parts.map Prod.fst
      | .compromised => heads ++ if split.tail = [] then [] else [split.tail]
      | .linked => [] := by
  have ofHeads : countersOf fate (heads.map Outline.headless) =
      if fate = .compromised then heads else [] := by
    cases fate <;> simp [countersOf, Outline.headless, List.filterMap_map, Function.comp_def]
  have ofParts : countersOf fate
      (split.parts.map fun part => (Outline.begun part.1 true, Fate.intact)) =
        if fate = .intact then split.parts.map Prod.fst else [] := by
    cases fate <;>
      simp [countersOf, Outline.begun, List.filterMap_map, List.filterMap_eq_map']
  rw [Outline.fates, countersOf_append, countersOf_append, ofHeads, ofParts]
  by_cases none : split.tail = []
  · cases fate <;> simp [none, countersOf]
  · cases fate <;> simp [none, countersOf, Outline.begun]

theorem plain_split (heads : List (List Counter)) (split : Split) :
    ∀ segment ∈ (Outline.fates heads split).map Prod.fst,
      segment.suspendIds = [] ∧ ∀ linkId, segment.origin ≠ .resumed linkId := by
  rw [Outline.fates, List.map_append, List.map_append, List.map_map, List.map_map]
  refine List.forall_mem_append.mpr ⟨List.forall_mem_append.mpr ⟨?_, ?_⟩, ?_⟩
  · exact List.forall_mem_map.mpr fun head _ => ⟨rfl, fun linkId => Origin.noConfusion⟩
  · exact List.forall_mem_map.mpr fun part _ => ⟨rfl, fun linkId => Origin.noConfusion⟩
  · split_ifs
    · exact List.forall_mem_nil _
    · exact List.forall_mem_singleton.mpr ⟨rfl, fun linkId => Origin.noConfusion⟩

/-- A stream of begin, end and plain counters can be split, and however it is split, the loader
finds the segments, in order, and leaves the rest where the split has it. -/
theorem loadThread_segments (probeMap : Probe → Probe) (thread : Thread)
    (unlinked : ∀ counter ∈ thread.counters,
      (probeMap counter.probe).canResumeTxn = false ∧ (probeMap counter.probe).canSuspendTxn = false) :
    (∃ split : Split, split.Covers probeMap thread.counters) ∧
      ∀ split : Split, split.Covers probeMap thread.counters → ∀ fuel, ∃ final,
        (Loader.new.loadThread probeMap thread).endCollection fuel = some final ∧
          split.Loaded probeMap final := by
  refine ⟨exists_split probeMap thread.counters, fun split covers fuel => ?_⟩
  have roles : Outline.Unlinked (thread.counters.map (roleOf probeMap)) := by
    intro role listed
    obtain ⟨counter, held, rfl⟩ := List.mem_map.mp listed
    exact Probe.role_unlinked (unlinked counter held)
  have refines := loadThreads_refines probeMap [thread]
  have single : Outline.empty.loadThreads probeMap [thread] = Outline.empty.loadThread probeMap thread :=
    rfl
  obtain ⟨heads, inside, outlined⟩ := Outline.loadThread_split roles covers
  rw [single, outlined] at refines
  have intact := countersOf_split .intact heads split
  have compromised := countersOf_split .compromised heads split
  have none : (Loader.new.loadThreads probeMap [thread]).fragments.rootFragments = [] := by
    rw [refines.fragments, Refines.segments_idle rfl, fragmentsOf_of_unlinked]
    · rfl
    · exact plain_split heads split
  refine ⟨_, endCollection_of_rootless none fuel, ?_, ?_, ⟨heads, inside, ?_⟩, refines.stray,
    refines.loose⟩
  · have counted := congrArg List.length refines.intactCounters
    rw [intact, Loader.intactCounters, List.length_map, List.length_map, refines.txns, numbered,
      List.length_map, List.length_zipIdx] at counted
    rw [refines.txns, numbered_keys, counted]
  · rw [refines.intactCounters, intact]
  · rw [refines.compromisedCounters, compromised]

def beginEndPlain : Thread where
  tlsAddr := List.replicate 16 '1'
  counters := [⟨0, .txnBeginProbe, [], 1⟩, ⟨1, .txnEndProbe, [], 2⟩, ⟨2, .probe, [], 3⟩]

/-- One segment, with a loose counter behind it. -/
theorem loadThread_segments_begin_end :
    (∃ split : Split, split.Covers id beginEndPlain.counters) ∧
      ∀ split : Split, split.Covers id beginEndPlain.counters → ∀ fuel, ∃ final,
        (Loader.new.loadThread id beginEndPlain).endCollection fuel = some final ∧
          split.Loaded id final :=
  loadThread_segments id beginEndPlain (by decide)

end Xpedite.Txn
