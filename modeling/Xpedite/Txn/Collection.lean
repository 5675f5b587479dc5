import Xpedite.Txn.Fragments
import Xpedite.Txn.Join
import Xpedite.Txn.Streams

/-!
The end of the collection: the joined transactions are inserted into `txns` one
after the other.
-/

namespace Xpedite.Txn

open Xpedite.Lib

theorem exists_endCollection_iff (loader : Loader) :
    (∃ fuel loader', loader.endCollection fuel = some loader') ↔ loader.fragments.LinksFinite := by
  rw [← exists_join_iff loader.fragments loader.heap loader.nextTxnId]
  refine exists_congr fun fuel => ?_
  simp only [Loader.endCollection]
  split
  · rename_i stuck
    simp [stuck]
  · rename_i joined done
    simp [done]

structure Inserts (loader loader' : Loader) (txns : List Nat) : Prop where
  compromised : loader'.compromisedTxns = loader.compromisedTxns
  stray : loader'.nonTxnCounters = loader.nonTxnCounters
  loose : loader'.ephemeralCounters = loader.ephemeralCounters
  entries : ∀ ref ∈ loader'.txns.map Prod.snd, ref ∈ txns ∨ ref ∈ loader.txns.map Prod.snd
  stays : ∀ ref ∈ loader.txns.map Prod.snd, ref ∈ loader'.txns.map Prod.snd
  frame : ∀ ref, ref ∉ loader'.txns.map Prod.snd → loader'.heap.cell ref = loader.heap.cell ref
  grows : ∀ ref, (loader.heap.cell ref).counters ⊆ (loader'.heap.cell ref).counters
  only : ∀ allowed : Counter → Prop,
    (∀ txn ∈ txns ++ loader.txns.map Prod.snd, ∀ counter ∈ (loader.heap.cell txn).counters,
      allowed counter) →
    ∀ entry ∈ loader'.txns, ∀ counter ∈ (loader'.heap.cell entry.2).counters, allowed counter
  held : ∀ txn ∈ txns ++ loader.txns.map Prod.snd, ∃ entry ∈ loader'.txns,
    (loader.heap.cell txn).counters ⊆ (loader'.heap.cell entry.2).counters

theorem Inserts.nil (loader : Loader) : Inserts loader loader [] where
  compromised := rfl
  stray := rfl
  loose := rfl
  entries := fun _ member => .inr member
  stays := fun _ member => member
  frame := fun _ _ => rfl
  grows := fun _ => List.Subset.refl _
  only := by
    intro allowed all entry member
    exact all entry.2 (List.mem_map.mpr ⟨entry, member, rfl⟩)
  held := by
    intro txn member
    obtain ⟨entry, isEntry, rfl⟩ := List.mem_map.mp member
    exact ⟨entry, isEntry, List.Subset.refl _⟩

theorem mem_join_counters {txn other : Transaction} {counter : Counter} :
    counter ∈ (Transaction.join other txn).counters ↔
      counter ∈ txn.counters ∨ counter ∈ other.counters := by
  rw [Transaction.join, (sortByTsc_perm _).mem_iff, List.mem_append]

theorem insertTxn_cases (loader : Loader) (txn : Nat) :
    (∃ entry ∈ loader.txns, entry.1 = (loader.heap.cell txn).txnId ∧
      loader.insertTxn txn = { loader with
        heap := loader.heap.modify entry.2 (Transaction.join (loader.heap.cell txn))
        joinedTxns := loader.joinedTxns + 1 }) ∨
    ((∀ entry ∈ loader.txns, entry.1 ≠ (loader.heap.cell txn).txnId) ∧
      loader.insertTxn txn =
        { loader with txns := loader.txns ++ [((loader.heap.cell txn).txnId, txn)] }) := by
  simp only [Loader.insertTxn]
  split
  · rename_i entry found
    have member := List.mem_of_find?_eq_some found
    have sameId := List.find?_some found
    exact .inl ⟨entry, member, by simpa using sameId, rfl⟩
  · rename_i absent
    rw [List.find?_eq_none] at absent
    exact .inr ⟨fun entry member => by simpa using absent entry member, rfl⟩

theorem Inserts.insertTxn (loader : Loader) (txn : Nat) :
    Inserts loader (loader.insertTxn txn) [txn] := by
  rcases insertTxn_cases loader txn with ⟨entry, member, _, inserted⟩ | ⟨_, inserted⟩
  · have isStored : entry.2 ∈ loader.txns.map Prod.snd := List.mem_map.mpr ⟨entry, member, rfl⟩
    rw [inserted]
    constructor
    · rfl
    · rfl
    · rfl
    · exact fun _ stored => .inr stored
    · exact fun _ stored => stored
    · intro ref outside
      exact Arena.cell_modify_of_ne _ _ fun same => outside (same ▸ isStored)
    · intro ref counter held
      by_cases same : ref = entry.2
      · subst same
        rw [Arena.cell_modify_self, mem_join_counters]
        exact .inl held
      · rwa [Arena.cell_modify_of_ne _ _ same]
    · intro allowed all other isOther counter held
      by_cases same : other.2 = entry.2
      · rw [same, Arena.cell_modify_self, mem_join_counters] at held
        rcases held with own | added
        · exact all entry.2 (List.mem_append_right _ isStored) counter own
        · exact all txn (by simp) counter added
      · rw [Arena.cell_modify_of_ne _ _ same] at held
        exact all other.2 (List.mem_append_right _ (List.mem_map.mpr ⟨other, isOther, rfl⟩))
          counter held
    · intro other isOther
      rcases List.mem_append.mp isOther with isTxn | stored
      · rw [List.mem_singleton] at isTxn
        refine ⟨entry, member, fun counter held => ?_⟩
        rw [Arena.cell_modify_self, mem_join_counters]
        exact .inr (isTxn ▸ held)
      · obtain ⟨own, isOwn, rfl⟩ := List.mem_map.mp stored
        refine ⟨own, isOwn, fun counter held => ?_⟩
        by_cases same : own.2 = entry.2
        · rw [same, Arena.cell_modify_self, mem_join_counters]
          exact .inl (same ▸ held)
        · rwa [Arena.cell_modify_of_ne _ _ same]
  · rw [inserted]
    constructor
    · rfl
    · rfl
    · rfl
    · intro ref stored
      rw [List.map_append, List.mem_append] at stored
      exact stored.symm
    · intro ref stored
      rw [List.map_append]
      exact List.mem_append_left _ stored
    · exact fun _ _ => rfl
    · exact fun _ => List.Subset.refl _
    · intro allowed all entry member
      rcases List.mem_append.mp member with stored | isNew
      · exact all entry.2 (List.mem_append_right _ (List.mem_map.mpr ⟨entry, stored, rfl⟩))
      · rw [List.mem_singleton] at isNew
        subst isNew
        exact all txn (by simp)
    · intro other isOther
      rcases List.mem_append.mp isOther with isTxn | stored
      · rw [List.mem_singleton] at isTxn
        refine ⟨((loader.heap.cell txn).txnId, txn), by simp, ?_⟩
        rw [isTxn]
        exact List.Subset.refl _
      · obtain ⟨own, isOwn, rfl⟩ := List.mem_map.mp stored
        exact ⟨own, List.mem_append_left _ isOwn, List.Subset.refl _⟩

theorem Inserts.cons {loader next last : Loader} {txn : Nat} {rest : List Nat}
    (head : Inserts loader next [txn]) (tail : Inserts next last rest) :
    Inserts loader last (txn :: rest) where
  compromised := tail.compromised.trans head.compromised
  stray := tail.stray.trans head.stray
  loose := tail.loose.trans head.loose
  stays := fun ref stored => tail.stays ref (head.stays ref stored)
  entries := by
    intro ref stored
    rcases tail.entries ref stored with inRest | inNext
    · exact .inl (List.mem_cons_of_mem _ inRest)
    · rcases head.entries ref inNext with isTxn | old
      · rw [List.mem_singleton] at isTxn
        exact .inl (isTxn ▸ List.mem_cons_self)
      · exact .inr old
  frame := by
    intro ref outside
    rw [tail.frame ref outside, head.frame ref fun inNext => outside (tail.stays ref inNext)]
  grows := fun ref => List.Subset.trans (head.grows ref) (tail.grows ref)
  only := by
    intro allowed all
    have headAllowed := head.only allowed fun other isOther => all other (by
      simp only [List.mem_append, List.mem_cons, List.not_mem_nil, or_false] at isOther ⊢
      rcases isOther with isTxn | stored
      · exact .inl (.inl isTxn)
      · exact .inr stored)
    have nextAllowed : ∀ ref ∈ next.txns.map Prod.snd, ∀ counter ∈ (next.heap.cell ref).counters,
        allowed counter := by
      intro ref stored
      obtain ⟨entry, isEntry, rfl⟩ := List.mem_map.mp stored
      exact headAllowed entry isEntry
    refine tail.only allowed fun other isOther => ?_
    by_cases stored : other ∈ next.txns.map Prod.snd
    · exact nextAllowed other stored
    · rw [head.frame other stored]
      have inRest := (List.mem_append.mp isOther).resolve_right stored
      exact all other (by simp [inRest])
  held := by
    have later {txn : Nat} (found : ∃ entry ∈ next.txns,
        (loader.heap.cell txn).counters ⊆ (next.heap.cell entry.2).counters) :
        ∃ entry ∈ last.txns, (loader.heap.cell txn).counters ⊆ (last.heap.cell entry.2).counters := by
      obtain ⟨entry, member, subset⟩ := found
      obtain ⟨final, isFinal, grown⟩ := tail.held entry.2
        (List.mem_append_right _ (List.mem_map.mpr ⟨entry, member, rfl⟩))
      exact ⟨final, isFinal, List.Subset.trans subset grown⟩
    intro other isOther
    rcases List.mem_append.mp isOther with isNew | stored
    · rcases List.mem_cons.mp isNew with isTxn | inRest
      · exact later (head.held other (by simp [isTxn]))
      · obtain ⟨final, isFinal, grown⟩ := tail.held other (List.mem_append_left _ inRest)
        exact ⟨final, isFinal, List.Subset.trans (head.grows other) grown⟩
    · exact later (head.held other (List.mem_append_right _ stored))

theorem foldl_insertTxn_inserts (loader : Loader) (txns : List Nat) :
    Inserts loader (txns.foldl Loader.insertTxn loader) txns := by
  induction txns generalizing loader with
  | nil => exact .nil loader
  | cons txn rest ih => exact (Inserts.insertTxn loader txn).cons (ih _)

def TxnFragments.Reached (fragments : TxnFragments) (ref : Nat) : Prop :=
  ∃ root ∈ fragments.rootFragments, Below fragments.children (fragments.children root) ref

section Collected

variable {probeMap : Probe → Probe} {outline : Outline} {loader : Loader}

theorem joinInput_root (refines : Refines outline loader) {root : Nat}
    (member : root ∈ loader.fragments.rootFragments) :
    JoinInput (IsResumed outline.segments) (fun ref => (loader.heap.cell ref).counters)
      ⟨loader.heap, loader.nextTxnId, []⟩ (loader.fragments.txnOf root) := by
  rw [refines.fragments] at member ⊢
  obtain ⟨segment, found, begun, _⟩ := isSuspended_root member
  have bound (ref : Nat) (other : Segment) (isSegment : outline.segments[ref]? = some other) :
      ref < loader.heap.size := by
    rw [refines.size]
    exact (List.getElem?_eq_some_iff.mp isSegment).1
  refine ⟨bound _ _ found, ?_, ?_⟩
  · rintro ⟨other, linkId, isOther, resumed⟩
    rw [found, Option.some.injEq] at isOther
    rw [isOther, resumed] at begun
    cases begun
  · rintro ref ⟨other, linkId, isOther, _⟩
    exact ⟨bound _ _ isOther, rfl⟩

theorem resumed_children (refines : Refines outline loader) (ref : Nat) :
    ∀ child ∈ loader.fragments.children ref,
      IsResumed outline.segments (loader.fragments.txnOf child) := by
  intro child member
  rw [refines.fragments] at member ⊢
  exact isResumed_child member

/-- The transactions whose counters are in `txns` after the collection: the intact ones, the
ones that suspended, and the resumed ones that the join comes by. -/
def Collected (outline : Outline) (fragments : TxnFragments) (txn : Nat) : Prop :=
  txn ∈ refs .intact outline.closed ∨ IsSuspended outline.segments txn ∨
    ∃ ref, fragments.Reached ref ∧ fragments.txnOf ref = txn

theorem reached_isResumed (refines : Refines outline loader) {ref : Nat}
    (reached : loader.fragments.Reached ref) :
    IsResumed outline.segments (loader.fragments.txnOf ref) := by
  obtain ⟨root, _, isBelow⟩ := reached
  obtain ⟨parent, isChild⟩ := isBelow.exists_parent
  exact resumed_children refines parent ref isChild

theorem not_intact_of_suspended (sound : outline.Sound probeMap) {txn : Nat}
    (suspended : IsSuspended outline.segments txn) : txn ∉ refs .intact outline.closed := by
  intro intact
  obtain ⟨segment, found, _, suspends⟩ := suspended
  obtain ⟨other, isClosed⟩ := mem_refs.mp intact
  have same : outline.segments[txn]? = some other := outline.segments_closed isClosed
  rw [found, Option.some.injEq] at same
  subst same
  exact suspends (sound.closed _ (List.mem_of_getElem? isClosed)).2.2

theorem endCollection_collects (refines : Refines outline loader) (sound : outline.Sound probeMap)
    {fuel : Nat} {loader' : Loader}
    (called : loader.endCollection fuel = some loader') :
    loader'.compromisedTxns = loader.compromisedTxns ∧
      loader'.nonTxnCounters = loader.nonTxnCounters ∧
      loader'.ephemeralCounters = loader.ephemeralCounters ∧
      (∀ ref < loader.heap.size, ref ∉ refs .intact outline.closed →
        ¬IsSuspended outline.segments ref → loader'.heap.cell ref = loader.heap.cell ref) ∧
      ∀ counter, (∃ entry ∈ loader'.txns, counter ∈ (loader'.heap.cell entry.2).counters) ↔
        ∃ txn, Collected outline loader.fragments txn ∧
          counter ∈ (loader.heap.cell txn).counters := by
  simp only [Loader.endCollection] at called
  split at called
  · cases called
  · rename_i joined done
    simp only [Option.some.injEq] at called
    have rootSuspended {root : Nat} (member : root ∈ loader.fragments.rootFragments) :
        IsSuspended outline.segments (loader.fragments.txnOf root) := by
      rw [refines.fragments] at member ⊢
      exact isSuspended_root member
    obtain ⟨new, gathers⟩ := joinRoots_gathers (resumed_children refines)
      (fun counter => ∃ txn, Collected outline loader.fragments txn ∧
        counter ∈ (loader.heap.cell txn).counters) done
      (fun root member => joinInput_root refines member)
      (fun root member counter held => ⟨_, .inr (.inl (rootSuspended member)), held⟩)
      (fun root member ref isBelow counter isOwn =>
        ⟨_, .inr (.inr ⟨ref, ⟨root, member, isBelow⟩, rfl⟩), isOwn⟩)
    have txns : joined.txns = new := gathers.txns
    rw [txns] at called
    subst called
    have inserts := foldl_insertTxn_inserts { loader with heap := joined.heap } new
    have intact : loader.txns.map Prod.snd = refs .intact outline.closed := by
      rw [refines.txns, numbered_snd]
    have bound {ref : Nat} (member : ref ∈ refs .intact outline.closed) : ref < loader.heap.size := by
      obtain ⟨segment, found⟩ := mem_refs.mp member
      exact refines.closed_lt found
    have newSuspended : ∀ txn ∈ new, txn < loader.heap.size →
        IsSuspended outline.segments txn := by
      intro txn member old
      rcases (gathers.members txn member).1 with inRoots | isNew
      · obtain ⟨root, isRoot, rfl⟩ := List.mem_map.mp inRoots
        exact rootSuspended isRoot
      · have sizes : loader.heap.size ≤ txn := isNew
        omega
    have sameIntact {ref : Nat} (member : ref ∈ refs .intact outline.closed) :
        joined.heap.cell ref = loader.heap.cell ref := by
      refine gathers.frame ref (bound member) fun inRoots => ?_
      obtain ⟨root, isRoot, rfl⟩ := List.mem_map.mp inRoots
      exact not_intact_of_suspended sound (rootSuspended isRoot) member
    refine ⟨inserts.compromised, inserts.stray, inserts.loose, ?_, ?_⟩
    · intro ref old notIntact unsuspended
      have notRoot : ref ∉ loader.fragments.rootFragments.map loader.fragments.txnOf := by
        intro inRoots
        obtain ⟨root, isRoot, rfl⟩ := List.mem_map.mp inRoots
        exact unsuspended (rootSuspended isRoot)
      rw [inserts.frame ref, gathers.frame ref old notRoot]
      intro stored
      rcases inserts.entries ref stored with isNew | inIntact
      · exact unsuspended (newSuspended ref isNew old)
      · exact notIntact (intact ▸ inIntact)
    · intro counter
      constructor
      · rintro ⟨entry, member, held⟩
        refine inserts.only (fun counter => ∃ txn, Collected outline loader.fragments txn ∧
          counter ∈ (loader.heap.cell txn).counters) ?_ entry member counter held
        intro txn isTxn counter held
        rcases List.mem_append.mp isTxn with isNew | inIntact
        · exact gathers.only txn (List.mem_append_left _ isNew) counter held
        · have isIntact : txn ∈ refs .intact outline.closed := intact ▸ inIntact
          rw [sameIntact isIntact] at held
          exact ⟨txn, .inl isIntact, held⟩
      · rintro ⟨txn, collected, held⟩
        have gathered : ∃ source ∈ new ++ loader.txns.map Prod.snd,
            counter ∈ (joined.heap.cell source).counters := by
          rcases collected with isIntact | suspended | ⟨ref, ⟨root, isRoot, isBelow⟩, rfl⟩
          · exact ⟨txn, List.mem_append_right _ (intact ▸ isIntact), by rwa [sameIntact isIntact]⟩
          · obtain ⟨root, isRoot, rfl⟩ := exists_root suspended
            rw [← refines.fragments] at isRoot held
            obtain ⟨source, isNew, found⟩ := gathers.rooted root isRoot counter held
            exact ⟨source, List.mem_append_left _ isNew, found⟩
          · obtain ⟨source, isNew, found⟩ := gathers.below root isRoot ref isBelow counter held
            exact ⟨source, List.mem_append_left _ isNew, found⟩
        obtain ⟨source, isSource, found⟩ := gathered
        obtain ⟨entry, member, subset⟩ := inserts.held source isSource
        exact ⟨entry, member, subset found⟩

end Collected

end Xpedite.Txn
