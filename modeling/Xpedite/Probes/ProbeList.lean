import Xpedite.Lib.Runs
import Xpedite.Probes.ProbeListCore

/-!
When the list of probes holds what it was given.  The list takes the links of a probe for
its membership and the number of its probes for a fresh id, and both can be wrong.
-/

namespace Xpedite.Probes

open Lib

variable {Address : Type} [DecidableEq Address]

/-- The probes of an iteration, each linked to the one before it and the one behind it. -/
structure Visits (tracked : Tracked Address) (visited : List Address) : Prop where
  iterated : ∃ steps, tracked.list.iterate steps = some visited
  linked : Linked tracked.list.next tracked.list.prev none tracked.list.head visited
  once : visited.Nodup
  accepted : ∀ probe, probe ∈ visited ↔ probe ∈ tracked.accepted
  size : tracked.list.size.toNat = visited.length
  ids : ∀ first ∈ visited, ∀ second ∈ visited,
    tracked.list.id first = tracked.list.id second → first = second

def Integrity (tracked : Tracked Address) : Prop := ∃ visited, Visits tracked visited

/-- The last id there is goes to a list that has come to hold 2 ^ 32 - 1 probes. -/
def Harmless (tracked : Tracked Address) : ProbeAction Address → Prop
  | .add none _ => True
  | .add (some probe) valid =>
      valid = true → tracked.list.next probe = none →
        probe ∉ tracked.accepted ∧
          (∀ other ∈ tracked.accepted, tracked.list.id other ≠ tracked.list.size) ∧
          tracked.list.size ≠ 0xFFFFFFFF
  | .remove probe => tracked.list.isValid probe = true → probe ∈ tracked.accepted

instance Harmless.decidable (tracked : Tracked Address) :
    ∀ action, Decidable (Harmless tracked action)
  | .add none _ => isTrue trivial
  | .add (some probe) valid =>
      inferInstanceAs (Decidable (valid = true → tracked.list.next probe = none →
        probe ∉ tracked.accepted ∧
          (∀ other ∈ tracked.accepted, tracked.list.id other ≠ tracked.list.size) ∧
          tracked.list.size ≠ 0xFFFFFFFF))
  | .remove probe =>
      inferInstanceAs (Decidable (tracked.list.isValid probe = true → probe ∈ tracked.accepted))

theorem Visits.length_eq {tracked : Tracked Address} {visited : List Address}
    (visits : Visits tracked visited) : visited.length = tracked.accepted.card := by
  have same : visited.toFinset = tracked.accepted := by
    ext probe
    rw [List.mem_toFinset, visits.accepted]
  rw [← same, List.toFinset_card_of_nodup visits.once]

omit [DecidableEq Address] in
theorem visits_of_linked {tracked : Tracked Address} {visited : List Address}
    (linked : Linked tracked.list.next tracked.list.prev none tracked.list.head visited)
    (once : visited.Nodup) (accepted : ∀ probe, probe ∈ visited ↔ probe ∈ tracked.accepted)
    (size : tracked.list.size.toNat = visited.length)
    (ids : ∀ first ∈ visited, ∀ second ∈ visited,
      tracked.list.id first = tracked.list.id second → first = second) :
    Visits tracked visited where
  iterated := ⟨visited.length, walk_of_chain linked.chain⟩
  linked := linked
  once := once
  accepted := accepted
  size := size
  ids := ids

section Fields

variable (list : ProbeList Address) {probe other : Address}

theorem add_prev_self (elsewhere : list.head ≠ some probe) :
    (list.add probe).prev probe = none := by
  rw [ProbeList.add]
  cases head : list.head with
  | none => exact Function.update_self _ _ _
  | some first =>
      have differs : probe ≠ first := by
        rintro rfl
        exact elsewhere head
      exact (Function.update_of_ne differs _ _).trans (Function.update_self _ _ _)

theorem add_prev_head (first : list.head = some other) :
    (list.add probe).prev other = some probe := by
  rw [ProbeList.add, first]
  exact Function.update_self _ _ _

theorem add_prev_of_ne (differs : other ≠ probe) (notFirst : list.head ≠ some other) :
    (list.add probe).prev other = list.prev other := by
  rw [ProbeList.add]
  cases head : list.head with
  | none => exact Function.update_of_ne differs _ _
  | some first =>
      have apart : other ≠ first := by
        rintro rfl
        exact notFirst head
      exact (Function.update_of_ne apart _ _).trans (Function.update_of_ne differs _ _)

theorem unlink_prev (follows : list.next probe = some other) :
    (list.unlink probe).prev other = list.prev probe := by
  rw [ProbeList.unlink, follows]
  exact Function.update_self _ _ _

theorem unlink_prev_of_ne (elsewhere : list.next probe ≠ some other) :
    (list.unlink probe).prev other = list.prev other := by
  rw [ProbeList.unlink]
  cases follows : list.next probe with
  | none => rfl
  | some next =>
      have apart : other ≠ next := by
        rintro rfl
        exact elsewhere follows
      exact Function.update_of_ne apart _ _

theorem unlink_next_eq :
    (list.unlink probe).next =
      match (list.unlink probe).prev probe with
      | none => list.next
      | some before => Function.update list.next before (list.next probe) := rfl

section Apart

variable (apart : list.next probe ≠ some probe)

include apart

theorem unlink_next (precedes : list.prev probe = some other) :
    (list.unlink probe).next other = list.next probe := by
  rw [unlink_next_eq, unlink_prev_of_ne list apart, precedes]
  exact Function.update_self _ _ _

theorem unlink_next_of_ne (elsewhere : list.prev probe ≠ some other) :
    (list.unlink probe).next other = list.next other := by
  rw [unlink_next_eq, unlink_prev_of_ne list apart]
  cases precedes : list.prev probe with
  | none => rfl
  | some before =>
      have differs : other ≠ before := by
        rintro rfl
        exact elsewhere precedes
      exact Function.update_of_ne differs _ _

end Apart

theorem unlink_head : (list.unlink probe).head =
    if list.head = some probe then
      ((list.unlink probe).next probe).or ((list.unlink probe).prev probe)
    else list.head := rfl

end Fields

theorem toNat_size_add {size : UInt32} (below : size ≠ 0xFFFFFFFF) :
    (size + 1).toNat = size.toNat + 1 := by
  have bound := size.toNat_lt
  have differs : size.toNat ≠ 2 ^ 32 - 1 := fun same => below (UInt32.toNat_inj.mp same)
  have one : (1 : UInt32).toNat = 1 := rfl
  rw [UInt32.toNat_add]
  omega

theorem toNat_size_sub {size : UInt32} (positive : 0 < size.toNat) :
    (size - 1).toNat = size.toNat - 1 := by
  have bound := size.toNat_lt
  have one : (1 : UInt32).toNat = 1 := rfl
  rw [UInt32.toNat_sub]
  omega

section Steps

variable {tracked : Tracked Address} {visited : List Address} {probe : Address}

theorem add_visits (visits : Visits tracked visited) (absent : probe ∉ tracked.accepted)
    (fresh : ∀ other ∈ tracked.accepted, tracked.list.id other ≠ tracked.list.size)
    (below : tracked.list.size ≠ 0xFFFFFFFF) :
    Visits ⟨tracked.list.add probe, insert probe tracked.accepted⟩ (probe :: visited) := by
  have outside : probe ∉ visited := fun inside => absent ((visits.accepted probe).mp inside)
  have differs : ∀ other ∈ visited, other ≠ probe := by
    rintro other inside rfl
    exact outside inside
  have elsewhere : tracked.list.head ≠ some probe := by
    intro first
    have linked := visits.linked
    cases visited with
    | nil => cases first.symm.trans linked
    | cons head rest =>
        cases first.symm.trans linked.1
        exact outside List.mem_cons_self
  have oldId : ∀ other ∈ visited, (tracked.list.add probe).id other = tracked.list.id other :=
    fun other inside => Function.update_of_ne (differs other inside) _ _
  have newId : (tracked.list.add probe).id probe = tracked.list.size :=
    Function.update_self _ _ _
  have apart : ∀ other ∈ visited, tracked.list.id other ≠ tracked.list.size :=
    fun other inside => fresh other ((visits.accepted other).mp inside)
  refine visits_of_linked ?_ (List.nodup_cons.mpr ⟨outside, visits.once⟩) ?_ ?_ ?_
  · refine visits.linked.push visits.once (Function.update_self _ _ _)
      (add_prev_self _ elsewhere) ?_ ?_ ?_
    · intro other inside
      exact Function.update_of_ne (differs other inside) _ _
    · intro other first
      exact add_prev_head _ first
    · intro other inside notFirst
      exact add_prev_of_ne _ (differs other inside) notFirst
  · intro other
    rw [List.mem_cons, Finset.mem_insert, visits.accepted]
  · rw [List.length_cons, ← visits.size]
    exact toNat_size_add below
  · intro first firstIn second secondIn same
    rcases List.mem_cons.mp firstIn with rfl | firstOld
    · rcases List.mem_cons.mp secondIn with rfl | secondOld
      · rfl
      · rw [newId, oldId second secondOld] at same
        exact absurd same.symm (apart second secondOld)
    · rcases List.mem_cons.mp secondIn with rfl | secondOld
      · rw [newId, oldId first firstOld] at same
        exact absurd same (apart first firstOld)
      · rw [oldId first firstOld, oldId second secondOld] at same
        exact visits.ids first firstOld second secondOld same

/-- The last probe of the list looks like one in no list; adding it ties the list to a ring. -/
theorem add_again_not_iterates (visits : Visits tracked visited) (inside : probe ∈ visited)
    (last : tracked.list.next probe = none) (steps : Nat) :
    (tracked.list.add probe).iterate steps = none := by
  have closed : ∀ node, node ∈ visited →
      ∃ other, (tracked.list.add probe).next node = some other ∧ other ∈ visited := by
    intro node nodeIn
    by_cases same : node = probe
    · subst same
      have linked := visits.linked
      cases visited with
      | nil => cases inside
      | cons head rest =>
          exact ⟨head, (Function.update_self _ _ _).trans linked.1, List.mem_cons_self⟩
    · cases follows : tracked.list.next node with
      | none =>
          have one := visits.linked.getLast?_eq nodeIn follows
          have other := visits.linked.getLast?_eq inside last
          exact absurd (Option.some_inj.mp (one.symm.trans other)) same
      | some other =>
          obtain ⟨front, back, split⟩ := List.append_of_mem nodeIn
          have linked := visits.linked
          rw [split] at linked
          have behind := linked.next_eq
          rw [follows] at behind
          refine ⟨other, (Function.update_of_ne same _ _).trans follows, ?_⟩
          rw [split]
          refine List.mem_append_right _ (List.mem_cons_of_mem _ ?_)
          exact List.mem_of_head? behind.symm
  cases found : (tracked.list.add probe).iterate steps with
  | none => rfl
  | some nodes =>
      exact absurd (chain_of_walk found) (not_chain_of_closed closed inside nodes)

theorem add_not_visits (visits : Visits tracked visited)
    (last : tracked.list.next probe = none)
    (after : Integrity ⟨tracked.list.add probe, insert probe tracked.accepted⟩) :
    probe ∉ tracked.accepted ∧
      (∀ other ∈ tracked.accepted, tracked.list.id other ≠ tracked.list.size) ∧
      tracked.list.size ≠ 0xFFFFFFFF := by
  obtain ⟨next, afterwards⟩ := after
  have absent : probe ∉ tracked.accepted := by
    intro inside
    obtain ⟨steps, iterated⟩ := afterwards.iterated
    have endless := add_again_not_iterates visits ((visits.accepted probe).mpr inside) last steps
    cases endless.symm.trans iterated
  refine ⟨absent, ?_, ?_⟩
  · intro other inside same
    have differs : other ≠ probe := by
      rintro rfl
      exact absent inside
    have equal : (tracked.list.add probe).id other = (tracked.list.add probe).id probe := by
      have old : (tracked.list.add probe).id other = tracked.list.id other :=
        Function.update_of_ne differs _ _
      have new : (tracked.list.add probe).id probe = tracked.list.size :=
        Function.update_self _ _ _
      rw [old, new, same]
    exact differs (afterwards.ids other
      ((afterwards.accepted other).mpr (Finset.mem_insert_of_mem inside)) probe
      ((afterwards.accepted probe).mpr (Finset.mem_insert_self _ _)) equal)
  · intro full
    have size : (tracked.list.size + 1).toNat = next.length := afterwards.size
    have some_ : 0 < next.length :=
      List.length_pos_of_mem ((afterwards.accepted probe).mpr (Finset.mem_insert_self _ _))
    rw [full] at size
    have zero : ((0xFFFFFFFF : UInt32) + 1).toNat = 0 := by decide
    omega

theorem isValid_of_mem (visits : Visits tracked visited) (inside : probe ∈ visited) :
    tracked.list.isValid probe = true := by
  obtain ⟨front, back, rfl⟩ := List.append_of_mem inside
  have linked := visits.linked
  rw [ProbeList.isValid, Bool.and_eq_true]
  constructor
  · have follows := linked.next_eq
    cases back with
    | nil =>
        rw [follows]
        rfl
    | cons other back =>
        rw [follows]
        exact decide_eq_true linked.adjacent.2
  · rcases List.eq_nil_or_concat front with rfl | ⟨others, last, rfl⟩
    · have first : tracked.list.prev probe = none := linked.2.1
      rw [first]
    · rw [List.concat_eq_append, List.append_assoc, List.singleton_append] at linked
      rw [linked.adjacent.2]
      exact decide_eq_true linked.adjacent.1

theorem head_unlink {front back : List Address} (visits : Visits tracked (front ++ probe :: back))
    (apart : tracked.list.next probe ≠ some probe) :
    (tracked.list.unlink probe).head =
      if front = [] then tracked.list.next probe else tracked.list.head := by
  have linked := visits.linked
  rw [unlink_head]
  cases front with
  | nil =>
      have first : tracked.list.head = some probe := linked.1
      have alone : tracked.list.prev probe = none := linked.2.1
      have unchanged : (tracked.list.unlink probe).next probe = tracked.list.next probe :=
        unlink_next_of_ne _ apart (fun same => by cases alone.symm.trans same)
      rw [if_pos first, if_pos rfl, unchanged, unlink_prev_of_ne _ apart, alone, Option.or_none]
  | cons other front =>
      have first : tracked.list.head = some other := linked.1
      have differs : other ≠ probe := by
        rintro rfl
        exact (List.nodup_cons.mp visits.once).1 (List.mem_append_right _ List.mem_cons_self)
      rw [if_neg (List.cons_ne_nil _ _), if_neg]
      rw [first]
      exact fun same => differs (Option.some_inj.mp same)

theorem remove_visits (visits : Visits tracked visited) (inside : probe ∈ tracked.accepted) :
    Integrity (xpediteRemoveProbe tracked probe) := by
  have listed := (visits.accepted probe).mpr inside
  have valid := isValid_of_mem visits listed
  obtain ⟨front, back, rfl⟩ := List.append_of_mem listed
  have linked := visits.linked
  have once := visits.once
  obtain ⟨absent, rest⟩ := List.nodup_cons.mp (List.nodup_middle.mp once)
  have left := mem_without_iff once
  have apart : tracked.list.next probe ≠ some probe := by
    rw [linked.next_eq]
    intro same
    exact absent (List.mem_append_right _ (List.mem_of_head? same))
  rw [xpediteRemoveProbe, ProbeList.remove, if_pos valid]
  refine ⟨front ++ back, visits_of_linked ?_ rest ?_ ?_ ?_⟩
  · dsimp only
    rw [head_unlink visits apart]
    exact linked.unlink once (fun _ _ same => by cases same)
      (fun other => unlink_next tracked.list apart)
      (fun other => unlink_next_of_ne tracked.list apart)
      (fun other => unlink_prev tracked.list) (fun other => unlink_prev_of_ne tracked.list)
  · intro other
    rw [Finset.mem_erase, ← visits.accepted]
    exact left other
  · have size := visits.size
    rw [List.length_append, List.length_cons] at size
    rw [List.length_append]
    exact (toNat_size_sub (by omega)).trans (by omega)
  · intro first firstIn second secondIn same
    exact visits.ids first ((left first).mp firstIn).2 second ((left second).mp secondIn).2 same

/-- The size is taken down for a probe that the list does not hold. -/
theorem remove_not_visits (visits : Visits tracked visited) (absent : probe ∉ tracked.accepted)
    (valid : tracked.list.isValid probe = true) :
    ¬Integrity (xpediteRemoveProbe tracked probe) := by
  rw [xpediteRemoveProbe, ProbeList.remove, if_pos valid, Finset.erase_eq_of_notMem absent]
  rintro ⟨next, afterwards⟩
  have size : (tracked.list.size - 1).toNat = tracked.list.size.toNat := by
    rw [visits.size, visits.length_eq]
    exact afterwards.size.trans afterwards.length_eq
  have bound := tracked.list.size.toNat_lt
  have one : (1 : UInt32).toNat = 1 := rfl
  rw [UInt32.toNat_sub] at size
  omega

theorem remove_invalid (absent : probe ∉ tracked.accepted)
    (invalid : tracked.list.isValid probe = false) :
    xpediteRemoveProbe tracked probe = tracked := by
  rw [xpediteRemoveProbe, ProbeList.remove, invalid, Finset.erase_eq_of_notMem absent]
  rfl

end Steps

theorem probeStep_integrity {tracked next : Tracked Address} {action : ProbeAction Address}
    (integrity : Integrity tracked) (taken : probeStep tracked action = some next) :
    Integrity next ↔ Harmless tracked action := by
  obtain ⟨visited, visits⟩ := integrity
  cases action with
  | add probe valid =>
      cases taken
      cases probe with
      | none => exact iff_of_true ⟨visited, visits⟩ trivial
      | some probe =>
          rw [xpediteAddProbe, Harmless]
          cases valid with
          | false => exact iff_of_true ⟨visited, visits⟩ (fun accepted => by cases accepted)
          | true =>
              cases follows : tracked.list.next probe with
              | some other =>
                  exact iff_of_true ⟨visited, visits⟩ (fun _ unlinked => by cases unlinked)
              | none =>
                  constructor
                  · intro after _ _
                    exact add_not_visits visits follows after
                  · intro harmless
                    obtain ⟨absent, fresh, below⟩ := harmless rfl rfl
                    exact ⟨probe :: visited, add_visits visits absent fresh below⟩
  | remove probe =>
      cases taken
      rw [Harmless]
      by_cases inside : probe ∈ tracked.accepted
      · exact iff_of_true (remove_visits visits inside) (fun _ => inside)
      · cases valid : tracked.list.isValid probe with
        | false =>
            rw [remove_invalid inside valid]
            exact iff_of_true ⟨visited, visits⟩ (fun wrong => by cases wrong)
        | true =>
            exact iff_of_false (remove_not_visits visits inside valid)
              (fun harmless => inside (harmless rfl))

omit [DecidableEq Address] in
theorem integrity_new : Integrity (Tracked.new : Tracked Address) := by
  refine ⟨[], visits_of_linked rfl List.nodup_nil ?_ rfl ?_⟩
  · intro probe
    exact iff_of_false List.not_mem_nil (Finset.notMem_empty probe)
  · intro first inside
    cases inside

/--
The list keeps its integrity in a run exactly when no probe is added that is the last one of
the list already, or gets an id that is taken, and none is removed that was never in it.
-/
theorem integrity_throughout_iff {actions : List (ProbeAction Address)} {final : Tracked Address}
    (reached : run probeStep Tracked.new actions = some final) :
    (∀ earlier later tracked, actions = earlier ++ later →
        run probeStep Tracked.new earlier = some tracked → Integrity tracked) ↔
      Along probeStep Harmless Tracked.new actions :=
  throughout_iff_along (fun _ _ _ holds taken => probeStep_integrity holds taken) integrity_new
    reached

def addProbe (probe : Nat) : ProbeAction Nat := .add (some probe) true

def loadAndUnload : List (ProbeAction Nat) :=
  [addProbe 1, .add (some 2) false, addProbe 2, .remove 2, addProbe 3]

theorem integrity_throughout_loadAndUnload :
    (∃ final, run probeStep Tracked.new loadAndUnload = some final) ∧
      ∀ earlier later tracked, loadAndUnload = earlier ++ later →
        run probeStep Tracked.new earlier = some tracked → Integrity tracked :=
  ⟨⟨_, rfl⟩, (@integrity_throughout_iff Nat _ loadAndUnload _ rfl).mpr (by decide)⟩

/-- A probe added twice, an id given twice, and a probe removed that never was in the list. -/
theorem integrity_fails :
    (∃ final, run probeStep Tracked.new [addProbe 1, addProbe 1] = some final ∧
        (∀ steps, final.list.iterate steps = none) ∧ ¬Integrity final) ∧
      (∃ final, run probeStep Tracked.new [addProbe 1, addProbe 2, .remove 1, addProbe 3] =
          some final ∧
        final.list.iterate 2 = some [3, 2] ∧ final.list.id 3 = final.list.id 2 ∧
        ¬Integrity final) ∧
      (∃ final, run probeStep Tracked.new [(.remove 1 : ProbeAction Nat)] = some final ∧
        final.list.size = 0xFFFFFFFF ∧ ¬Integrity final) := by
  have step : ∀ (tracked : Tracked Nat) (action : ProbeAction Nat) (next : Tracked Nat),
      Integrity tracked → probeStep tracked action = some next →
        (Integrity next ↔ Harmless tracked action) :=
    fun _ _ _ integrity taken => probeStep_integrity integrity taken
  have one : Integrity (xpediteAddProbe Tracked.new (some 1) true) :=
    (step _ (addProbe 1) _ integrity_new rfl).mpr (by decide)
  have two : Integrity (xpediteAddProbe (xpediteAddProbe Tracked.new (some 1) true) (some 2) true) :=
    (step _ (addProbe 2) _ one rfl).mpr (by decide)
  have removed := (step _ (.remove 1) _ two rfl).mpr (by decide)
  refine ⟨⟨_, rfl, ?_, ?_⟩, ⟨_, rfl, by decide, by decide, ?_⟩, ⟨_, rfl, by decide, ?_⟩⟩
  · obtain ⟨visited, visits⟩ := one
    exact add_again_not_iterates visits ((visits.accepted 1).mpr (by decide)) rfl
  · exact (step _ (addProbe 1) _ one rfl).not.mpr (by decide)
  · exact (step _ (addProbe 3) _ removed rfl).not.mpr (by decide)
  · exact (step _ (.remove 1) _ integrity_new rfl).not.mpr (by decide)

end Xpedite.Probes
