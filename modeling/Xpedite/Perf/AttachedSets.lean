import Xpedite.Perf.SessionSteps

/-!
What attaching does to the table of active sets and to what the buffers point to.  A set is
replaced only by one of a later generation, so that a set of the session stays until the end.
-/

namespace Xpedite.PerfSessions

open Framework Lib

/-- The buffer points to the set that is active for its `tid`. -/
def Served (state : State) (buffer : Nat) : Prop :=
  ∃ set, state.perfEvents buffer = some set ∧
    state.activeEvents.lookup (state.tid buffer) = some set

def Current (state : State) (buffer : Nat) : Prop :=
  ∃ set, state.perfEvents buffer = some set ∧
    state.activeEvents.lookup (state.tid buffer) = some set ∧
    state.control.pmu.generation ≤ (state.sets.cell set).generation

section Sets

variable {state next : State} {buffer : Nat} {perfEventSet : PerfEventSet}

def Entries (state : State) : Prop :=
  ∀ tid set, state.activeEvents.lookup tid = some set →
    set < state.sets.size ∧ 0 < (state.sets.cell set).size

theorem supersedes_iff (entries : Entries state) (perfEventSet : PerfEventSet) :
    supersedes state perfEventSet = true ↔
      ∀ set, state.activeEvents.lookup perfEventSet.tid = some set →
        (state.sets.cell set).generation < perfEventSet.generation := by
  rw [supersedes]
  cases found : state.activeEvents.lookup perfEventSet.tid with
  | none => simp
  | some active =>
      have positive := (entries _ _ found).2.ne'
      simp [positive]

theorem store_entries (entries : Entries state) (some_ : 0 < perfEventSet.size) :
    Entries (store state buffer perfEventSet) := by
  intro tid set found
  rw [store] at found
  by_cases same : tid = perfEventSet.tid
  · rw [same, AList.lookup_insert] at found
    cases found
    refine ⟨Nat.lt_succ_self _, ?_⟩
    rw [store, Arena.cell_alloc_fresh]
    exact some_
  · rw [AList.lookup_insert_ne same] at found
    obtain ⟨allocated, positive⟩ := entries tid set found
    refine ⟨Nat.lt_succ_of_lt allocated, ?_⟩
    rw [store, Arena.cell_alloc_of_lt _ _ allocated]
    exact positive

theorem store_new (own : perfEventSet.tid = state.tid buffer) :
    (store state buffer perfEventSet).perfEvents buffer = some state.sets.size ∧
      (store state buffer perfEventSet).activeEvents.lookup (state.tid buffer) =
        some state.sets.size ∧
      (store state buffer perfEventSet).sets.cell state.sets.size = perfEventSet := by
  refine ⟨Function.update_self _ _ _, ?_, Arena.cell_alloc_fresh _ _⟩
  rw [store, own, AList.lookup_insert]

theorem Served.stays {other : Nat} (served : Served state other)
    (own : perfEventSet.tid = state.tid buffer) (apart : state.tid other ≠ state.tid buffer) :
    Served (store state buffer perfEventSet) other := by
  obtain ⟨set, pointed, found⟩ := served
  have different : other ≠ buffer := fun same => apart (congrArg state.tid same)
  refine ⟨set, (Function.update_of_ne different _ _).trans pointed, ?_⟩
  exact (AList.lookup_insert_ne (own ▸ apart)).trans found

theorem Current.stays {other : Nat} (current : Current state other) (entries : Entries state)
    (own : perfEventSet.tid = state.tid buffer) (apart : state.tid other ≠ state.tid buffer) :
    Current (store state buffer perfEventSet) other := by
  obtain ⟨set, pointed, found, now⟩ := current
  have different : other ≠ buffer := fun same => apart (congrArg state.tid same)
  refine ⟨set, (Function.update_of_ne different _ _).trans pointed, ?_, ?_⟩
  · exact (AList.lookup_insert_ne (own ▸ apart)).trans found
  · rw [store, Arena.cell_alloc_of_lt _ _ (entries _ _ found).1]
    exact now

theorem Current.served (current : Current state buffer) : Served state buffer := by
  obtain ⟨set, pointed, found, -⟩ := current
  exact ⟨set, pointed, found⟩

/-- The same sets, some of them switched off. -/
structure SameSets (state next : State) : Prop where
  perfEvents : next.perfEvents = state.perfEvents
  activeEvents : next.activeEvents = state.activeEvents
  allocated : next.sets.size = state.sets.size
  size : ∀ set, (next.sets.cell set).size = (state.sets.cell set).size
  generation : ∀ set, (next.sets.cell set).generation = (state.sets.cell set).generation

theorem SameSets.entries (same : SameSets state next) (entries : Entries state) :
    Entries next := by
  intro tid set found
  rw [same.activeEvents] at found
  rw [same.allocated, same.size]
  exact entries tid set found

theorem SameSets.served (same : SameSets state next) (outside : SameOutside state next)
    (served : Served state buffer) : Served next buffer := by
  rw [Served, same.perfEvents, same.activeEvents, outside.tid]
  exact served

theorem SameSets.current (same : SameSets state next) (outside : SameOutside state next)
    (current : Current state buffer) : Current next buffer := by
  rw [Current, same.perfEvents, same.activeEvents, outside.tid, outside.control]
  simp only [same.generation]
  exact current

theorem deactivate_size (set : PerfEventSet) : set.deactivate.size = set.size := by
  rw [Perf.PerfEventSet.deactivate]
  split
  · rfl
  · rfl

theorem deactivate_generation (set : PerfEventSet) :
    set.deactivate.generation = set.generation := by
  rw [Perf.PerfEventSet.deactivate]
  split
  · rfl
  · rfl

theorem deactivateSets_same (state : State) (inert : List Nat) :
    SameSets state (deactivateSets state inert) := by
  have kept : ∀ sets : Arena PerfEventSet,
      (inert.foldl (fun sets set => sets.modify set Perf.PerfEventSet.deactivate) sets).size =
          sets.size ∧
        ∀ set, ((inert.foldl (fun sets set => sets.modify set Perf.PerfEventSet.deactivate)
              sets).cell set).size = (sets.cell set).size ∧
          ((inert.foldl (fun sets set => sets.modify set Perf.PerfEventSet.deactivate)
              sets).cell set).generation = (sets.cell set).generation := by
    induction inert with
    | nil => exact fun sets => ⟨rfl, fun set => ⟨rfl, rfl⟩⟩
    | cons first inert ih =>
        intro sets
        obtain ⟨allocated, cells⟩ := ih (sets.modify first Perf.PerfEventSet.deactivate)
        refine ⟨allocated, fun set => ?_⟩
        rw [List.foldl_cons, (cells set).1, (cells set).2]
        by_cases same : set = first
        · rw [same, Arena.cell_modify_self]
          exact ⟨deactivate_size _, deactivate_generation _⟩
        · rw [Arena.cell_modify_of_ne _ _ same]
          exact ⟨rfl, rfl⟩
  obtain ⟨allocated, cells⟩ := kept state.sets
  exact ⟨rfl, rfl, allocated, fun set => (cells set).1, fun set => (cells set).2⟩

end Sets

section AttachAll

variable {state next : State}

theorem attachUnsafe_current {buffer other : Nat} {perfEventSet : PerfEventSet}
    {attached : State × Option Nat} (entries : Entries state)
    (session : perfEventSet.generation = state.control.pmu.generation)
    (taken : attachUnsafe state buffer perfEventSet = some attached)
    (current : Current state other) : Current attached.1 other := by
  obtain ⟨own, ⟨-, same⟩ | ⟨-, newer, stored⟩⟩ := attachUnsafe_cases taken
  · rw [same]
    exact current
  · rw [stored]
    refine current.stays entries own ?_
    intro same
    obtain ⟨set, -, found, now⟩ := current
    rw [same, ← own] at found
    have older := (supersedes_iff entries perfEventSet).mp newer set found
    omega

theorem attachUnsafe_entries {buffer : Nat} {perfEventSet : PerfEventSet}
    {attached : State × Option Nat} (entries : Entries state) (some_ : 0 < perfEventSet.size)
    (taken : attachUnsafe state buffer perfEventSet = some attached) : Entries attached.1 := by
  rcases (attachUnsafe_cases taken).2 with ⟨-, same⟩ | ⟨-, -, stored⟩
  · rw [same]
    exact entries
  · rw [stored]
    exact store_entries entries some_

theorem attachUnsafe_apart {buffer : Nat} {perfEventSet : PerfEventSet}
    {attached : State × Option Nat} (entries : Entries state)
    (taken : attachUnsafe state buffer perfEventSet = some attached) {other : Nat}
    (apart : state.tid other ≠ state.tid buffer) :
    attached.1.perfEvents other = state.perfEvents other ∧
      attached.1.activeEvents.lookup (state.tid other) =
        state.activeEvents.lookup (state.tid other) ∧
      ∀ set, state.activeEvents.lookup (state.tid other) = some set →
        attached.1.sets.cell set = state.sets.cell set := by
  obtain ⟨own, ⟨-, same⟩ | ⟨-, -, stored⟩⟩ := attachUnsafe_cases taken
  · rw [same]
    exact ⟨rfl, rfl, fun _ _ => rfl⟩
  · have different : other ≠ buffer := fun same => apart (congrArg state.tid same)
    rw [stored]
    refine ⟨Function.update_of_ne different _ _, AList.lookup_insert_ne (own ▸ apart), ?_⟩
    intro set found
    exact Arena.cell_alloc_of_lt _ _ (entries _ _ found).1

theorem attachUnsafe_new {buffer : Nat} {perfEventSet : PerfEventSet}
    {attached : State × Option Nat} (entries : Entries state)
    (published : state.control.pmu.activeEventAttrs ≠ [])
    (session : perfEventSet.generation = state.control.pmu.generation)
    (own : ∀ set, state.activeEvents.lookup (state.tid buffer) = some set →
      (state.sets.cell set).generation < state.control.pmu.generation ∨
        state.perfEvents buffer = some set)
    (taken : attachUnsafe state buffer perfEventSet = some attached) :
    Current attached.1 buffer := by
  obtain ⟨tid, ⟨kept, same⟩ | ⟨-, -, stored⟩⟩ := attachUnsafe_cases taken
  · rw [same]
    have older := mt (supersedes_iff entries perfEventSet).mpr
      (Bool.eq_false_iff.mp (kept.resolve_left published))
    rw [tid] at older
    push Not at older
    obtain ⟨set, found, now⟩ := older
    rw [session] at now
    exact ⟨set, (own set found).resolve_left (Nat.not_lt.mpr now), found, now⟩
  · obtain ⟨pointed, found, cell⟩ := store_new tid
    rw [stored]
    refine ⟨state.sets.size, pointed, found, ?_⟩
    rw [cell, session]
    exact Nat.le_refl _

/-- The sets of one session, each attached to its thread; the newest thread comes first. -/
theorem attachAll_current {eventAttrs : List PerfEventAttr} {generation : Nat}
    {tids : Nat → Nat} {buffers : List Nat} (some_ : eventAttrs ≠ [])
    (entries : Entries state) (published : state.control.pmu.activeEventAttrs ≠ [])
    (session : generation = state.control.pmu.generation) (known : tids = state.tid)
    (ordered : buffers.Pairwise fun newer older =>
      state.tid newer = state.tid older → (state.threads older).hasExited = true)
    (own : ∀ buffer ∈ buffers, (state.threads buffer).hasExited = false →
      ∀ set, state.activeEvents.lookup (state.tid buffer) = some set →
        (state.sets.cell set).generation < state.control.pmu.generation ∨
          state.perfEvents buffer = some set)
    (taken : attachAll state buffers (buffers.map fun buffer =>
      buildPerfEvents true eventAttrs generation (tids buffer)) = some next) :
    Entries next ∧ (∀ other, Current state other → Current next other) ∧
      ∀ buffer ∈ buffers, (state.threads buffer).hasExited = false → Current next buffer := by
  induction buffers generalizing state with
  | nil =>
      cases taken
      exact ⟨entries, fun _ current => current, fun _ inside => absurd inside List.not_mem_nil⟩
  | cons first buffers ih =>
      rw [List.map_cons, attachAll] at taken
      obtain ⟨attached, stored, rest⟩ := Option.bind_eq_some_iff.mp taken
      have positive :
          0 < (buildPerfEvents true eventAttrs generation (tids first)).size := by
        rw [size_buildPerfEvents]
        exact List.length_pos_iff.mpr some_
      have outside : SameOutside state (retire attached.1 attached.2) :=
        (attachUnsafe_outside stored).trans ⟨rfl, rfl, rfl, rfl, rfl, rfl⟩
      obtain ⟨later, others⟩ := List.pairwise_cons.mp ordered
      have kept : ∀ other, Current state other → Current (retire attached.1 attached.2) other :=
        fun other => attachUnsafe_current entries session stored
      have ownRest : ∀ buffer ∈ buffers, (state.threads buffer).hasExited = false →
          ∀ set, (retire attached.1 attached.2).activeEvents.lookup (state.tid buffer) = some set →
            ((retire attached.1 attached.2).sets.cell set).generation <
                state.control.pmu.generation ∨
              (retire attached.1 attached.2).perfEvents buffer = some set := by
        intro buffer inside running set found
        -- a thread that runs has another `tid` than those that have come later
        have apart : state.tid buffer ≠ state.tid first := by
          intro same
          exact absurd (running.symm.trans (later buffer inside same.symm)) Bool.false_ne_true
        obtain ⟨pointed, active, cells⟩ := attachUnsafe_apart entries stored apart
        have found' := active.symm.trans found
        rw [retire, cells set found', pointed]
        exact own buffer (List.mem_cons_of_mem first inside) running set found'
      rw [← outside.tid, ← outside.threads, ← outside.control] at ownRest
      rw [← outside.tid, ← outside.threads] at others
      obtain ⟨entriesNext, currentNext, listed⟩ := @ih (retire attached.1 attached.2)
        (attachUnsafe_entries entries positive stored) (outside.control ▸ published)
        (outside.control ▸ session) (known.trans outside.tid.symm) others ownRest rest
      refine ⟨entriesNext, fun other current => currentNext other (kept other current), ?_⟩
      intro buffer inside running
      rcases List.mem_cons.mp inside with rfl | inside
      · exact currentNext buffer (attachUnsafe_new entries published session
          (own buffer List.mem_cons_self running) stored)
      · exact listed buffer inside (outside.threads ▸ running)

end AttachAll

end Xpedite.PerfSessions
