import Xpedite.Perf.PerfEventsCore

/-!
Which event sets the threads have.  A thread pushes its buffer before it snaps the
attributes, and `enable` publishes them before it reads the list: whoever is missing in
the list that `enable` read snaps the attributes of that session or of a later one.
-/

namespace Xpedite.Perf

open Lib

variable {Attr : Type}

structure Fits (generation : Nat) (published : List Attr) (tid : Nat)
    (perfEventSet : PerfEventSet Attr) : Prop where
  tid_eq : perfEventSet.tid = tid
  nonempty : perfEventSet.events ≠ []
  active : perfEventSet.active = true
  notNewer : perfEventSet.generation ≤ generation
  complete : perfEventSet.generation = generation → published ≠ [] →
    perfEventSet.events.map PerfEvent.attr = published

section Building

theorem addAll_eq (tid : Nat) (attrs : List Attr) {perfEventSet : PerfEventSet Attr}
    (own : perfEventSet.events ≠ [] → perfEventSet.tid = tid)
    (room : perfEventSet.size + attrs.length ≤ coreEventMax) :
    addAll tid attrs perfEventSet = some { perfEventSet with
      events := perfEventSet.events ++ attrs.map fun attr => ⟨attr, tid⟩ } := by
  induction attrs generalizing perfEventSet with
  | nil => rw [addAll, List.map_nil, List.append_nil]
  | cons attr attrs ih =>
      have length : (attr :: attrs).length = attrs.length + 1 := rfl
      have notFull : ¬coreEventMax ≤ perfEventSet.size := by omega
      have sameThread : ¬(0 < perfEventSet.size ∧ perfEventSet.tid ≠ tid) := by
        rintro ⟨positive, different⟩
        exact different (own (List.length_pos_iff.mp positive))
      have added : perfEventSet.add ⟨attr, tid⟩ =
          some { perfEventSet with events := perfEventSet.events ++ [⟨attr, tid⟩] } := by
        rw [PerfEventSet.add, if_neg notFull, if_neg sameThread]
      rw [addAll, added, Option.bind_some, ih]
      · rw [List.map_cons, List.append_assoc, List.singleton_append]
      · intro _
        cases stored : perfEventSet.events with
        | nil => simp [PerfEventSet.tid]
        | cons first rest =>
            have old : perfEventSet.tid = tid := own (by simp [stored])
            simpa [PerfEventSet.tid, stored] using old
      · simp only [PerfEventSet.size, List.length_append, List.length_singleton]
        rw [PerfEventSet.size] at room
        omega

def fullSet (eventAttrs : PerfEventAttrSet Attr) (generation tid : Nat) : PerfEventSet Attr :=
  ⟨eventAttrs.val.map fun attr => ⟨attr, tid⟩, generation, true⟩

theorem size_fullSet (eventAttrs : PerfEventAttrSet Attr) (generation tid : Nat) :
    (fullSet eventAttrs generation tid).size = eventAttrs.val.length := List.length_map _

theorem buildPerfEvents_eq {eventAttrs : PerfEventAttrSet Attr} (generation tid : Nat)
    (some_ : eventAttrs.val ≠ []) :
    buildPerfEvents eventAttrs generation tid =
      some (fullSet eventAttrs generation tid) := by
  have room : (PerfEventSet.new generation : PerfEventSet Attr).size + eventAttrs.val.length ≤
      coreEventMax := by
    simpa [PerfEventSet.new, PerfEventSet.size] using eventAttrs.property
  have added := addAll_eq tid eventAttrs.val (by simp [PerfEventSet.new]) room
  have positive : 0 < eventAttrs.val.length := List.length_pos_iff.mpr some_
  rw [buildPerfEvents, added, Option.map_some]
  simp [PerfEventSet.activate, PerfEventSet.new, PerfEventSet.size, positive, fullSet]

theorem fits_of_build {eventAttrs : PerfEventAttrSet Attr} {generation tid : Nat}
    {published : List Attr} {current : Nat} (some_ : eventAttrs.val ≠ [])
    (notNewer : generation ≤ current)
    (same : generation = current → published ≠ [] → eventAttrs.val = published) :
    Fits current published tid (fullSet eventAttrs generation tid) where
  tid_eq := by
    obtain ⟨attr, attrs, stored⟩ := List.exists_cons_of_ne_nil some_
    simp [PerfEventSet.tid, fullSet, stored]
  nonempty := by simpa [fullSet] using some_
  active := rfl
  notNewer := notNewer
  complete := by
    intro now notEmpty
    rw [fullSet, List.map_map, ← same now notEmpty]
    exact List.map_id _

end Building

structure Entry (state : State Attr) (tid set : Nat) : Prop where
  allocated : set < state.sets.size
  fits : Fits state.generation state.activeEventAttrs.val tid (state.sets.cell set)
  buffer : state.perfEvents tid = some set

structure Tidy (state : State Attr) : Prop where
  entries : ∀ tid set, state.activeEvents.lookup tid = some set → Entry state tid set
  cleared : state.activeEventAttrs.val = [] → state.activeEvents = ∅

theorem Tidy.congr {state next : State Attr} (tidy : Tidy state)
    (activeEvents : next.activeEvents = state.activeEvents) (sets : next.sets = state.sets)
    (perfEvents : next.perfEvents = state.perfEvents)
    (generation : next.generation = state.generation)
    (activeEventAttrs : next.activeEventAttrs = state.activeEventAttrs) : Tidy next := by
  constructor
  · intro tid set found
    rw [activeEvents] at found
    obtain ⟨allocated, fits, buffer⟩ := tidy.entries tid set found
    rw [← sets] at allocated fits
    rw [← generation, ← activeEventAttrs] at fits
    rw [← perfEvents] at buffer
    exact ⟨allocated, fits, buffer⟩
  · intro cleared
    rw [activeEventAttrs] at cleared
    rw [activeEvents]
    exact tidy.cleared cleared

def Advances (state next : State Attr) : Prop :=
  ∀ tid old, state.activeEvents.lookup tid = some old →
    ∃ new, next.activeEvents.lookup tid = some new ∧
      (next.sets.cell new = state.sets.cell old ∨
        (state.sets.cell old).generation < (next.sets.cell new).generation)

def Current (state : State Attr) (tid : Nat) : Prop :=
  ∃ set, state.activeEvents.lookup tid = some set ∧
    (state.sets.cell set).generation = state.generation

theorem Advances.refl (state : State Attr) : Advances state state :=
  fun _ old found => ⟨old, found, .inl rfl⟩

theorem Advances.trans {first second third : State Attr} (earlier : Advances first second)
    (later : Advances second third) : Advances first third := by
  intro tid old found
  obtain ⟨middle, between, stays⟩ := earlier tid old found
  obtain ⟨new, last, moves⟩ := later tid middle between
  refine ⟨new, last, ?_⟩
  rcases stays with same | newer
  · rwa [same] at moves
  · rcases moves with same' | newer'
    · rw [same']
      exact .inr newer
    · exact .inr (Nat.lt_trans newer newer')

theorem Advances.current {state next : State Attr} (advances : Advances state next)
    (tidy : Tidy next) (generation : next.generation = state.generation) {tid : Nat}
    (current : Current state tid) : Current next tid := by
  obtain ⟨old, found, now⟩ := current
  obtain ⟨new, found', moves⟩ := advances tid old found
  have notNewer := (tidy.entries tid new found').fits.notNewer
  refine ⟨new, found', ?_⟩
  rcases moves with same | newer
  · rw [same, now, generation]
  · omega

section Attaching

variable {state : State Attr} {tid : Nat} {perfEventSet : PerfEventSet Attr}

theorem attachUnsafe_cases (tidy : Tidy state)
    (fits : Fits state.generation state.activeEventAttrs.val tid perfEventSet) :
    (state.activeEventAttrs.val = [] ∧
        attachUnsafe state tid perfEventSet = some (state, none)) ∨
      (state.activeEventAttrs.val ≠ [] ∧
        (∀ old, state.activeEvents.lookup tid = some old →
          (state.sets.cell old).generation < perfEventSet.generation) ∧
        attachUnsafe state tid perfEventSet =
          some (store state tid perfEventSet, state.activeEvents.lookup tid)) ∨
      ∃ old, state.activeEvents.lookup tid = some old ∧
        perfEventSet.generation ≤ (state.sets.cell old).generation ∧
        attachUnsafe state tid perfEventSet = some (state, none) := by
  have sameThread : ¬perfEventSet.tid ≠ tid := not_not_intro fits.tid_eq
  rw [attachUnsafe, if_neg sameThread, fits.tid_eq]
  by_cases cleared : state.activeEventAttrs.val = []
  · refine .inl ⟨cleared, ?_⟩
    rw [cleared, List.isEmpty_nil, if_pos rfl]
  · have published : state.activeEventAttrs.val.isEmpty = false := by simpa using cleared
    rw [published, if_neg Bool.false_ne_true, supersedes, fits.tid_eq]
    cases found : state.activeEvents.lookup tid with
    | none =>
        refine .inr (.inl ⟨cleared, ?_, rfl⟩)
        intro old impossible
        cases impossible
    | some old =>
        have positive : (state.sets.cell old).size ≠ 0 := by
          intro empty
          exact (tidy.entries tid old found).fits.nonempty (List.eq_nil_of_length_eq_zero empty)
        by_cases newer : (state.sets.cell old).generation < perfEventSet.generation
        · refine .inr (.inl ⟨cleared, ?_, by simp [newer]⟩)
          intro other same
          cases same
          exact newer
        · exact .inr (.inr ⟨old, rfl, by omega, by simp [newer, positive]⟩)

theorem store_tidy (tidy : Tidy state) (published : state.activeEventAttrs.val ≠ [])
    (fits : Fits state.generation state.activeEventAttrs.val tid perfEventSet) :
    Tidy (store state tid perfEventSet) where
  entries := by
    intro other set found
    rw [store, fits.tid_eq] at found
    by_cases same : other = tid
    · subst other
      rw [AList.lookup_insert] at found
      cases found
      refine ⟨Nat.lt_succ_self _, ?_, Function.update_self _ _ _⟩
      rw [store, Arena.cell_alloc_fresh]
      exact fits
    · rw [AList.lookup_insert_ne same] at found
      have entry := tidy.entries other set found
      refine ⟨Nat.lt_succ_of_lt entry.allocated, ?_, ?_⟩
      · rw [store, Arena.cell_alloc_of_lt _ _ entry.allocated]
        exact entry.fits
      · exact (Function.update_of_ne same _ _).trans entry.buffer
  cleared := fun empty => absurd empty published

theorem store_advances (tidy : Tidy state)
    (fits : Fits state.generation state.activeEventAttrs.val tid perfEventSet)
    (newer : ∀ old, state.activeEvents.lookup tid = some old →
      (state.sets.cell old).generation < perfEventSet.generation) :
    Advances state (store state tid perfEventSet) := by
  intro other old found
  rw [store, fits.tid_eq]
  by_cases same : other = tid
  · subst other
    refine ⟨state.sets.size, AList.lookup_insert _, .inr ?_⟩
    rw [Arena.cell_alloc_fresh]
    exact newer old found
  · refine ⟨old, ?_, .inl ?_⟩
    · rw [AList.lookup_insert_ne same, found]
    · exact Arena.cell_alloc_of_lt _ _ (tidy.entries other old found).allocated

theorem store_lookup (fits : Fits state.generation state.activeEventAttrs.val tid perfEventSet) :
    (store state tid perfEventSet).activeEvents.lookup tid = some state.sets.size := by
  rw [store, fits.tid_eq, AList.lookup_insert]

theorem deactivateSet_tidy {inert : Nat} (tidy : Tidy state)
    (unused : ∀ other set, state.activeEvents.lookup other = some set → set ≠ inert) :
    Tidy (deactivateSet state (some inert)) where
  entries := by
    intro other set found
    have entry := tidy.entries other set found
    refine ⟨entry.allocated, ?_, entry.buffer⟩
    rw [deactivateSet, Arena.cell_modify_of_ne _ _ (unused other set found)]
    exact entry.fits
  cleared := tidy.cleared

theorem deactivateSet_advances {inert : Nat}
    (unused : ∀ other set, state.activeEvents.lookup other = some set → set ≠ inert) :
    Advances state (deactivateSet state (some inert)) := by
  intro other old found
  exact ⟨old, found, .inl (Arena.cell_modify_of_ne _ _ (unused other old found))⟩

structure SameControl (state next : State Attr) : Prop where
  buffers : next.buffers = state.buffers
  activeEventAttrs : next.activeEventAttrs = state.activeEventAttrs
  generation : next.generation = state.generation
  isEnabled : next.isEnabled = state.isEnabled
  background : next.background = state.background
  threads : next.threads = state.threads

theorem SameControl.refl (state : State Attr) : SameControl state state :=
  ⟨rfl, rfl, rfl, rfl, rfl, rfl⟩

theorem SameControl.trans {first second third : State Attr} (earlier : SameControl first second)
    (later : SameControl second third) : SameControl first third where
  buffers := later.buffers.trans earlier.buffers
  activeEventAttrs := later.activeEventAttrs.trans earlier.activeEventAttrs
  generation := later.generation.trans earlier.generation
  isEnabled := later.isEnabled.trans earlier.isEnabled
  background := later.background.trans earlier.background
  threads := later.threads.trans earlier.threads

structure Attached (state next : State Attr) (tid : Nat) (perfEventSet : PerfEventSet Attr) :
    Prop where
  control : SameControl state next
  tidy : Tidy next
  advances : Advances state next
  unpublished : state.activeEventAttrs.val = [] → next.perfEvents = state.perfEvents
  entered : state.activeEventAttrs.val ≠ [] →
    ∃ set, next.activeEvents.lookup tid = some set ∧
      perfEventSet.generation ≤ (next.sets.cell set).generation

theorem attached_of_kept (tidy : Tidy state) {old : Nat}
    (found : state.activeEvents.lookup tid = some old)
    (notNewer : perfEventSet.generation ≤ (state.sets.cell old).generation) :
    Attached state state tid perfEventSet where
  control := SameControl.refl state
  tidy := tidy
  advances := Advances.refl state
  unpublished := fun _ => rfl
  entered := fun _ => ⟨old, found, notNewer⟩

theorem attached_of_cleared (tidy : Tidy state) (cleared : state.activeEventAttrs.val = []) :
    Attached state state tid perfEventSet where
  control := SameControl.refl state
  tidy := tidy
  advances := Advances.refl state
  unpublished := fun _ => rfl
  entered := fun published => absurd cleared published

theorem attached_store (tidy : Tidy state) (published : state.activeEventAttrs.val ≠ [])
    (fits : Fits state.generation state.activeEventAttrs.val tid perfEventSet)
    (newer : ∀ old, state.activeEvents.lookup tid = some old →
      (state.sets.cell old).generation < perfEventSet.generation) :
    Attached state (store state tid perfEventSet) tid perfEventSet where
  control := ⟨rfl, rfl, rfl, rfl, rfl, rfl⟩
  tidy := store_tidy tidy published fits
  advances := store_advances tidy fits newer
  unpublished := fun cleared => absurd cleared published
  entered := by
    intro _
    refine ⟨state.sets.size, store_lookup fits, ?_⟩
    rw [store, Arena.cell_alloc_fresh]

/-- The replaced set is not that of any thread, so that it may be switched off. -/
theorem replaced_unused (tidy : Tidy state) {old : Nat}
    (fits : Fits state.generation state.activeEventAttrs.val tid perfEventSet)
    (found : state.activeEvents.lookup tid = some old) (other set : Nat)
    (entered : (store state tid perfEventSet).activeEvents.lookup other = some set) :
    set ≠ old := by
  have entry := tidy.entries tid old found
  rintro rfl
  by_cases same : other = tid
  · subst other
    rw [store_lookup fits] at entered
    cases entered
    exact Nat.lt_irrefl _ entry.allocated
  · rw [store, fits.tid_eq, AList.lookup_insert_ne same] at entered
    have otherEntry := tidy.entries other set entered
    exact same (otherEntry.fits.tid_eq.symm.trans entry.fits.tid_eq)

theorem attachUnsafe_attached (tidy : Tidy state)
    (fits : Fits state.generation state.activeEventAttrs.val tid perfEventSet) :
    ∃ next inert, attachUnsafe state tid perfEventSet = some (next, inert) ∧
      Attached state next tid perfEventSet ∧
      Attached state (deactivateSet next inert) tid perfEventSet := by
  rcases attachUnsafe_cases tidy fits with
    ⟨cleared, result⟩ | ⟨published, newer, result⟩ | ⟨old, found, notNewer, result⟩
  · have attached : Attached state state tid perfEventSet := attached_of_cleared tidy cleared
    exact ⟨state, none, result, attached, attached⟩
  · have attached := attached_store tidy published fits newer
    refine ⟨_, _, result, attached, ?_⟩
    cases found : state.activeEvents.lookup tid with
    | none => exact attached
    | some old =>
        have unused := replaced_unused tidy fits found
        obtain ⟨set, entered, reached⟩ := attached.entered published
        refine ⟨⟨rfl, rfl, rfl, rfl, rfl, rfl⟩, deactivateSet_tidy attached.tidy unused,
          attached.advances.trans (deactivateSet_advances unused),
          attached.unpublished, fun _ => ⟨set, entered, ?_⟩⟩
        rw [deactivateSet, Arena.cell_modify_of_ne _ _ (unused tid set entered)]
        exact reached
  · have attached := attached_of_kept tidy found notNewer
    exact ⟨state, none, result, attached, attached⟩

end Attaching

def Prepared (generation : Nat) (published : List Attr) (tid : Nat)
    (perfEventSet : PerfEventSet Attr) : Prop :=
  Fits generation published tid perfEventSet ∧ perfEventSet.generation = generation

theorem retire_attached {state next : State Attr} {tid : Nat} {perfEventSet : PerfEventSet Attr}
    (attached : Attached state next tid perfEventSet) (inert : Option Nat) :
    Attached state (retire next inert) tid perfEventSet where
  control := attached.control.trans ⟨rfl, rfl, rfl, rfl, rfl, rfl⟩
  tidy := attached.tidy.congr rfl rfl rfl rfl rfl
  advances := attached.advances
  unpublished := attached.unpublished
  entered := attached.entered

theorem attachAll_spec {generation : Nat} {published : List Attr} {buffers : List Nat}
    {perfEventSets : List (PerfEventSet Attr)} (nonempty : published ≠ [])
    (prepared : List.Forall₂ (Prepared generation published) buffers perfEventSets)
    {state : State Attr} (tidy : Tidy state) (now : state.generation = generation)
    (attrs : state.activeEventAttrs.val = published) :
    ∃ next, attachAll state buffers perfEventSets = some next ∧ SameControl state next ∧
      Tidy next ∧ Advances state next ∧ ∀ tid ∈ buffers, Current next tid := by
  induction prepared generalizing state with
  | nil => exact ⟨state, rfl, SameControl.refl state, tidy, Advances.refl state, by simp⟩
  | @cons tid perfEventSet buffers perfEventSets first rest ih =>
      have fits : Fits state.generation state.activeEventAttrs.val tid perfEventSet := by
        rw [now, attrs]
        exact first.1
      obtain ⟨stored, inert, result, attachedFirst, -⟩ := attachUnsafe_attached tidy fits
      have attached := retire_attached attachedFirst inert
      have sameGeneration := attached.control.generation
      have sameAttrs := attached.control.activeEventAttrs
      obtain ⟨next, others, control, tidyNext, advances, currents⟩ :=
        ih attached.tidy (sameGeneration.trans now) ((congrArg Subtype.val sameAttrs).trans attrs)
      refine ⟨next, ?_, attached.control.trans control, tidyNext,
        attached.advances.trans advances, ?_⟩
      · rw [attachAll, result, Option.bind_some]
        exact others
      · intro other listed
        rcases List.mem_cons.mp listed with rfl | later
        · -- the set just offered, or one that is at least as new
          obtain ⟨set, entered, reached⟩ := attached.entered (by rw [attrs]; exact nonempty)
          have notNewer := (attached.tidy.entries other set entered).fits.notNewer
          have current : Current (retire stored inert) other := by
            refine ⟨set, entered, ?_⟩
            have atLeast : generation ≤ ((retire stored inert).sets.cell set).generation :=
              first.2 ▸ reached
            omega
          exact advances.current tidyNext control.generation current
        · exact currents other later

def Pending (generation : Nat) : Thread Attr → Prop
  | .pushed => True
  | .snapped snapped _ => snapped = generation
  | .built perfEventSet => perfEventSet.generation = generation
  | .unregistered => False
  | .registered => False

def Served (state : State Attr) (tid : Nat) : Prop :=
  Current state tid ∨ Pending state.generation (state.threads tid)

def Holds (generation : Nat) (published : List Attr) (tid : Nat) : Thread Attr → Prop
  | .snapped snapped eventAttrs =>
      eventAttrs.val ≠ [] ∧ snapped ≤ generation ∧
        (snapped = generation → published ≠ [] → eventAttrs.val = published)
  | .built perfEventSet => Fits generation published tid perfEventSet
  | _ => True

def Stage (state : State Attr) : Background Attr → Prop
  | .idle =>
      if state.isEnabled then
        state.activeEventAttrs.val ≠ [] ∧ ∀ tid ∈ state.buffers, Served state tid
      else state.activeEventAttrs.val = []
  | .published eventAttrs =>
      eventAttrs = state.activeEventAttrs ∧ state.activeEventAttrs.val ≠ []
  | .building eventAttrs buffers remaining perfEventSets =>
      eventAttrs = state.activeEventAttrs ∧ state.activeEventAttrs.val ≠ [] ∧
        (∀ tid ∈ state.buffers, tid ∈ buffers ∨ Served state tid) ∧
        ∃ done, buffers = done ++ remaining ∧
          List.Forall₂ (Prepared state.generation state.activeEventAttrs.val) done perfEventSets
  | .attached => state.activeEventAttrs.val ≠ [] ∧ ∀ tid ∈ state.buffers, Served state tid
  | .cleared _ _ => state.activeEventAttrs.val = []

structure Inv (state : State Attr) : Prop where
  tidy : Tidy state
  holds : ∀ tid, Holds state.generation state.activeEventAttrs.val tid (state.threads tid)
  listed : ∀ tid, tid ∈ state.buffers ∨ state.threads tid = .unregistered
  stage : Stage state state.background

theorem initial_inv : Inv (State.initial : State Attr) where
  tidy := ⟨fun tid set found => by simp [State.initial] at found, fun _ => rfl⟩
  holds := fun _ => trivial
  listed := fun _ => .inr rfl
  stage := rfl

theorem Stage.of_served {state next : State Attr} (stage : Stage state state.background)
    (background : next.background = state.background)
    (generation : next.generation = state.generation)
    (activeEventAttrs : next.activeEventAttrs = state.activeEventAttrs)
    (isEnabled : next.isEnabled = state.isEnabled)
    (served : state.activeEventAttrs.val ≠ [] → ∀ tid ∈ next.buffers,
      Served next tid ∨ tid ∈ state.buffers ∧ (Served state tid → Served next tid)) :
    Stage next next.background := by
  rw [background]
  cases position : state.background with
  | idle =>
      rw [position, Stage] at stage
      rw [Stage, isEnabled, activeEventAttrs]
      split at stage
      · rename_i enabled
        rw [if_pos enabled]
        refine ⟨stage.1, fun tid listed => ?_⟩
        rcases served stage.1 tid listed with now | ⟨before, kept⟩
        · exact now
        · exact kept (stage.2 tid before)
      · rename_i disabled
        rw [if_neg disabled]
        exact stage
  | published eventAttrs =>
      rw [position, Stage] at stage
      rw [Stage, activeEventAttrs]
      exact stage
  | building eventAttrs buffers remaining perfEventSets =>
      rw [position, Stage] at stage
      obtain ⟨same, published, covered, prepared⟩ := stage
      rw [Stage, activeEventAttrs, generation]
      refine ⟨same, published, fun tid listed => ?_, prepared⟩
      rcases served published tid listed with now | ⟨before, kept⟩
      · exact .inr now
      · exact (covered tid before).imp_right kept
  | attached =>
      rw [position, Stage] at stage
      rw [Stage, activeEventAttrs]
      refine ⟨stage.1, fun tid listed => ?_⟩
      rcases served stage.1 tid listed with now | ⟨before, kept⟩
      · exact now
      · exact kept (stage.2 tid before)
  | cleared removed remaining =>
      rw [position, Stage] at stage
      rw [Stage, activeEventAttrs]
      exact stage

section Steps

variable {state next : State Attr}

theorem Inv.attached (inv : Inv state) {tid : Nat} {perfEventSet : PerfEventSet Attr}
    (attached : Attached state next tid perfEventSet) : Inv next where
  tidy := attached.tidy
  holds := by
    rw [attached.control.generation, attached.control.activeEventAttrs, attached.control.threads]
    exact inv.holds
  listed := by
    rw [attached.control.buffers, attached.control.threads]
    exact inv.listed
  stage := by
    apply inv.stage.of_served attached.control.background attached.control.generation
      attached.control.activeEventAttrs attached.control.isEnabled
    intro _ other listed
    rw [attached.control.buffers] at listed
    refine .inr ⟨listed, ?_⟩
    rintro (current | pending)
    · exact .inl (attached.advances.current attached.tidy attached.control.generation current)
    · refine .inr ?_
      rw [attached.control.generation, attached.control.threads]
      exact pending

theorem Inv.setThread (inv : Inv state) {tid : Nat} {thread : Thread Attr}
    (holds : Holds state.generation state.activeEventAttrs.val tid thread)
    (listed : tid ∈ state.buffers)
    (served : state.activeEventAttrs.val ≠ [] → Served state tid →
      Current state tid ∨ Pending state.generation thread) :
    Inv (state.setThread tid thread) where
  tidy := inv.tidy.congr rfl rfl rfl rfl rfl
  holds := by
    intro other
    by_cases same : other = tid
    · subst other
      rw [State.threads_setThread]
      exact holds
    · rw [State.threads_setThread_of_ne _ _ same]
      exact inv.holds other
  listed := by
    intro other
    by_cases same : other = tid
    · subst other
      exact .inl listed
    · rw [State.threads_setThread_of_ne _ _ same]
      exact inv.listed other
  stage := by
    refine inv.stage.of_served rfl rfl rfl rfl ?_
    intro published other present
    refine .inr ⟨present, fun before => ?_⟩
    by_cases same : other = tid
    · subst other
      rw [Served, State.threads_setThread]
      exact served published before
    · rw [Served, State.threads_setThread_of_ne _ _ same]
      exact before

theorem Inv.push (inv : Inv state) (tid : Nat) :
    Inv ({ state with buffers := tid :: state.buffers }.setThread tid .pushed) where
  tidy := inv.tidy.congr rfl rfl rfl rfl rfl
  holds := by
    intro other
    by_cases same : other = tid
    · subst other
      rw [State.threads_setThread]
      trivial
    · rw [State.threads_setThread_of_ne _ _ same]
      exact inv.holds other
  listed := by
    intro other
    by_cases same : other = tid
    · exact .inl (by rw [same]; exact List.mem_cons_self)
    · rw [State.threads_setThread_of_ne _ _ same]
      exact (inv.listed other).imp_left (List.mem_cons_of_mem tid)
  stage := by
    refine inv.stage.of_served rfl rfl rfl rfl ?_
    intro _ other present
    by_cases same : other = tid
    · subst other
      refine .inl (.inr ?_)
      rw [State.threads_setThread]
      trivial
    · refine .inr ⟨(List.mem_cons.mp present).resolve_left same, fun before => ?_⟩
      rw [Served, State.threads_setThread_of_ne _ _ same]
      exact before

theorem Fits.later {generation tid : Nat} {published renewed : List Attr}
    {perfEventSet : PerfEventSet Attr} (fits : Fits generation published tid perfEventSet) :
    Fits (generation + 1) renewed tid perfEventSet where
  tid_eq := fits.tid_eq
  nonempty := fits.nonempty
  active := fits.active
  notNewer := Nat.le_succ_of_le fits.notNewer
  complete := by
    intro same
    have notNewer := fits.notNewer
    omega

theorem Holds.later {generation tid : Nat} {published renewed : List Attr} {thread : Thread Attr}
    (holds : Holds generation published tid thread) : Holds (generation + 1) renewed tid thread := by
  cases thread with
  | snapped snapped eventAttrs =>
      obtain ⟨nonempty, notNewer, -⟩ := holds
      refine ⟨nonempty, Nat.le_succ_of_le notNewer, ?_⟩
      intro same
      omega
  | built perfEventSet => exact Fits.later holds
  | unregistered => trivial
  | pushed => trivial
  | registered => trivial

theorem Holds.cleared {generation tid : Nat} {published : List Attr} {thread : Thread Attr}
    (holds : Holds generation published tid thread) : Holds generation [] tid thread := by
  cases thread with
  | snapped snapped eventAttrs =>
      obtain ⟨nonempty, notNewer, -⟩ := holds
      exact ⟨nonempty, notNewer, fun _ empty => absurd rfl empty⟩
  | built perfEventSet =>
      have fits : Fits generation published tid perfEventSet := holds
      exact ⟨fits.tid_eq, fits.nonempty, fits.active, fits.notNewer,
        fun _ empty => absurd rfl empty⟩
  | unregistered => trivial
  | pushed => trivial
  | registered => trivial

theorem Inv.setBackground (inv : Inv state) {background : Background Attr}
    (stage : Stage state background) : Inv (state.setBackground background) where
  tidy := inv.tidy.congr rfl rfl rfl rfl rfl
  holds := inv.holds
  listed := inv.listed
  stage := by
    cases background with
    | idle => exact stage
    | published eventAttrs => exact stage
    | building eventAttrs buffers remaining perfEventSets => exact stage
    | attached => exact stage
    | cleared removed remaining => exact stage

theorem tidy_of_empty (empty : state.activeEvents = ∅) : Tidy state where
  entries := by
    intro tid set found
    rw [empty, AList.lookup_empty] at found
    cases found
  cleared := fun _ => empty

theorem Inv.enable (inv : Inv state) (eventAttrs : PerfEventAttrSet Attr)
    (idle : state.background = .idle) : Inv (stepEnable state eventAttrs) := by
  rw [stepEnable]
  split
  · exact inv
  · rename_i accepted
    obtain ⟨disabled, nonempty⟩ : state.isEnabled = false ∧ eventAttrs.val ≠ [] := by
      simpa using accepted
    have stage := inv.stage
    rw [idle, Stage, disabled, if_neg Bool.false_ne_true] at stage
    exact ⟨tidy_of_empty (inv.tidy.cleared stage), fun tid => (inv.holds tid).later, inv.listed,
      rfl, nonempty⟩

theorem Inv.readHead (inv : Inv state) {eventAttrs : PerfEventAttrSet Attr}
    (position : state.background = .published eventAttrs) :
    Inv (state.setBackground (.building eventAttrs state.buffers state.buffers [])) := by
  have stage := inv.stage
  rw [position, Stage] at stage
  exact inv.setBackground ⟨stage.1, stage.2, fun _ listed => .inl listed, [], rfl,
    List.Forall₂.nil⟩

theorem Inv.build (inv : Inv state) {eventAttrs : PerfEventAttrSet Attr}
    {buffers remaining : List Nat} {buffer : Nat} {perfEventSets : List (PerfEventSet Attr)}
    (position : state.background =
      .building eventAttrs buffers (buffer :: remaining) perfEventSets) :
    ∃ background, stepBuild state eventAttrs buffers buffer remaining perfEventSets =
        some (state.setBackground background) ∧ Inv (state.setBackground background) := by
  have stage := inv.stage
  rw [position, Stage] at stage
  obtain ⟨rfl, published, covered, done, split, prepared⟩ := stage
  have fits : Fits state.generation state.activeEventAttrs.val buffer
      (fullSet state.activeEventAttrs state.generation buffer) :=
    fits_of_build published (Nat.le_refl _) (fun _ _ => rfl)
  refine ⟨.building state.activeEventAttrs buffers remaining
      (perfEventSets ++ [fullSet state.activeEventAttrs state.generation buffer]), ?_,
    inv.setBackground ⟨rfl, published, covered, done ++ [buffer], ?_, ?_⟩⟩
  · rw [stepBuild, buildPerfEvents_eq _ _ published, Option.map_some, size_fullSet,
      if_neg (not_not_intro rfl)]
  · rw [split, List.append_assoc, List.singleton_append]
  · exact List.rel_append prepared (List.Forall₂.cons ⟨fits, rfl⟩ List.Forall₂.nil)

theorem Inv.attachAll (inv : Inv state) {eventAttrs : PerfEventAttrSet Attr}
    {buffers : List Nat} {perfEventSets : List (PerfEventSet Attr)}
    (position : state.background = .building eventAttrs buffers [] perfEventSets) :
    ∃ attached, attachAll state buffers perfEventSets = some attached ∧
      Advances state attached ∧ Inv (attached.setBackground .attached) := by
  have stage := inv.stage
  rw [position, Stage] at stage
  obtain ⟨rfl, published, covered, done, split, prepared⟩ := stage
  rw [List.append_nil] at split
  subst done
  obtain ⟨attached, result, control, tidy, advances, currents⟩ :=
    attachAll_spec published prepared inv.tidy rfl rfl
  refine ⟨attached, result, advances, tidy.congr rfl rfl rfl rfl rfl, ?_, ?_, ?_, ?_⟩
  · rw [State.setBackground, control.generation, control.activeEventAttrs, control.threads]
    exact inv.holds
  · rw [State.setBackground, control.buffers, control.threads]
    exact inv.listed
  · exact (congrArg Subtype.val control.activeEventAttrs).trans_ne published
  · intro tid listed
    have before : tid ∈ state.buffers := control.buffers ▸ listed
    rcases covered tid before with found | current | pending
    · exact .inl (currents tid found)
    · exact .inl (advances.current tidy control.generation current)
    · refine .inr ?_
      have same : Pending attached.generation (attached.threads tid) := by
        rw [control.generation, control.threads]
        exact pending
      exact same

theorem Inv.enabled (inv : Inv state) (position : state.background = .attached) :
    Inv { state with isEnabled := true, background := .idle } where
  tidy := inv.tidy.congr rfl rfl rfl rfl rfl
  holds := inv.holds
  listed := inv.listed
  stage := by
    have stage := inv.stage
    rw [position, Stage] at stage
    rw [Stage, if_pos rfl]
    exact stage

theorem Inv.disable (inv : Inv state) : Inv (stepDisable state) := by
  rw [stepDisable]
  split
  · exact ⟨tidy_of_empty rfl, fun tid => (inv.holds tid).cleared, inv.listed, rfl⟩
  · exact inv

theorem Inv.deactivate (inv : Inv state) {removed remaining : List Nat} {set : Nat}
    (position : state.background = .cleared removed (set :: remaining)) :
    Inv ((deactivateSet state (some set)).setBackground (.cleared removed remaining)) where
  tidy := by
    have stage := inv.stage
    rw [position, Stage] at stage
    exact tidy_of_empty (inv.tidy.cleared stage)
  holds := inv.holds
  listed := inv.listed
  stage := by
    have stage := inv.stage
    rw [position, Stage] at stage
    exact stage

theorem Inv.disabled (inv : Inv state) {removed : List Nat}
    (position : state.background = .cleared removed []) :
    Inv { state with
      isEnabled := false
      inertEvents := state.inertEvents ++ removed
      background := .idle } where
  tidy := inv.tidy.congr rfl rfl rfl rfl rfl
  holds := inv.holds
  listed := inv.listed
  stage := by
    have stage := inv.stage
    rw [position, Stage] at stage
    rw [Stage, if_neg Bool.false_ne_true]
    exact stage

theorem Inv.mem_buffers (inv : Inv state) {tid : Nat}
    (known : state.threads tid ≠ .unregistered) : tid ∈ state.buffers :=
  (inv.listed tid).resolve_right known

theorem Inv.snap (inv : Inv state) {tid : Nat} (position : state.threads tid = .pushed) :
    Inv (stepSnap state tid) := by
  have listed : tid ∈ state.buffers := inv.mem_buffers (by simp [position])
  rw [stepSnap, snapEventAttrs]
  split
  · rename_i empty
    refine inv.setThread trivial listed ?_
    intro published
    exact absurd (List.isEmpty_iff.mp empty) published
  · rename_i nonempty
    refine inv.setThread ⟨?_, Nat.le_refl _, fun _ _ => rfl⟩ listed (fun _ _ => .inr rfl)
    simpa using nonempty

theorem Inv.buildOwn (inv : Inv state) {tid generation : Nat}
    {eventAttrs : PerfEventAttrSet Attr}
    (position : state.threads tid = .snapped generation eventAttrs) :
    ∃ perfEventSet, stepBuildOwn state tid generation eventAttrs =
        some (state.setThread tid (.built perfEventSet)) ∧
      Inv (state.setThread tid (.built perfEventSet)) := by
  have listed : tid ∈ state.buffers := inv.mem_buffers (by simp [position])
  have holds := inv.holds tid
  rw [position] at holds
  obtain ⟨nonempty, notNewer, same⟩ := holds
  refine ⟨_, ?_, inv.setThread (fits_of_build nonempty notNewer same) listed ?_⟩
  · rw [stepBuildOwn, buildPerfEvents_eq _ _ nonempty, Option.map_some, size_fullSet, if_pos rfl]
  · intro _
    rintro (current | pending)
    · exact .inl current
    · rw [position] at pending
      exact .inr pending

theorem Inv.attach (inv : Inv state) {tid : Nat} {perfEventSet : PerfEventSet Attr}
    (position : state.threads tid = .built perfEventSet) :
    ∃ attached, stepAttach state tid perfEventSet = some (attached.setThread tid .registered) ∧
      Attached state attached tid perfEventSet ∧ Inv (attached.setThread tid .registered) := by
  have listed : tid ∈ state.buffers := inv.mem_buffers (by simp [position])
  have fits := inv.holds tid
  rw [position] at fits
  obtain ⟨stored, inert, result, -, attached⟩ := attachUnsafe_attached inv.tidy fits
  refine ⟨deactivateSet stored inert, ?_, attached, ?_⟩
  · rw [stepAttach, result, Option.map_some]
  · refine (inv.attached attached).setThread trivial (by rwa [attached.control.buffers]) ?_
    intro published
    rintro (current | pending)
    · exact .inl current
    · -- a set of the current generation is taken, or finds one
      rw [attached.control.threads, attached.control.generation, position] at pending
      rw [attached.control.activeEventAttrs] at published
      obtain ⟨set, entered, reached⟩ := attached.entered published
      have notNewer := (attached.tidy.entries tid set entered).fits.notNewer
      have now : perfEventSet.generation = state.generation := pending
      have same := attached.control.generation
      exact .inl ⟨set, entered, by omega⟩

end Steps

def Moves (state next : State Attr) : Prop :=
  next.perfEvents = state.perfEvents ∧
      (next.activeEvents = ∅ ∨
        next.activeEvents = state.activeEvents ∧ next.sets = state.sets) ∨
    state.activeEventAttrs.val ≠ [] ∧ Advances state next

theorem Moves.of_same {state next : State Attr} (perfEvents : next.perfEvents = state.perfEvents)
    (activeEvents : next.activeEvents = state.activeEvents) (sets : next.sets = state.sets) :
    Moves state next := .inl ⟨perfEvents, .inr ⟨activeEvents, sets⟩⟩

theorem Moves.of_attached {state next : State Attr} {tid : Nat} {perfEventSet : PerfEventSet Attr}
    (attached : Attached state next tid perfEventSet) (thread : Thread Attr) :
    Moves state (next.setThread tid thread) := by
  by_cases cleared : state.activeEventAttrs.val = []
  · refine .inl ⟨attached.unpublished cleared, .inl (attached.tidy.cleared ?_)⟩
    rw [attached.control.activeEventAttrs]
    exact cleared
  · exact .inr ⟨cleared, attached.advances⟩

section Moves

variable {state next : State Attr}

theorem Inv.step_enable {eventAttrs : PerfEventAttrSet Attr}
    (inv : Inv state) (taken : step state (.enable eventAttrs) = some next) :
    Inv next ∧ Moves state next := by
  delta step at taken
  dsimp only at taken
  split at taken
  · rename_i position
    cases taken
    refine ⟨inv.enable eventAttrs position, ?_⟩
    rw [stepEnable]
    split
    · exact Moves.of_same rfl rfl rfl
    · exact Moves.of_same rfl rfl rfl
  · cases taken

theorem Inv.step_readHead
    (inv : Inv state) (taken : step state .readHead = some next) : Inv next ∧ Moves state next := by
  delta step at taken
  dsimp only at taken
  split at taken
  · rename_i position
    cases taken
    exact ⟨inv.readHead position, Moves.of_same rfl rfl rfl⟩
  · cases taken

theorem Inv.step_build
    (inv : Inv state) (taken : step state .build = some next) : Inv next ∧ Moves state next := by
  delta step at taken
  dsimp only at taken
  split at taken
  · rename_i position
    obtain ⟨background, result, kept⟩ := inv.build position
    rw [result] at taken
    cases taken
    exact ⟨kept, Moves.of_same rfl rfl rfl⟩
  · cases taken

theorem Inv.step_attachAll (inv : Inv state) (taken : step state .attachAll = some next) :
    Inv next ∧ Moves state next := by
  delta step at taken
  dsimp only at taken
  split at taken
  · rename_i position
    have stage := inv.stage
    rw [position, Stage] at stage
    obtain ⟨attached, result, advances, kept⟩ := inv.attachAll position
    rw [result] at taken
    cases taken
    exact ⟨kept, .inr ⟨stage.2.1, advances⟩⟩
  · cases taken

theorem Inv.step_enabled
    (inv : Inv state) (taken : step state .enabled = some next) : Inv next ∧ Moves state next := by
  delta step at taken
  dsimp only at taken
  split at taken
  · rename_i position
    cases taken
    exact ⟨inv.enabled position, Moves.of_same rfl rfl rfl⟩
  · cases taken

theorem Inv.step_disable
    (inv : Inv state) (taken : step state .disable = some next) : Inv next ∧ Moves state next := by
  delta step at taken
  dsimp only at taken
  split at taken
  · cases taken
    refine ⟨inv.disable, ?_⟩
    rw [stepDisable]
    split
    · exact .inl ⟨rfl, .inl rfl⟩
    · exact Moves.of_same rfl rfl rfl
  · cases taken

theorem Inv.step_deactivate (inv : Inv state) (taken : step state .deactivate = some next) :
    Inv next ∧ Moves state next := by
  delta step at taken
  dsimp only at taken
  split at taken
  · rename_i position
    have stage := inv.stage
    rw [position, Stage] at stage
    cases taken
    exact ⟨inv.deactivate position, .inl ⟨rfl, .inl (inv.tidy.cleared stage)⟩⟩
  · cases taken

theorem Inv.step_disabled
    (inv : Inv state) (taken : step state .disabled = some next) : Inv next ∧ Moves state next := by
  delta step at taken
  dsimp only at taken
  split at taken
  · rename_i position
    cases taken
    exact ⟨inv.disabled position, Moves.of_same rfl rfl rfl⟩
  · cases taken

theorem Inv.step_push {tid : Nat} (inv : Inv state) (taken : step state (.push tid) = some next) :
    Inv next ∧ Moves state next := by
  delta step at taken
  dsimp only at taken
  split at taken
  · cases taken
    exact ⟨inv.push tid, Moves.of_same rfl rfl rfl⟩
  · cases taken

theorem Inv.step_snap {tid : Nat} (inv : Inv state) (taken : step state (.snap tid) = some next) :
    Inv next ∧ Moves state next := by
  delta step at taken
  dsimp only at taken
  split at taken
  · rename_i position
    cases taken
    refine ⟨inv.snap position, ?_⟩
    rw [stepSnap]
    split
    · exact Moves.of_same rfl rfl rfl
    · exact Moves.of_same rfl rfl rfl
  · cases taken

theorem Inv.step_buildOwn {tid : Nat}
    (inv : Inv state) (taken : step state (.buildOwn tid) = some next) :
    Inv next ∧ Moves state next := by
  delta step at taken
  dsimp only at taken
  split at taken
  · rename_i position
    obtain ⟨perfEventSet, result, kept⟩ := inv.buildOwn position
    rw [result] at taken
    cases taken
    exact ⟨kept, Moves.of_same rfl rfl rfl⟩
  · cases taken

theorem Inv.step_attach {tid : Nat}
    (inv : Inv state) (taken : step state (.attach tid) = some next) :
    Inv next ∧ Moves state next := by
  delta step at taken
  dsimp only at taken
  split at taken
  · rename_i position
    obtain ⟨attached, result, effect, kept⟩ := inv.attach position
    rw [result] at taken
    cases taken
    exact ⟨kept, Moves.of_attached effect .registered⟩
  · cases taken

end Moves

theorem step_inv {state next : State Attr} (action : Action Attr)
    (taken : step state action = some next) (inv : Inv state) : Inv next ∧ Moves state next := by
  cases action with
  | enable eventAttrs => exact inv.step_enable taken
  | readHead => exact inv.step_readHead taken
  | build => exact inv.step_build taken
  | attachAll => exact inv.step_attachAll taken
  | enabled => exact inv.step_enabled taken
  | disable => exact inv.step_disable taken
  | deactivate => exact inv.step_deactivate taken
  | disabled => exact inv.step_disabled taken
  | push tid => exact inv.step_push taken
  | snap tid => exact inv.step_snap taken
  | buildOwn tid => exact inv.step_buildOwn taken
  | attach tid => exact inv.step_attach taken

theorem run_inv {actions : List (Action Attr)} {state : State Attr}
    (reached : run step State.initial actions = some state) : Inv state := by
  have kept : ∀ (state : State Attr) action next, Inv state → step state action = some next →
      Inv next := fun _ action _ inv taken => (step_inv action taken inv).1
  exact run_keeps kept initial_inv reached

theorem step_defined {actions : List (Action Attr)} {state : State Attr}
    (reached : run step State.initial actions = some state) :
    (∀ eventAttrs buffers buffer remaining perfEventSets,
      state.background = .building eventAttrs buffers (buffer :: remaining) perfEventSets →
        (step state .build).isSome) ∧
    (∀ eventAttrs buffers perfEventSets,
      state.background = .building eventAttrs buffers [] perfEventSets →
        (step state .attachAll).isSome) ∧
    (∀ tid generation eventAttrs, state.threads tid = .snapped generation eventAttrs →
      (step state (.buildOwn tid)).isSome) ∧
    ∀ tid perfEventSet, state.threads tid = .built perfEventSet →
      (step state (.attach tid)).isSome := by
  have inv := run_inv reached
  refine ⟨?_, ?_, ?_, ?_⟩
  · intro eventAttrs buffers buffer remaining perfEventSets position
    obtain ⟨background, result, -⟩ := inv.build position
    simp [step, position, result]
  · intro eventAttrs buffers perfEventSets position
    obtain ⟨attached, result, -⟩ := inv.attachAll position
    simp [step, position, result]
  · intro tid generation eventAttrs position
    obtain ⟨perfEventSet, result, -⟩ := inv.buildOwn position
    simp [step, position, result]
  · intro tid perfEventSet position
    obtain ⟨attached, result, -⟩ := inv.attach position
    simp [step, position, result]

def activeSet (state : State Attr) (tid : Nat) : Option (PerfEventSet Attr) :=
  (state.activeEvents.lookup tid).map state.sets.cell

theorem Moves.ascends {state next : State Attr} (moves : Moves state next) {tid : Nat}
    {old new : PerfEventSet Attr} (before : activeSet state tid = some old)
    (after : activeSet next tid = some new) : new = old ∨ old.generation < new.generation := by
  obtain ⟨first, found, rfl⟩ := Option.map_eq_some_iff.mp before
  obtain ⟨second, found', rfl⟩ := Option.map_eq_some_iff.mp after
  rcases moves with ⟨-, empty | ⟨same, sets⟩⟩ | ⟨-, advances⟩
  · rw [empty, AList.lookup_empty] at found'
    cases found'
  · rw [same, found] at found'
    cases found'
    rw [sets]
    exact .inl rfl
  · obtain ⟨set, entered, newer⟩ := advances tid first found
    rw [found'] at entered
    cases entered
    exact newer

theorem Moves.unpublished {state next : State Attr} (moves : Moves state next) (tidy : Tidy state)
    (cleared : state.activeEventAttrs.val = []) :
    next.activeEvents = ∅ ∧ next.perfEvents = state.perfEvents := by
  rcases moves with ⟨perfEvents, empty | ⟨same, -⟩⟩ | ⟨published, -⟩
  · exact ⟨empty, perfEvents⟩
  · rw [same]
    exact ⟨tidy.cleared cleared, perfEvents⟩
  · exact absurd cleared published

/--
In every run a set replaces only one of an earlier generation, none is attached while no
attributes are published, and whenever the background thread is idle with events enabled,
every thread that has registered has an active set with the events of the session.
-/
theorem generations_agree (actions : List (Action Attr)) (state : State Attr)
    (reached : run step State.initial actions = some state) :
    (∀ action next, step state action = some next → ∀ tid old new,
      activeSet state tid = some old → activeSet next tid = some new →
        new = old ∨ old.generation < new.generation) ∧
    (state.activeEventAttrs.val = [] → state.activeEvents = ∅ ∧
      ∀ action next, step state action = some next →
        next.activeEvents = ∅ ∧ next.perfEvents = state.perfEvents) ∧
    (state.background = .idle → state.isEnabled = true →
      ∀ tid, state.threads tid = .registered → ∃ set, state.perfEvents tid = some set ∧
        activeSet state tid = some (state.sets.cell set) ∧
        (state.sets.cell set).active = true ∧
        (state.sets.cell set).tid = tid ∧
        (state.sets.cell set).generation = state.generation ∧
        (state.sets.cell set).size = state.activeEventAttrs.val.length ∧
        (state.sets.cell set).events.map PerfEvent.attr = state.activeEventAttrs.val) := by
  have inv := run_inv reached
  refine ⟨?_, ?_, ?_⟩
  · intro action next taken tid old new
    exact (step_inv action taken inv).2.ascends
  · intro cleared
    refine ⟨inv.tidy.cleared cleared, ?_⟩
    intro action next taken
    exact (step_inv action taken inv).2.unpublished inv.tidy cleared
  · intro idle enabled tid registered
    have stage := inv.stage
    rw [idle, Stage, if_pos enabled] at stage
    have listed : tid ∈ state.buffers := inv.mem_buffers (by simp [registered])
    rcases stage.2 tid listed with ⟨set, found, now⟩ | pending
    · have entry := inv.tidy.entries tid set found
      have events := entry.fits.complete now stage.1
      refine ⟨set, entry.buffer, ?_, entry.fits.active, entry.fits.tid_eq, now, ?_, events⟩
      · rw [activeSet, found, Option.map_some]
      · rw [← events, List.length_map, PerfEventSet.size]
    · rw [registered] at pending
      exact pending.elim

/-- A thread that carries the attributes of the first session into the second. -/
def lateThread : List (Action Unit) :=
  [.push 7, .enable ⟨[()], by decide⟩, .snap 7, .readHead, .build, .attachAll, .enabled,
    .disable, .deactivate, .disabled, .enable ⟨[(), ()], by decide⟩, .buildOwn 7, .attach 7,
    .readHead, .build, .attachAll, .enabled]

theorem generations_agree_lateThread :
    ∃ state, run step State.initial lateThread = some state ∧
      state.background = .idle ∧ state.isEnabled = true ∧ state.threads 7 = .registered ∧
      ∃ set, state.perfEvents 7 = some set ∧ activeSet state 7 = some (state.sets.cell set) ∧
        (state.sets.cell set).active = true ∧ (state.sets.cell set).tid = 7 ∧
        (state.sets.cell set).generation = state.generation ∧
        (state.sets.cell set).size = state.activeEventAttrs.val.length ∧
        (state.sets.cell set).events.map PerfEvent.attr = state.activeEventAttrs.val := by
  refine ⟨_, rfl, rfl, rfl, rfl, ?_⟩
  exact (generations_agree lateThread _ rfl).2.2 rfl rfl 7 rfl

end Xpedite.Perf
