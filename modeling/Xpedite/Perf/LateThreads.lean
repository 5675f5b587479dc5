import Xpedite.Perf.AttachedSets
import Xpedite.Perf.FailedEnable

/-!
Whether a thread that records perf events has its set.  The background thread attaches the sets
of the threads it has found in the list, a thread that comes later its own; a set that is active
for the `tid` is kept unless it is of an earlier generation.
-/

namespace Xpedite.PerfSessions

open Framework Lib

def Recording (control : Control) : Prop := control.recorder.activeRecorderType = .perfEvents

/-- The buffer needs no set of its thread's own, as it has one, will get one, or none is used. -/
def Covered (state : State) (buffer : Nat) : Prop :=
  match state.background with
  | .published _ _ => True
  | .building _ _ buffers _ _ => buffer ∈ buffers ∨ Current state buffer
  | .attached _ => Served state buffer
  | _ => Recording state.control → Served state buffer

/--
A thread goes on without a set of its own only if its buffer is covered, and the set that is
active for the `tid` of a thread is kept only if the thread has it.
-/
def Allowed (state : State) : Action → Prop
  | .buildOwn buffer opens => opens = true ∨ Covered state buffer
  | .attach buffer =>
      (∀ perfEventSet, state.threads buffer = .built perfEventSet →
        supersedes state perfEventSet = true) ∨ Covered state buffer
  | .attachAll =>
      ∀ request eventAttrs buffers perfEventSets,
        state.background = .building request eventAttrs buffers [] perfEventSets →
        ∀ buffer ∈ buffers, (state.threads buffer).hasExited = false →
        ∀ set, state.activeEvents.lookup (state.tid buffer) = some set →
          (state.sets.cell set).generation < state.control.pmu.generation ∨
            state.perfEvents buffer = some set
  | _ => True

section Recorder

variable {control : Control}

/-- Disabling the counters turns the recorder off, as it finds some that are on. -/
def Counting (control : Control) : Background → Prop
  | .idle =>
      (Recording control → control.pmu.perfEventsEnabled = true) ∧
        (control.pmu.perfEventsEnabled = true → 0 < control.pmu.readCount)
  | .genericDisabled =>
      Recording control →
        control.pmu.genericPmcCount = 0 ∧ control.pmu.fixedPmcSet.size ≠ 0
  | _ => ¬Recording control

theorem not_recording_of_activate {type : RecorderType} (other : type ≠ .perfEvents)
    (active : control.recorder = activateRecorder type) : ¬Recording control := by
  intro recording
  rw [Recording, active] at recording
  exact other recording

theorem recording_of_if {next : Control} {condition : Prop} [Decidable condition]
    {type : RecorderType} (other : type ≠ .perfEvents)
    (recorder : next.recorder = if condition then activateRecorder type else control.recorder)
    (recording : Recording next) : ¬condition ∧ Recording control := by
  by_cases holds : condition
  · rw [if_pos holds] at recorder
    exact absurd recording (not_recording_of_activate other recorder)
  · rw [if_neg holds] at recorder
    exact ⟨holds, by rw [Recording, ← recorder]; exact recording⟩

theorem counting_enableGenericPmc (counting : Counting control .idle) (count : UInt8) :
    (Recording (control.enableGenericPmc count) → Recording control) ∧
      Counting (control.enableGenericPmc count) .idle := by
  have pmu := control.enableGenericPmc_pmu count
  by_cases zero : count = 0
  · rw [Control.enableGenericPmc, if_pos zero]
    exact ⟨id, counting⟩
  · have recorder : (control.enableGenericPmc count).recorder =
        if control.pmu.pmcCount = 0 then activateRecorder .pmc else control.recorder := by
      rw [Control.enableGenericPmc, if_neg zero]
      exact recorder_activate_if control .pmc _
    have kept := recording_of_if (by decide) recorder
    refine ⟨fun recording => (kept recording).2, ?_, ?_⟩
    · intro recording
      rw [pmu]
      exact counting.1 (kept recording).2
    · intro _
      have positive : count.toNat ≠ 0 := fun none_ => zero (UInt8.toNat_inj.mp none_)
      rw [pmu, PmuCtl.readCount, Control.genericAfter, if_neg zero]
      dsimp only
      omega

theorem counting_enableFixedPmc {next : Control} {index : UInt8} (counting : Counting control .idle)
    (enabled : control.enableFixedPmc index = some next) :
    (Recording next → Recording control) ∧ Counting next .idle := by
  obtain ⟨recorder, -, -, positive⟩ := enableFixedPmc_cases enabled
  have kept := recording_of_if (by decide) recorder
  refine ⟨fun recording => (kept recording).2, ?_, ?_⟩
  · intro recording
    rw [(sameEvents_enableFixedPmc enabled).enabled]
    exact counting.1 (kept recording).2
  · intro _
    rw [PmuCtl.readCount]
    omega

theorem counting_disableGenericPmc (counting : Counting control .idle)
    (enabled : control.pmu.perfEventsEnabled = true) :
    (Recording control.disableGenericPmc → Recording control) ∧
      Counting control.disableGenericPmc .genericDisabled := by
  have kept := recording_of_if (by decide) (disableGenericPmc_recorder control)
  refine ⟨fun recording => (kept recording).2, ?_⟩
  intro recording
  rw [Control.disableGenericPmc_pmu]
  refine ⟨rfl, ?_⟩
  intro none_
  have positive := counting.2 enabled
  rw [PmuCtl.readCount, none_] at positive
  refine (kept recording).1 ⟨?_, none_⟩
  intro zero
  rw [zero] at positive
  exact absurd positive (by decide)

theorem counting_disableFixedPmc (counting : Counting control .genericDisabled) :
    ¬Recording control.disableFixedPmc := by
  intro recording
  obtain ⟨unchanged, before⟩ := recording_of_if (by decide) (disableFixedPmc_recorder control)
    recording
  obtain ⟨generic, fixed⟩ := counting before
  exact unchanged ⟨fixed, generic⟩

theorem counting_disablePMU (counting : Counting control .idle)
    (off : control.pmu.perfEventsEnabled = false) :
    Counting control.disableGenericPmc.disableFixedPmc .idle := by
  have same := (sameEvents_disableGenericPmc control).trans (sameEvents_disableFixedPmc _)
  have off' := same.enabled.trans off
  refine ⟨?_, fun on => absurd (off'.symm.trans on) Bool.false_ne_true⟩
  intro recording
  have generic := (recording_of_if (by decide) (disableFixedPmc_recorder _) recording).2
  have before := (recording_of_if (by decide) (disableGenericPmc_recorder _) generic).2
  exact absurd (off.symm.trans (counting.1 before)) Bool.false_ne_true

theorem counting_enableCounters {enabled : Control} {request : PMUCtlRequest}
    {eventAttrs : List PerfEventAttr} (inCall : InCall control request eventAttrs)
    (taken : enableCounters control request = some enabled) : 0 < enabled.pmu.readCount := by
  obtain ⟨eventSet, built, rfl⟩ := inCall.built
  have length := length_buildPerfEventAttrs built
  have positive := List.length_pos_iff.mpr inCall.some_
  rw [(enableCounters_cases taken).2, PmuCtl.readCount]
  by_cases generic : request.gpEvtCount.toNat = 0
  · cases indices : requestedIndices request with
    | nil =>
        rw [indices] at length
        have none_ : (FixedPmcSet.new.withIndices []).size = 0 := rfl
        omega
    | cons index rest =>
        obtain ⟨fixedPmcSet, all, -⟩ := Option.map_eq_some_iff.mp taken
        rw [indices] at all
        have some_ := FixedPmcSet.size_pos_of_enableAll all
        rw [FixedPmcSet.enableAll_eq_some all] at some_
        dsimp only
        omega
  · dsimp only
    omega

end Recorder

def InTime (state : State) (buffer generation : Nat) : Prop :=
  match state.background with
  | .building _ _ buffers _ _ =>
      buffer ∈ buffers ∨ generation = state.control.pmu.generation
  | _ => True

def Ready (state : State) (buffer : Nat) : Thread → Prop
  | .snapped generation _ => InTime state buffer generation
  | .built perfEventSet => InTime state buffer perfEventSet.generation
  | .registered => Covered state buffer
  | _ => True

def Holds : Thread → Prop
  | .snapped _ eventAttrs => eventAttrs ≠ []
  | .built perfEventSet => 0 < perfEventSet.size
  | _ => True

def Snapshot (state : State) : Background → Prop
  | .building _ eventAttrs buffers remaining perfEventSets =>
      buffers <:+ state.buffers ∧ ∃ done, buffers = done ++ remaining ∧
        perfEventSets = done.map fun buffer =>
          buildPerfEvents true eventAttrs state.control.pmu.generation (state.tid buffer)
  | _ => True

structure Inv (state : State) : Prop where
  counting : Counting state.control state.background
  listed : ∀ buffer, buffer ∈ state.buffers ↔ state.threads buffer ≠ .unregistered
  ordered : state.buffers.Pairwise fun newer older =>
    state.tid newer = state.tid older → (state.threads older).hasExited = true
  entries : Entries state
  holds : ∀ buffer, Holds (state.threads buffer)
  ready : ∀ buffer, Ready state buffer (state.threads buffer)
  snapshot : Snapshot state state.background

theorem initial_inv : Inv State.initial where
  counting := by
    have idle : ¬Recording State.initial.control :=
      @not_recording_of_activate _ .expandable (by decide) rfl
    exact ⟨fun recording => absurd recording idle, fun on => absurd on Bool.false_ne_true⟩
  listed := fun buffer => iff_of_false List.not_mem_nil (not_not_intro rfl)
  ordered := List.Pairwise.nil
  entries := by
    intro tid set found
    rw [State.initial, AList.lookup_empty] at found
    cases found
  holds := fun _ => trivial
  ready := fun _ => trivial
  snapshot := trivial

section Threads

variable {state next : State} {buffer other : Nat}

theorem Inv.tid_ne (inv : Inv state) (known : buffer ∈ state.buffers)
    (known' : other ∈ state.buffers) (different : other ≠ buffer)
    (running : (state.threads buffer).hasExited = false)
    (running' : (state.threads other).hasExited = false) : state.tid other ≠ state.tid buffer := by
  intro same
  have either : state.buffers.Pairwise fun first second =>
      state.tid first = state.tid second →
        (state.threads first).hasExited = true ∨ (state.threads second).hasExited = true :=
    inv.ordered.imp fun exited same => .inr (exited same)
  have symmetric : Std.Symm fun first second => state.tid first = state.tid second →
      (state.threads first).hasExited = true ∨ (state.threads second).hasExited = true :=
    ⟨fun _ _ exited same => (exited same.symm).symm⟩
  rcases either.forall known' known different same with exited | exited
  · exact absurd (running'.symm.trans exited) Bool.false_ne_true
  · exact absurd (running.symm.trans exited) Bool.false_ne_true

theorem covered_of_cleared (inv : Inv state) (staged : Staged state.control state.background)
    (cleared : state.control.pmu.activeEventAttrs = []) (buffer : Nat) : Covered state buffer := by
  have counting := inv.counting
  rw [Covered]
  cases position : state.background with
  | idle =>
      rw [position] at staged counting
      exact fun recording => absurd cleared (staged (counting.1 recording))
  | published request eventAttrs => trivial
  | building request eventAttrs buffers remaining perfEventSets =>
      rw [position] at staged
      have inCall : InCall state.control request eventAttrs := staged
      exact absurd (inCall.published.symm.trans cleared) inCall.some_
  | attached request =>
      rw [position] at staged
      obtain ⟨eventAttrs, inCall⟩ := staged
      exact absurd (inCall.published.symm.trans cleared) inCall.some_
  | genericDisabled =>
      rw [position] at staged
      exact absurd cleared staged.2
  | countersDisabled =>
      rw [position] at staged
      exact absurd cleared staged.2

theorem Ready.moved {thread : Thread} (ready : Ready state buffer thread)
    (control : next.control = state.control) (background : next.background = state.background)
    (served : thread = .registered → Served state buffer → Served next buffer)
    (current : thread = .registered → Current state buffer → Current next buffer) :
    Ready next buffer thread := by
  cases thread with
  | registered =>
      rw [Ready, Covered] at ready
      rw [Ready, Covered, background, control]
      cases stage : state.background with
      | published request eventAttrs => trivial
      | building request eventAttrs buffers remaining perfEventSets =>
          rw [stage] at ready
          exact ready.imp_right (current rfl)
      | attached request =>
          rw [stage] at ready
          exact served rfl ready
      | _ =>
          rw [stage] at ready
          exact fun recording => served rfl (ready recording)
  | snapped generation eventAttrs =>
      rw [Ready, InTime] at ready
      rw [Ready, InTime, background, control]
      exact ready
  | built perfEventSet =>
      rw [Ready, InTime] at ready
      rw [Ready, InTime, background, control]
      exact ready
  | _ => trivial

theorem Inv.setThread (inv : Inv state) {earlier thread : Thread}
    (position : state.threads buffer = earlier) (known : earlier ≠ .unregistered)
    (running : earlier.hasExited = false) (stays : thread ≠ .unregistered)
    (holds : Holds thread) (ready : Ready state buffer thread) :
    Inv (state.setThread buffer thread) where
  counting := inv.counting
  listed := by
    intro other
    by_cases same : other = buffer
    · subst other
      rw [state.threads_setThread]
      exact iff_of_true ((inv.listed buffer).mpr (position ▸ known)) stays
    · rw [state.threads_setThread_of_ne _ same]
      exact inv.listed other
  ordered := by
    refine inv.ordered.imp ?_
    intro newer older exited same
    by_cases self : older = buffer
    · subst older
      have exited' := exited same
      rw [position, running] at exited'
      cases exited'
    · rw [state.threads_setThread_of_ne _ self]
      exact exited same
  entries := inv.entries
  holds := by
    intro other
    by_cases same : other = buffer
    · subst other
      rw [state.threads_setThread]
      exact holds
    · rw [state.threads_setThread_of_ne _ same]
      exact inv.holds other
  ready := by
    intro other
    by_cases same : other = buffer
    · subst other
      rw [state.threads_setThread]
      exact ready
    · rw [state.threads_setThread_of_ne _ same]
      exact inv.ready other
  snapshot := inv.snapshot

theorem Inv.moved (inv : Inv state) (outside : SameOutside state next) (entries : Entries next)
    (served : ∀ other, state.threads other = .registered → Served state other → Served next other)
    (current : ∀ other, state.threads other = .registered →
      Current state other → Current next other) : Inv next where
  counting := by
    rw [outside.control, outside.background]
    exact inv.counting
  listed := by
    rw [outside.buffers, outside.threads]
    exact inv.listed
  ordered := by
    rw [outside.buffers, outside.threads, outside.tid]
    exact inv.ordered
  entries := entries
  holds := by
    rw [outside.threads]
    exact inv.holds
  ready := by
    intro other
    rw [outside.threads]
    refine (inv.ready other).moved outside.control outside.background ?_ ?_
    · exact fun registered => served other registered
    · exact fun registered => current other registered
  snapshot := by
    have snapshot := inv.snapshot
    rw [outside.background]
    cases stage : state.background with
    | building request eventAttrs buffers remaining perfEventSets =>
        rw [stage, Snapshot] at snapshot
        rw [Snapshot, outside.buffers, outside.control, outside.tid]
        exact snapshot
    | _ => trivial

theorem Inv.snap (inv : Inv state) (staged : Staged state.control state.background)
    (position : state.threads buffer = .pushed) : Inv (stepSnap state buffer) := by
  rw [stepSnap]
  split
  · rename_i empty
    exact inv.setThread position Thread.noConfusion rfl Thread.noConfusion trivial
      (covered_of_cleared inv staged (List.isEmpty_iff.mp empty) buffer)
  · rename_i published
    refine inv.setThread position Thread.noConfusion rfl Thread.noConfusion
      (mt List.isEmpty_iff.mpr published) ?_
    rw [Ready, InTime]
    cases state.background with
    | building request eventAttrs buffers remaining perfEventSets => exact .inr rfl
    | _ => trivial

theorem Inv.buildOwn (inv : Inv state) {generation : Nat} {eventAttrs : List PerfEventAttr}
    (position : state.threads buffer = .snapped generation eventAttrs) {opens : Bool}
    (allowed : opens = true ∨ Covered state buffer) :
    Inv (stepBuildOwn state buffer opens generation eventAttrs) := by
  have some_ : eventAttrs ≠ [] := by
    have holds := inv.holds buffer
    rw [position] at holds
    exact holds
  have ready := inv.ready buffer
  rw [position] at ready
  have positive := List.length_pos_iff.mpr some_
  rw [stepBuildOwn]
  cases opens with
  | true =>
      rw [size_buildPerfEvents, if_pos rfl]
      refine inv.setThread position Thread.noConfusion rfl Thread.noConfusion ?_ ready
      rw [Holds, size_buildPerfEvents]
      exact positive
  | false =>
      have incomplete : (buildPerfEvents false eventAttrs generation (state.tid buffer)).size ≠
          eventAttrs.length := positive.ne
      rw [if_neg incomplete]
      exact inv.setThread position Thread.noConfusion rfl Thread.noConfusion trivial
        (allowed.resolve_left Bool.false_ne_true)

theorem deactivateSets_outside (state : State) (inert : List Nat) :
    SameOutside state (deactivateSets state inert) := ⟨rfl, rfl, rfl, rfl, rfl, rfl⟩

theorem Inv.stored (inv : Inv state) {perfEventSet : PerfEventSet}
    (position : state.threads buffer = .built perfEventSet)
    (own : perfEventSet.tid = state.tid buffer) (inert : List Nat) :
    Inv ((deactivateSets (store state buffer perfEventSet) inert).setThread buffer .registered) := by
  have some_ : 0 < perfEventSet.size := by
    have holds := inv.holds buffer
    rw [position] at holds
    exact holds
  have running : (state.threads buffer).hasExited = false := by
    rw [position]
    rfl
  have listed := (inv.listed buffer).mpr (by simp [position])
  have apart : ∀ other, state.threads other = .registered → state.tid other ≠ state.tid buffer := by
    intro other registered
    refine inv.tid_ne listed ((inv.listed other).mpr (by simp [registered])) ?_ running ?_
    · rintro rfl
      cases position.symm.trans registered
    · rw [registered]
      rfl
  have same := deactivateSets_same (store state buffer perfEventSet) inert
  have switched := deactivateSets_outside (store state buffer perfEventSet) inert
  have storing : SameOutside state (store state buffer perfEventSet) :=
    ⟨rfl, rfl, rfl, rfl, rfl, rfl⟩
  have outside := storing.trans switched
  have moved : Inv (deactivateSets (store state buffer perfEventSet) inert) := by
    refine inv.moved outside (same.entries (store_entries inv.entries some_)) ?_ ?_
    · intro other registered served
      exact same.served switched (served.stays own (apart other registered))
    · intro other registered current
      exact same.current switched (current.stays inv.entries own (apart other registered))
  have position' := (congrFun outside.threads buffer).trans position
  refine moved.setThread position' Thread.noConfusion rfl Thread.noConfusion trivial ?_
  obtain ⟨pointed, found, cell⟩ := store_new own
  have served : Served (deactivateSets (store state buffer perfEventSet) inert) buffer :=
    same.served switched ⟨_, pointed, found⟩
  have ready := inv.ready buffer
  rw [position, Ready, InTime] at ready
  rw [Ready, Covered, outside.background]
  cases stage : state.background with
  | published request eventAttrs => trivial
  | building request eventAttrs buffers remaining perfEventSets =>
      rw [stage] at ready
      refine ready.imp_right fun now => same.current switched ⟨_, pointed, found, ?_⟩
      rw [cell, now]
      exact Nat.le_refl _
  | attached request => exact served
  | _ => exact fun _ => served

theorem Inv.attach (inv : Inv state) (staged : Staged state.control state.background)
    {perfEventSet : PerfEventSet} (position : state.threads buffer = .built perfEventSet)
    (allowed : (∀ other, state.threads buffer = .built other → supersedes state other = true) ∨
      Covered state buffer)
    {attached : State × Option Nat}
    (done : attachUnsafe state buffer perfEventSet = some attached) :
    Inv ((deactivateSets attached.1 attached.2.toList).setThread buffer .registered) := by
  obtain ⟨own, ⟨kept, same⟩ | ⟨-, -, stored⟩⟩ := attachUnsafe_cases done
  · have covered : Covered state buffer := by
      rcases kept with cleared | older
      · exact covered_of_cleared inv staged cleared buffer
      · refine allowed.resolve_left fun newer => ?_
        exact absurd (older.symm.trans (newer perfEventSet position)) Bool.false_ne_true
    rw [same]
    exact inv.setThread position Thread.noConfusion rfl Thread.noConfusion trivial covered
  · rw [stored]
    exact inv.stored position own _

theorem Inv.exit (inv : Inv state) (position : state.threads buffer = .registered) :
    Inv (state.setThread buffer .exited) :=
  inv.setThread position Thread.noConfusion rfl Thread.noConfusion trivial trivial

theorem Inv.ne_of_listed (inv : Inv state) (position : state.threads buffer = .unregistered)
    (listed : other ∈ state.buffers) : other ≠ buffer := by
  rintro rfl
  exact (inv.listed other).mp listed position

/-- The `tid` of a new thread is that of an exited one, if of any. -/
theorem Inv.ordered_push (inv : Inv state) {tid : Nat}
    (position : state.threads buffer = .unregistered) (free : isFree state tid = true) :
    (stepPush state buffer tid).buffers.Pairwise fun newer older =>
      (stepPush state buffer tid).tid newer = (stepPush state buffer tid).tid older →
        ((stepPush state buffer tid).threads older).hasExited = true := by
  refine List.pairwise_cons.mpr ⟨?_, inv.ordered.imp_of_mem ?_⟩
  · intro older listed same
    have different := inv.ne_of_listed position listed
    rw [tid_stepPush, tid_stepPush_of_ne state tid different] at same
    rw [threads_stepPush_of_ne state tid different]
    have either := List.all_eq_true.mp free older listed
    simpa [same] using either
  · intro newer older listed listed' exited same
    have different := inv.ne_of_listed position listed
    have different' := inv.ne_of_listed position listed'
    rw [tid_stepPush_of_ne state tid different, tid_stepPush_of_ne state tid different'] at same
    rw [threads_stepPush_of_ne state tid different']
    exact exited same

theorem Inv.snapshot_push (inv : Inv state) (tid : Nat)
    (position : state.threads buffer = .unregistered) :
    Snapshot (stepPush state buffer tid) state.background := by
  have snapshot := inv.snapshot
  cases stage : state.background with
  | building request eventAttrs buffers remaining perfEventSets =>
      rw [stage, Snapshot] at snapshot
      obtain ⟨suffix, done, split, sets⟩ := snapshot
      refine ⟨suffix.trans (List.suffix_cons _ _), done, split, sets.trans ?_⟩
      refine List.map_congr_left fun other inside => ?_
      have listed : other ∈ state.buffers :=
        suffix.subset (split ▸ List.mem_append_left remaining inside)
      rw [tid_stepPush_of_ne state tid (inv.ne_of_listed position listed)]
      rfl
  | _ => trivial

theorem Inv.push (inv : Inv state) {tid : Nat} (position : state.threads buffer = .unregistered)
    (free : isFree state tid = true) : Inv (stepPush state buffer tid) where
  counting := inv.counting
  listed := by
    intro other
    by_cases same : other = buffer
    · subst other
      rw [threads_stepPush]
      exact iff_of_true List.mem_cons_self Thread.noConfusion
    · rw [threads_stepPush_of_ne state tid same, ← inv.listed other]
      exact List.mem_cons.trans (or_iff_right same)
  ordered := inv.ordered_push position free
  entries := inv.entries
  holds := by
    intro other
    by_cases same : other = buffer
    · subst other
      rw [threads_stepPush]
      trivial
    · rw [threads_stepPush_of_ne state tid same]
      exact inv.holds other
  ready := by
    intro other
    by_cases same : other = buffer
    · subst other
      rw [threads_stepPush]
      trivial
    · rw [threads_stepPush_of_ne state tid same]
      refine (inv.ready other).moved rfl rfl ?_ ?_
      · intro _ served
        rw [Served, tid_stepPush_of_ne state tid same]
        exact served
      · intro _ current
        rw [Current, tid_stepPush_of_ne state tid same]
        exact current
  snapshot := inv.snapshot_push tid position

end Threads

section Calls

variable {state next : State} {buffer : Nat}

theorem ready_of_idle {thread : Thread} (idle : next.background = .idle)
    (served : thread = .registered → Recording next.control → Served next buffer) :
    Ready next buffer thread := by
  cases thread with
  | registered =>
      rw [Ready, Covered, idle]
      exact served rfl
  | snapped generation eventAttrs =>
      rw [Ready, InTime, idle]
      trivial
  | built perfEventSet =>
      rw [Ready, InTime, idle]
      trivial
  | _ => trivial

theorem Inv.served (inv : Inv state) (idle : state.background = .idle)
    (registered : state.threads buffer = .registered) (recording : Recording state.control) :
    Served state buffer := by
  have ready := inv.ready buffer
  rw [registered, Ready, Covered, idle] at ready
  exact ready recording

theorem Inv.setControl (inv : Inv state) {control : Control} (idle : state.background = .idle)
    (kept : (Recording control → Recording state.control) ∧ Counting control .idle) :
    Inv { state with control := control } where
  counting := by
    rw [idle]
    exact kept.2
  listed := inv.listed
  ordered := inv.ordered
  entries := inv.entries
  holds := inv.holds
  ready := by
    intro buffer
    refine ready_of_idle idle fun registered recording => ?_
    exact inv.served idle registered (kept.1 recording)
  snapshot := by
    rw [idle]
    trivial

theorem Inv.enablePerfEvents (inv : Inv state) (idle : state.background = .idle)
    (request : PMUCtlRequest) : Inv (stepEnable state request) := by
  rcases @inCall_of_stepEnable state request with refused | ⟨eventAttrs, accepted, inCall⟩
  · rw [refused]
    exact ⟨inv.counting, inv.listed, inv.ordered, inv.entries, inv.holds, inv.ready, inv.snapshot⟩
  · have counting := inv.counting
    rw [idle] at counting
    have silent : ¬Recording state.control := by
      intro recording
      exact absurd (inCall.off.symm.trans (counting.1 recording)) Bool.false_ne_true
    rw [accepted]
    refine ⟨silent, inv.listed, inv.ordered, inv.entries, inv.holds, ?_, trivial⟩
    intro buffer
    cases state.threads buffer with
    | _ => trivial

theorem Inv.readHead (inv : Inv state) {request : PMUCtlRequest}
    {eventAttrs : List PerfEventAttr} (position : state.background = .published request eventAttrs) :
    Inv { state with
      background := .building request eventAttrs state.buffers state.buffers [] } := by
  have counting := inv.counting
  rw [position] at counting
  refine ⟨counting, inv.listed, inv.ordered, inv.entries, inv.holds, ?_, List.suffix_rfl, [], rfl,
    rfl⟩
  intro buffer
  have listed := (inv.listed buffer).mpr
  cases thread : state.threads buffer with
  | registered => exact .inl (listed (by simp [thread]))
  | snapped generation eventAttrs => exact .inl (listed (by simp [thread]))
  | built perfEventSet => exact .inl (listed (by simp [thread]))
  | _ => trivial

theorem Inv.build (inv : Inv state) (staged : Staged state.control state.background)
    {request : PMUCtlRequest} {eventAttrs : List PerfEventAttr} {buffers remaining : List Nat}
    {perfEventSets : List PerfEventSet} (position : state.background =
      .building request eventAttrs buffers (buffer :: remaining) perfEventSets) (opens : Bool) :
    Inv (stepBuild state opens request eventAttrs buffers buffer remaining perfEventSets) := by
  have counting := inv.counting
  have snapshot := inv.snapshot
  rw [position] at staged counting snapshot
  have inCall : InCall state.control request eventAttrs := staged
  rw [stepBuild_cases inCall.some_]
  cases opens with
  | true =>
      obtain ⟨suffix, done, split, sets⟩ := snapshot
      rw [if_pos rfl]
      refine ⟨counting, inv.listed, inv.ordered, inv.entries, inv.holds, ?_, suffix,
        done ++ [buffer], ?_, ?_⟩
      · intro other
        have ready := inv.ready other
        dsimp only
        cases thread : state.threads other with
        | registered =>
            rw [thread, Ready, Covered, position] at ready
            exact ready
        | snapped generation eventAttrs =>
            rw [thread, Ready, InTime, position] at ready
            exact ready
        | built perfEventSet =>
            rw [thread, Ready, InTime, position] at ready
            exact ready
        | _ => trivial
      · rw [split, List.append_assoc, List.singleton_append]
      · rw [List.map_append, sets]
        rfl
  | false =>
      rw [if_neg Bool.false_ne_true]
      refine ⟨⟨fun recording => absurd recording counting, fun on => ?_⟩, inv.listed, inv.ordered,
        inv.entries, inv.holds, fun other => ?_, trivial⟩
      · exact absurd (inCall.off.symm.trans on) Bool.false_ne_true
      · exact ready_of_idle rfl fun _ recording => absurd recording counting

theorem Inv.attachAll (inv : Inv state) (staged : Staged state.control state.background)
    {request : PMUCtlRequest} {eventAttrs : List PerfEventAttr} {buffers : List Nat}
    {perfEventSets : List PerfEventSet}
    (position : state.background = .building request eventAttrs buffers [] perfEventSets)
    (allowed : Allowed state .attachAll)
    (taken : attachAll state buffers perfEventSets = some next) :
    Inv { next with background := .attached request } := by
  have counting := inv.counting
  have snapshot := inv.snapshot
  rw [position] at staged counting snapshot
  have inCall : InCall state.control request eventAttrs := staged
  obtain ⟨suffix, done, split, sets⟩ := snapshot
  rw [List.append_nil] at split
  subst done
  have outside := attachAll_outside taken
  have published : state.control.pmu.activeEventAttrs ≠ [] := inCall.published ▸ inCall.some_
  rw [sets] at taken
  obtain ⟨entries, current, found⟩ := attachAll_current inCall.some_ inv.entries published rfl rfl
    (inv.ordered.sublist suffix.sublist)
    (allowed request eventAttrs buffers perfEventSets position) taken
  constructor
  · rw [outside.control]
    exact counting
  · rw [outside.buffers, outside.threads]
    exact inv.listed
  · rw [outside.buffers, outside.threads, outside.tid]
    exact inv.ordered
  · exact entries
  · rw [outside.threads]
    exact inv.holds
  · intro buffer
    have ready := inv.ready buffer
    dsimp only
    rw [outside.threads]
    cases thread : state.threads buffer with
    | registered =>
        rw [thread, Ready, Covered, position] at ready
        rcases ready with inside | now
        · exact (found buffer inside (by rw [thread]; rfl)).served
        · exact (current buffer now).served
    | _ => trivial
  · trivial

theorem Inv.enabled (inv : Inv state) (staged : Staged state.control state.background)
    {request : PMUCtlRequest} (position : state.background = .attached request)
    {control : Control} (counted : enableCounters state.control request = some control)
    (returned : Option Bool) :
    Inv { state with control := control, background := .idle, returned := returned } := by
  rw [position] at staged
  obtain ⟨eventAttrs, inCall⟩ := staged
  have on : control.pmu.perfEventsEnabled = true := by rw [(enableCounters_cases counted).2]
  refine ⟨⟨fun _ => on, fun _ => counting_enableCounters inCall counted⟩, inv.listed, inv.ordered,
    inv.entries, inv.holds, ?_, trivial⟩
  intro buffer
  refine ready_of_idle rfl fun registered _ => ?_
  have ready := inv.ready buffer
  rw [registered, Ready, Covered, position] at ready
  exact ready

theorem Inv.disablePMU (inv : Inv state) (idle : state.background = .idle) :
    Inv (stepDisablePMU state) := by
  have counting := inv.counting
  rw [idle] at counting
  rw [stepDisablePMU]
  split
  · rename_i on
    obtain ⟨kept, counted⟩ := counting_disableGenericPmc counting on
    refine ⟨counted, inv.listed, inv.ordered, inv.entries, inv.holds, ?_, trivial⟩
    intro buffer
    dsimp only
    cases thread : state.threads buffer with
    | registered => exact fun recording => inv.served idle thread (kept recording)
    | _ => trivial
  · rename_i off
    have counted := counting_disablePMU counting (Bool.eq_false_iff.mpr off)
    refine inv.setControl idle ⟨fun recording => ?_, counted⟩
    have same := (sameEvents_disableGenericPmc state.control).trans (sameEvents_disableFixedPmc _)
    exact absurd (same.enabled.symm.trans (counted.1 recording)) off

theorem Inv.disableFixedPmc (inv : Inv state) (position : state.background = .genericDisabled) :
    Inv { state with
      control := state.control.disableFixedPmc
      background := .countersDisabled } := by
  have counting := inv.counting
  rw [position] at counting
  have silent := counting_disableFixedPmc counting
  refine ⟨silent, inv.listed, inv.ordered, inv.entries, inv.holds, ?_, trivial⟩
  intro buffer
  dsimp only
  cases state.threads buffer with
  | registered => exact fun recording => absurd recording silent
  | _ => trivial

theorem Inv.disable (inv : Inv state) (position : state.background = .countersDisabled) :
    Inv (stepDisable state) := by
  have counting := inv.counting
  rw [position] at counting
  refine ⟨⟨fun recording => absurd recording counting, fun on => absurd on Bool.false_ne_true⟩,
    inv.listed, inv.ordered, ?_, inv.holds, ?_, trivial⟩
  · intro tid set found
    rw [stepDisable, AList.lookup_empty] at found
    cases found
  · intro buffer
    exact ready_of_idle rfl fun _ recording => absurd recording counting

end Calls

theorem act_inv {state next : State} {action : Action} (inv : Inv state)
    (staged : Staged state.control state.background) (allowed : Allowed state action)
    (taken : act state action = some next) : Inv next := by
  have effect := effect_of_act taken
  cases action with
  | enableGenericPmc count =>
      obtain ⟨idle, rfl⟩ := effect
      exact inv.setControl idle (counting_enableGenericPmc (idle ▸ inv.counting) count)
  | enableFixedPmc index =>
      obtain ⟨idle, control, accepted, rfl⟩ := effect
      exact inv.setControl idle (counting_enableFixedPmc (idle ▸ inv.counting) accepted)
  | enablePerfEvents request =>
      obtain ⟨idle, rfl⟩ := effect
      exact inv.enablePerfEvents idle request
  | readHead =>
      obtain ⟨request, eventAttrs, position, rfl⟩ := effect
      exact inv.readHead position
  | build opens =>
      obtain ⟨request, eventAttrs, buffers, buffer, remaining, perfEventSets, position, rfl⟩ :=
        effect
      exact inv.build staged position opens
  | attachAll =>
      obtain ⟨request, eventAttrs, buffers, perfEventSets, attached, position, done, rfl⟩ := effect
      exact inv.attachAll staged position allowed done
  | enabled =>
      obtain ⟨request, control, position, counted, rfl⟩ := effect
      exact inv.enabled staged position counted (some true)
  | disablePMU =>
      obtain ⟨idle, rfl⟩ := effect
      exact inv.disablePMU idle
  | disableFixedPmc =>
      obtain ⟨position, rfl⟩ := effect
      exact inv.disableFixedPmc position
  | disable =>
      obtain ⟨position, rfl⟩ := effect
      exact inv.disable position
  | push buffer tid =>
      obtain ⟨position, free, rfl⟩ := effect
      exact inv.push position free
  | snap buffer =>
      obtain ⟨position, rfl⟩ := effect
      exact inv.snap staged position
  | buildOwn buffer opens =>
      obtain ⟨generation, eventAttrs, position, rfl⟩ := effect
      exact inv.buildOwn position allowed
  | attach buffer =>
      obtain ⟨perfEventSet, attached, position, done, rfl⟩ := effect
      exact inv.attach staged position allowed done
  | exit buffer =>
      obtain ⟨position, rfl⟩ := effect
      exact inv.exit position

/--
In every run in which a thread goes on without a set of its own only where it is covered, every
thread that has registered has the active set of its `tid` while perf events are recorded.
-/
theorem registered_served {actions : List Action} {final : State}
    (allowed : Along step Allowed State.initial actions)
    (reached : run step State.initial actions = some final)
    (recording : final.control.recorder.activeRecorderType = .perfEvents) (buffer : Nat)
    (registered : final.threads buffer = .registered) :
    ∃ set, final.perfEvents buffer = some set ∧
      final.activeEvents.lookup (final.tid buffer) = some set := by
  have kept : ∀ state action next, Allowed state action → step state action = some next →
      Staged state.control state.background ∧ Inv state →
        Staged next.control next.background ∧ Inv next := by
    rintro state action next allowed taken ⟨staged, inv⟩
    have quiet : Inv { state with returned := none } := ⟨inv.counting, inv.listed, inv.ordered,
      inv.entries, inv.holds, inv.ready, inv.snapshot⟩
    exact ⟨(step_stepFine staged taken).1, act_inv quiet staged allowed taken⟩
  obtain ⟨-, inv⟩ := run_invariant kept ⟨initial_staged, initial_inv⟩ allowed reached
  have counting := inv.counting
  have ready := inv.ready buffer
  rw [registered, Ready, Covered] at ready
  cases position : final.background with
  | idle =>
      rw [position] at ready
      exact ready recording
  | genericDisabled =>
      rw [position] at ready
      exact ready recording
  | _ =>
      rw [position] at counting
      exact absurd recording counting

/-- Outside of a call that enables, a step that is not allowed leaves a thread without its set. -/
theorem unserved_of_not_allowed {state next : State} {action : Action} (inv : Inv state)
    (between : state.background = .idle ∨ state.background = .genericDisabled)
    (refused : ¬Allowed state action) (taken : act state action = some next) :
    Recording next.control ∧ ∃ buffer, next.threads buffer = .registered ∧ ¬Served next buffer := by
  have unserved : ∀ buffer, ¬Covered state buffer →
      Recording state.control ∧ ¬Served state buffer := by
    intro buffer uncovered
    rw [Covered] at uncovered
    rcases between with idle | disabling
    · rw [idle] at uncovered
      exact Classical.not_imp.mp uncovered
    · rw [disabling] at uncovered
      exact Classical.not_imp.mp uncovered
  have effect := effect_of_act taken
  cases action with
  | buildOwn buffer opens =>
      rw [Allowed, not_or] at refused
      obtain ⟨recording, missing⟩ := unserved buffer refused.2
      obtain ⟨generation, eventAttrs, position, rfl⟩ := effect
      have holds := inv.holds buffer
      rw [position] at holds
      have incomplete : (buildPerfEvents false eventAttrs generation (state.tid buffer)).size ≠
          eventAttrs.length := (List.length_pos_iff.mpr holds).ne
      rw [Bool.eq_false_iff.mpr refused.1, stepBuildOwn, if_neg incomplete]
      exact ⟨recording, buffer, state.threads_setThread buffer _, missing⟩
  | attach buffer =>
      rw [Allowed, not_or] at refused
      obtain ⟨recording, missing⟩ := unserved buffer refused.2
      obtain ⟨perfEventSet, attached, position, done, rfl⟩ := effect
      obtain ⟨own, ⟨-, same⟩ | ⟨-, newer, -⟩⟩ := attachUnsafe_cases done
      · rw [same]
        exact ⟨recording, buffer, state.threads_setThread buffer _, missing⟩
      · refine absurd ?_ refused.1
        intro other position'
        cases position.symm.trans position'
        exact newer
  | attachAll =>
      refine absurd ?_ refused
      intro request eventAttrs buffers perfEventSets position
      rcases between with idle | disabling
      · cases idle.symm.trans position
      · cases disabling.symm.trans position
  | _ => exact absurd trivial refused

def oneThread : List Action :=
  [.push 1 7, .snap 1, .enablePerfEvents (requestOfOne uopsIssued), .readHead, .build true,
    .attachAll, .enabled]

def lateThread : List Action := oneThread ++ [.push 2 8, .snap 2, .buildOwn 2 true, .attach 2]

theorem registered_served_lateThread :
    ∃ final, run step State.initial lateThread = some final ∧
      final.control.recorder.activeRecorderType = .perfEvents ∧ final.threads 2 = .registered ∧
      ∃ set, final.perfEvents 2 = some set ∧
        final.activeEvents.lookup (final.tid 2) = some set := by
  have allowed : Along step Allowed State.initial lateThread := by
    refine ⟨trivial, fun _ taken => ?_⟩
    cases taken
    refine ⟨trivial, fun _ taken => ?_⟩
    cases taken
    refine ⟨trivial, fun _ taken => ?_⟩
    cases taken
    refine ⟨trivial, fun _ taken => ?_⟩
    cases taken
    refine ⟨trivial, fun _ taken => ?_⟩
    cases taken
    refine ⟨fun _ _ _ _ _ _ _ _ _ found => ?_, fun _ taken => ?_⟩
    · cases found
    cases taken
    refine ⟨trivial, fun _ taken => ?_⟩
    cases taken
    refine ⟨trivial, fun _ taken => ?_⟩
    cases taken
    refine ⟨trivial, fun _ taken => ?_⟩
    cases taken
    refine ⟨.inl rfl, fun _ taken => ?_⟩
    cases taken
    refine ⟨.inl fun perfEventSet position => ?_, fun _ _ => trivial⟩
    cases position
    rfl
  exact ⟨_, rfl, rfl, rfl, @registered_served lateThread _ allowed rfl rfl 2 rfl⟩

/-- The events of a late thread cannot be opened, or it has the `tid` of one that has exited. -/
def lateFails : List Action := oneThread ++ [.push 2 8, .snap 2, .buildOwn 2 false]

def tidReused : List Action :=
  oneThread ++ [.exit 1, .push 2 7, .snap 2, .buildOwn 2 true, .attach 2]

theorem registered_unserved :
    (∃ final, run step State.initial lateFails = some final ∧
      final.control.recorder.activeRecorderType = .perfEvents ∧ final.threads 2 = .registered ∧
      final.perfEvents 2 = none) ∧
    ∃ final, run step State.initial tidReused = some final ∧
      final.control.recorder.activeRecorderType = .perfEvents ∧ final.threads 2 = .registered ∧
      final.perfEvents 2 = none :=
  ⟨⟨_, rfl, rfl, rfl, rfl⟩, _, rfl, rfl, rfl, rfl⟩

end Xpedite.PerfSessions
