import Xpedite.Perf.SessionSteps

/-!
What a call of `enablePerfEvents` leaves behind that returns false.  A call that is refused
changes nothing; one that finds a thread whose events cannot be built has published them.
-/

namespace Xpedite.PerfSessions

open Framework Lib

section Controls

/-- A session that has been published and is not enabled yet. -/
structure InCall (control : Control) (request : PMUCtlRequest)
    (eventAttrs : List PerfEventAttr) : Prop where
  off : control.pmu.perfEventsEnabled = false
  published : control.pmu.activeEventAttrs = eventAttrs
  some_ : eventAttrs ≠ []
  built : ∃ eventSet, buildEventSet request = some eventSet ∧
    eventAttrs = buildPerfEventAttrs eventSet

def Staged (control : Control) : Background → Prop
  | .idle => control.pmu.perfEventsEnabled = true → control.pmu.activeEventAttrs ≠ []
  | .published request eventAttrs => InCall control request eventAttrs
  | .building request eventAttrs _ _ _ => InCall control request eventAttrs
  | .attached request => ∃ eventAttrs, InCall control request eventAttrs
  | .genericDisabled =>
      control.pmu.perfEventsEnabled = true ∧ control.pmu.activeEventAttrs ≠ []
  | .countersDisabled =>
      control.pmu.perfEventsEnabled = true ∧ control.pmu.activeEventAttrs ≠ []

/-- Whatever counters are on, the same events are published, and enabled or not. -/
structure SameEvents (control next : Control) : Prop where
  attrs : next.pmu.activeEventAttrs = control.pmu.activeEventAttrs
  generation : next.pmu.generation = control.pmu.generation
  enabled : next.pmu.perfEventsEnabled = control.pmu.perfEventsEnabled

theorem SameEvents.trans {first second third : Control} (earlier : SameEvents first second)
    (later : SameEvents second third) : SameEvents first third :=
  ⟨later.attrs.trans earlier.attrs, later.generation.trans earlier.generation,
    later.enabled.trans earlier.enabled⟩

theorem sameEvents_enableGenericPmc (control : Control) (count : UInt8) :
    SameEvents control (control.enableGenericPmc count) := by
  constructor
  · rw [Control.enableGenericPmc_pmu]
  · rw [Control.enableGenericPmc_pmu]
  · rw [Control.enableGenericPmc_pmu]

theorem sameEvents_enableFixedPmc {control next : Control} {index : UInt8}
    (enabled : control.enableFixedPmc index = some next) : SameEvents control next := by
  have pmu := Control.enableFixedPmc_pmu enabled
  constructor
  · rw [pmu]
  · rw [pmu]
  · rw [pmu]

theorem sameEvents_disableGenericPmc (control : Control) :
    SameEvents control control.disableGenericPmc := by
  constructor
  · rw [Control.disableGenericPmc_pmu]
  · rw [Control.disableGenericPmc_pmu]
  · rw [Control.disableGenericPmc_pmu]

theorem sameEvents_disableFixedPmc (control : Control) :
    SameEvents control control.disableFixedPmc := by
  constructor
  · rw [Control.disableFixedPmc_pmu]
  · rw [Control.disableFixedPmc_pmu]
  · rw [Control.disableFixedPmc_pmu]

theorem Staged.idle {control next : Control} (same : SameEvents control next)
    (staged : Staged control .idle) : Staged next .idle := by
  intro enabled
  rw [same.attrs]
  exact staged (same.enabled ▸ enabled)

end Controls

section Calls

variable {state next : State}

theorem inCall_of_stepEnable {request : PMUCtlRequest} :
    (stepEnable state request = { state with before := state.visible, returned := some false }) ∨
      ∃ eventAttrs, stepEnable state request = { state with
          before := state.visible
          control := publishEventAttrs state.control eventAttrs
          background := .published request eventAttrs } ∧
        InCall (publishEventAttrs state.control eventAttrs) request eventAttrs := by
  rw [stepEnable]
  dsimp only
  cases built : buildEventSet request with
  | none => exact .inl rfl
  | some eventSet =>
      dsimp only
      split
      · exact .inl rfl
      · rename_i granted
        simp only [Bool.or_eq_true, List.isEmpty_iff, not_or] at granted
        exact .inr ⟨_, rfl, Bool.eq_false_iff.mpr granted.1, rfl, granted.2, eventSet, built, rfl⟩

/--
A call that has just returned false has changed nothing, and outside of a call a thread
programs events only if they are enabled.
-/
structure FailsCleanly (state : State) : Prop where
  unchanged : state.returned = some false → state.visible = state.before
  programs : state.background = .idle → ∀ buffer,
    (stepSnap state buffer).threads buffer ≠ .registered →
      state.control.pmu.perfEventsEnabled = true

def BuildsAll : Action → Prop
  | .build opens => opens = true
  | _ => True

theorem stepSnap_registered_iff (state : State) (buffer : Nat) :
    (stepSnap state buffer).threads buffer = .registered ↔
      state.control.pmu.activeEventAttrs = [] := by
  rw [stepSnap]
  split
  · rename_i empty
    exact iff_of_true (state.threads_setThread buffer _) (List.isEmpty_iff.mp empty)
  · rename_i published
    refine iff_of_false ?_ (mt List.isEmpty_iff.mpr published)
    rw [state.threads_setThread]
    exact Thread.noConfusion

theorem failsCleanly_of_busy (busy : next.background ≠ .idle) (returned : next.returned = none) :
    FailsCleanly next where
  unchanged := by
    intro false_
    rw [returned] at false_
    cases false_
  programs := fun idle => absurd idle busy

theorem failsCleanly_of_published (returned : next.returned ≠ some false)
    (enabled : next.control.pmu.activeEventAttrs ≠ [] →
      next.control.pmu.perfEventsEnabled = true) : FailsCleanly next where
  unchanged := fun false_ => absurd false_ returned
  programs := fun _ buffer programs => enabled (mt (stepSnap_registered_iff next buffer).mpr programs)

theorem FailsCleanly.published (cleanly : FailsCleanly state) (idle : state.background = .idle)
    (published : state.control.pmu.activeEventAttrs ≠ []) :
    state.control.pmu.perfEventsEnabled = true :=
  cleanly.programs idle 0 (mt (stepSnap_registered_iff state 0).mp published)

theorem FailsCleanly.same (cleanly : FailsCleanly state) (idle : state.background = .idle)
    (same : SameEvents state.control next.control) (returned : next.returned = none) :
    FailsCleanly next := by
  refine failsCleanly_of_published (by simp [returned]) ?_
  rw [same.attrs, same.enabled]
  exact cleanly.published idle

theorem FailsCleanly.congr (cleanly : FailsCleanly state) (control : next.control = state.control)
    (background : next.background = state.background) (returned : next.returned = none) :
    FailsCleanly next where
  unchanged := by
    intro false_
    rw [returned] at false_
    cases false_
  programs := by
    intro idle buffer programs
    rw [control]
    rw [Ne, stepSnap_registered_iff, control] at programs
    exact cleanly.published (background.symm.trans idle) programs

/-- A set that is not complete ends the call, with its events still published. -/
theorem stepBuild_cases {request : PMUCtlRequest} {eventAttrs : List PerfEventAttr}
    (some_ : eventAttrs ≠ []) (opens : Bool) (buffers : List Nat) (buffer : Nat)
    (remaining : List Nat) (perfEventSets : List PerfEventSet) :
    stepBuild state opens request eventAttrs buffers buffer remaining perfEventSets =
      if opens then { state with
        background := .building request eventAttrs buffers remaining (perfEventSets ++
          [buildPerfEvents true eventAttrs state.control.pmu.generation (state.tid buffer)]) }
      else { state with background := .idle, returned := some false } := by
  have positive := List.length_pos_iff.mpr some_
  rw [stepBuild]
  cases opens with
  | true =>
      rw [size_buildPerfEvents]
      exact if_neg (not_not_intro rfl)
  | false => exact if_pos positive.ne

def StepFine (state next : State) (action : Action) : Prop :=
  Staged next.control next.background ∧
    (FailsCleanly state → (FailsCleanly next ↔ BuildsAll action))

theorem stepFine_of_busy {action : Action} (staged : Staged next.control next.background)
    (busy : next.background ≠ .idle) (returned : next.returned = none)
    (builds : BuildsAll action) : StepFine state next action :=
  ⟨staged, fun _ => iff_of_true (failsCleanly_of_busy busy returned) builds⟩

theorem stepFine_of_same {action : Action} (staged : Staged state.control state.background)
    (idle : state.background = .idle) (stays : next.background = .idle)
    (same : SameEvents state.control next.control) (returned : next.returned = none)
    (builds : BuildsAll action) : StepFine state next action := by
  rw [idle] at staged
  rw [StepFine, stays]
  exact ⟨staged.idle same, fun cleanly => iff_of_true (cleanly.same idle same returned) builds⟩

theorem stepFine_enablePerfEvents {request : PMUCtlRequest}
    (staged : Staged state.control state.background) (quiet : state.returned = none) :
    StepFine state (stepEnable state request) (.enablePerfEvents request) := by
  rcases @inCall_of_stepEnable state request with refused | ⟨eventAttrs, accepted, inCall⟩
  · rw [refused]
    refine ⟨staged, fun cleanly => iff_of_true ⟨fun _ => rfl, ?_⟩ trivial⟩
    intro idle buffer programs
    rw [Ne, stepSnap_registered_iff] at programs
    exact cleanly.published idle programs
  · rw [accepted]
    exact stepFine_of_busy inCall Background.noConfusion quiet trivial

/-- The one step that leaves events published though they are not enabled. -/
theorem stepFine_build {request : PMUCtlRequest} {eventAttrs : List PerfEventAttr}
    (inCall : InCall state.control request eventAttrs) (quiet : state.returned = none)
    (opens : Bool) (buffers : List Nat) (buffer : Nat) (remaining : List Nat)
    (perfEventSets : List PerfEventSet) :
    StepFine state (stepBuild state opens request eventAttrs buffers buffer remaining perfEventSets)
      (.build opens) := by
  rw [stepBuild_cases inCall.some_]
  cases opens with
  | true => exact stepFine_of_busy inCall Background.noConfusion quiet rfl
  | false =>
      refine ⟨fun on => absurd (inCall.off.symm.trans on) Bool.false_ne_true, fun _ =>
        iff_of_false ?_ Bool.false_ne_true⟩
      intro cleanly
      have on := cleanly.published rfl (inCall.published ▸ inCall.some_)
      exact absurd (inCall.off.symm.trans on) Bool.false_ne_true

theorem stepFine_disablePMU (staged : Staged state.control state.background)
    (quiet : state.returned = none) (idle : state.background = .idle) :
    StepFine state (stepDisablePMU state) .disablePMU := by
  have generic := sameEvents_disableGenericPmc state.control
  rw [stepDisablePMU]
  split
  · rename_i on
    rw [idle] at staged
    exact stepFine_of_busy ⟨generic.enabled.trans on, generic.attrs ▸ staged on⟩
      Background.noConfusion quiet trivial
  · exact stepFine_of_same staged idle idle (generic.trans (sameEvents_disableFixedPmc _)) quiet
      trivial

theorem act_stepFine {action : Action} (staged : Staged state.control state.background)
    (quiet : state.returned = none) (taken : act state action = some next) :
    StepFine state next action := by
  cases own : action.ofThread with
  | true =>
      obtain ⟨control, background, returned⟩ := threads_outside taken own
      have builds : BuildsAll action := by
        cases action with
        | build opens => cases own
        | _ => trivial
      refine ⟨by rw [control, background]; exact staged, fun cleanly => iff_of_true ?_ builds⟩
      exact cleanly.congr control background (returned.trans quiet)
  | false =>
      have effect := effect_of_act taken
      cases action with
      | enableGenericPmc count =>
          obtain ⟨idle, rfl⟩ := effect
          exact stepFine_of_same staged idle idle (sameEvents_enableGenericPmc _ count) quiet trivial
      | enableFixedPmc index =>
          obtain ⟨idle, control, accepted, rfl⟩ := effect
          exact stepFine_of_same staged idle idle (sameEvents_enableFixedPmc accepted) quiet trivial
      | enablePerfEvents request =>
          obtain ⟨-, rfl⟩ := effect
          exact stepFine_enablePerfEvents staged quiet
      | readHead =>
          obtain ⟨request, eventAttrs, position, rfl⟩ := effect
          rw [position] at staged
          exact stepFine_of_busy staged Background.noConfusion quiet trivial
      | build opens =>
          obtain ⟨request, eventAttrs, buffers, buffer, remaining, perfEventSets, position, rfl⟩ :=
            effect
          rw [position] at staged
          exact stepFine_build staged quiet opens buffers buffer remaining perfEventSets
      | attachAll =>
          obtain ⟨request, eventAttrs, buffers, perfEventSets, attached, position, done, rfl⟩ :=
            effect
          have outside := attachAll_outside done
          rw [position, ← outside.control] at staged
          exact stepFine_of_busy ⟨eventAttrs, staged⟩ Background.noConfusion
            (outside.returned.trans quiet) trivial
      | enabled =>
          obtain ⟨request, control, position, counting, rfl⟩ := effect
          obtain ⟨-, pmu⟩ := enableCounters_cases counting
          rw [position] at staged
          obtain ⟨eventAttrs, inCall⟩ := staged
          refine ⟨fun _ => ?_, fun _ => iff_of_true ?_ trivial⟩
          · rw [pmu]
            exact inCall.published ▸ inCall.some_
          · exact failsCleanly_of_published (by simp) (fun _ => by rw [pmu])
      | disablePMU =>
          obtain ⟨idle, rfl⟩ := effect
          exact stepFine_disablePMU staged quiet idle
      | disableFixedPmc =>
          obtain ⟨position, rfl⟩ := effect
          have same := sameEvents_disableFixedPmc state.control
          rw [position] at staged
          exact stepFine_of_busy ⟨same.enabled.trans staged.1, same.attrs ▸ staged.2⟩
            Background.noConfusion quiet trivial
      | disable =>
          obtain ⟨-, rfl⟩ := effect
          have returned : (stepDisable state).returned = none := quiet
          refine ⟨fun on => absurd on Bool.false_ne_true, fun _ => iff_of_true ?_ trivial⟩
          exact failsCleanly_of_published (by simp [returned]) (fun published => absurd rfl published)
      | _ => cases own

theorem step_stepFine {action : Action} (staged : Staged state.control state.background)
    (taken : step state action = some next) : StepFine state next action := by
  obtain ⟨kept, exact_⟩ :=
    @act_stepFine { state with returned := none } next action staged rfl taken
  exact ⟨kept, fun cleanly => exact_ (cleanly.congr rfl rfl rfl)⟩

end Calls

theorem initial_staged : Staged State.initial.control State.initial.background :=
  fun on => absurd on Bool.false_ne_true

theorem initial_cleanly : FailsCleanly State.initial :=
  failsCleanly_of_published (by simp [State.initial]) (fun published => absurd rfl published)

/--
A call that returns false changes nothing, in the whole of a run, and threads that come later
program no events for it, exactly when the events of every thread it has found can be opened.
-/
theorem failsCleanly_throughout_iff {actions : List Action} {final : State}
    (reached : run step State.initial actions = some final) :
    (∀ earlier later state, actions = earlier ++ later →
        run step State.initial earlier = some state → FailsCleanly state) ↔
      Along step (fun _ action => BuildsAll action) State.initial actions := by
  have kept : ∀ state action next, Staged state.control state.background →
      step state action = some next → Staged next.control next.background := by
    intro state action next staged taken
    exact (step_stepFine staged taken).1
  refine throughout_iff_along_of_invariant kept ?_ initial_staged initial_cleanly reached
  intro state action next staged cleanly taken
  exact (step_stepFine staged taken).2 cleanly

def secondRefused : List Action :=
  [.push 1 7, .snap 1, .enablePerfEvents (requestOfOne uopsIssued), .readHead, .build true,
    .attachAll, .enabled, .enablePerfEvents (requestOfOne uopsIssued)]

theorem failsCleanly_throughout_secondRefused :
    (∃ final, run step State.initial secondRefused = some final ∧ final.returned = some false) ∧
      ∀ earlier later state, secondRefused = earlier ++ later →
        run step State.initial earlier = some state → FailsCleanly state := by
  have builds : ∀ action ∈ secondRefused, BuildsAll action := by
    intro action listed
    simp only [secondRefused, List.mem_cons, List.not_mem_nil, or_false] at listed
    rcases listed with rfl | rfl | rfl | rfl | rfl | rfl | rfl | rfl
    all_goals trivial
  exact ⟨⟨_, rfl, rfl⟩, (@failsCleanly_throughout_iff secondRefused _ rfl).mpr
    (along_of_forall_mem step builds State.initial)⟩

def buildFails : List Action :=
  [.push 1 7, .snap 1, .enablePerfEvents (requestOfOne uopsIssued), .readHead, .build false]

/-- The events are published though not enabled, and a thread that comes later opens them. -/
theorem failsCleanly_fails_at_buildFails :
    (∃ failed, run step State.initial buildFails = some failed ∧ failed.returned = some false ∧
        failed.visible.activeEventAttrs.length = 1 ∧
        failed.before.activeEventAttrs = [] ∧ ¬FailsCleanly failed) ∧
      ∃ later set, run step State.initial
          (buildFails ++ [.push 2 8, .snap 2, .buildOwn 2 true, .attach 2]) = some later ∧
        later.control.pmu.perfEventsEnabled = false ∧ later.perfEvents 2 = some set ∧
        (later.sets.cell set).active = true := by
  refine ⟨⟨_, rfl, rfl, rfl, rfl, ?_⟩, _, 0, rfl, rfl, rfl, rfl⟩
  intro cleanly
  exact absurd (cleanly.published rfl (by decide)) (by decide)

end Xpedite.PerfSessions
