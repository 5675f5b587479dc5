import Xpedite.Framework.Disconnect

/-!
The life of one `Profile`: any of its functions in any order, and what `Profile::stop`
leaves after them.  The set of keys is ordered by `operator<` of `ProbeKey.H`.
-/

namespace Xpedite.Framework

open Lib

def ProbeKey.less (lhs rhs : ProbeKey) : Bool :=
  if lhs.file = rhs.file then
    if lhs.line = rhs.line then lhs.name < rhs.name else lhs.line < rhs.line
  else lhs.file < rhs.file

/-- The set takes two keys for one exactly when they are equal. -/
theorem ProbeKey.incomparable_iff (lhs rhs : ProbeKey) :
    (lhs.less rhs = false ∧ rhs.less lhs = false) ↔ lhs = rhs := by
  constructor
  · rintro ⟨before, after⟩
    have file : lhs.file = rhs.file := by
      by_contra other
      rw [less, if_neg other, decide_eq_false_iff_not] at before
      rw [less, if_neg (Ne.symm other), decide_eq_false_iff_not] at after
      exact other (List.le_antisymm (List.not_lt.mp after) (List.not_lt.mp before))
    have line : lhs.line = rhs.line := by
      by_contra other
      rw [less, if_pos file, if_neg other, decide_eq_false_iff_not] at before
      rw [less, if_pos file.symm, if_neg (Ne.symm other), decide_eq_false_iff_not] at after
      exact other (UInt32.le_antisymm (UInt32.not_lt.mp after) (UInt32.not_lt.mp before))
    have name : lhs.name = rhs.name := by
      rw [less, if_pos file, if_pos line, decide_eq_false_iff_not] at before
      rw [less, if_pos file.symm, if_pos line.symm, decide_eq_false_iff_not] at after
      exact List.le_antisymm (List.not_lt.mp after) (List.not_lt.mp before)
    cases lhs
    cases rhs
    simp_all
  · rintro rfl
    simp [less]

inductive ProfileCall where
  -- with the bytes that are read of the destroyed copy of the name
  | activateProbe (key : ProbeKey) (bytes : List Char)
  | deactivateProbe (key : ProbeKey) (bytes : List Char)
  | enableGpPMU (count : Int)
  | disableGpPMU
  | enableFixedPMU (index : UInt8)
  | disableFixedPMU
  | enablePerfEvents (request : PMUCtlRequest) (builds : Bool)
  | disablePerfEvents
  | disablePMU
  | activateRecorder (recorder dataProbeRecorder : Option Nat)
  | stop

namespace Profile

def disableGpPMU (control : Control) : Control :=
  if control.pmu.genericPmcCount ≠ 0 then control.disableGenericPmc else control

def disableFixedPMU (control : Control) : Control :=
  if control.pmu.fixedPmcSet.size ≠ 0 then control.disableFixedPmc else control

/-- There is no result where the call does not return. -/
def call (state : State) : ProfileCall → Option State
  | .activateProbe key bytes => some (activateProbe state key (key.pointed bytes))
  | .deactivateProbe key bytes => some (deactivateProbe state key (key.pointed bytes))
  | .enableGpPMU count => some (Handler.enableGpPMU state count)
  | .disableGpPMU => some { state with control := disableGpPMU state.control }
  | .enableFixedPMU index =>
      (state.control.enableFixedPmc index).map fun control => { state with control := control }
  | .disableFixedPMU => some { state with control := disableFixedPMU state.control }
  | .enablePerfEvents request builds =>
      (state.control.enablePerfEvents request builds).map fun (control, _) =>
        { state with control := control }
  | .disablePerfEvents => some { state with control := state.control.disablePerfEvents }
  | .disablePMU => some { state with control := state.control.disablePMU }
  | .activateRecorder recorder dataProbeRecorder =>
      some { state with control := { state.control with
        recorder := (activateCustomRecorder state.control.recorder recorder dataProbeRecorder).1 } }
  | .stop => some (stop state)

end Profile

theorem disableGenericPmc_released {control : Control} (released : Released control) :
    Released control.disableGenericPmc := by
  have pmu := control.disableGenericPmc_pmu
  rw [Released, disableGenericPmc_recorder, pmu]
  by_cases fixed : control.pmu.fixedPmcSet.size = 0
  · by_cases generic : control.pmu.genericPmcCount = 0
    · rcases released with positive | idle
      · rw [PmuCtl.readCount, generic, fixed] at positive
        cases positive
      · rw [if_neg (fun both => both.1 generic)]
        exact .inr idle
    · rw [if_pos ⟨generic, fixed⟩]
      exact .inr (.inl rfl)
  · left
    rw [PmuCtl.readCount]
    dsimp only
    omega

theorem disableFixedPmc_released {control : Control} (released : Released control) :
    Released control.disableFixedPmc := by
  have pmu := control.disableFixedPmc_pmu
  rw [Released, disableFixedPmc_recorder, pmu]
  by_cases generic : control.pmu.genericPmcCount = 0
  · by_cases fixed : control.pmu.fixedPmcSet.size = 0
    · rcases released with positive | idle
      · rw [PmuCtl.readCount, generic, fixed] at positive
        cases positive
      · rw [if_neg (fun both => both.1 fixed)]
        exact .inr idle
    · rw [if_pos ⟨fixed, generic⟩]
      exact .inr (.inl rfl)
  · have positive : control.pmu.genericPmcCount.toNat ≠ 0 :=
      fun zero => generic (UInt8.toNat_inj.mp zero)
    left
    rw [PmuCtl.readCount]
    dsimp only
    omega

theorem disablePerfEvents_released {control : Control} (released : Released control) :
    Released control.disablePerfEvents := by
  have counters := disableFixedPmc_released (disableGenericPmc_released released)
  rw [Control.disablePerfEvents]
  dsimp only
  split
  · exact counters
  · exact counters

theorem activateCustomRecorder_released {control : Control} (released : Released control)
    (recorder dataProbeRecorder : Option Nat) :
    Released { control with
      recorder := (activateCustomRecorder control.recorder recorder dataProbeRecorder).1 } := by
  cases recorder with
  | none => exact released
  | some recorder =>
      cases dataProbeRecorder with
      | none => exact released
      | some dataProbeRecorder => exact .inr (.inr rfl)

section Calls

variable {state next : State} {call : ProfileCall}

theorem call_released (released : Released state.control)
    (called : Profile.call state call = some next) : Released next.control := by
  cases call with
  | activateProbe key bytes =>
      cases called
      exact released
  | deactivateProbe key bytes =>
      cases called
      exact released
  | enableGpPMU count =>
      cases called
      exact enableGenericPmc_released _ _ released
  | disableGpPMU =>
      cases called
      simp only [Profile.disableGpPMU]
      split
      · exact disableGenericPmc_released released
      · exact released
  | enableFixedPMU index =>
      obtain ⟨control, accepted, rfl⟩ := Option.map_eq_some_iff.mp called
      exact enableFixedPmc_released accepted
  | disableFixedPMU =>
      cases called
      simp only [Profile.disableFixedPMU]
      split
      · exact disableFixedPmc_released released
      · exact released
  | enablePerfEvents request builds =>
      obtain ⟨⟨control, enables⟩, enabled, rfl⟩ := Option.map_eq_some_iff.mp called
      exact enablePerfEvents_released released enabled
  | disablePerfEvents =>
      cases called
      exact disablePerfEvents_released released
  | disablePMU =>
      cases called
      exact .inr (disablePMU_released _ released)
  | activateRecorder recorder dataProbeRecorder =>
      cases called
      exact activateCustomRecorder_released released recorder dataProbeRecorder
  | stop =>
      cases called
      exact .inr (.inl (stop_expandable released))

/--
A call keeps track of the probes: what it switches on is matched by a key that is known then, and
what it leaves on by one that is still known.
-/
def KeepsTrack (state : State) : ProfileCall → Prop
  | .activateProbe key bytes => ∀ probe ∈ state.probes,
      probe.match (key.pointed bytes) = true →
        ∃ known ∈ state.activeProbes.insert key, probe.match known = true
  | .deactivateProbe key bytes => ∀ probe ∈ state.probes, probe.active = true →
      probe.match (key.pointed bytes) = false →
        ∃ known ∈ state.activeProbes.erase key, probe.match known = true
  | _ => True

theorem call_probes (called : Profile.call state call = some next) :
    next.probes.map Probe.site = state.probes.map Probe.site := by
  have commanded : ∀ command key,
      (probeCtl command key state.probes).map Probe.site = state.probes.map Probe.site := by
    intro command key
    rw [probeCtl_eq, List.map_map]
    refine List.map_congr_left fun probe _ => ?_
    rw [Function.comp_apply]
    split
    · exact command.site_apply probe
    · rfl
  cases call with
  | activateProbe key bytes =>
      cases called
      exact commanded .enable _
  | deactivateProbe key bytes =>
      cases called
      exact commanded .disable _
  | enableFixedPMU index =>
      obtain ⟨control, accepted, rfl⟩ := Option.map_eq_some_iff.mp called
      rfl
  | enablePerfEvents request builds =>
      obtain ⟨⟨control, enables⟩, enabled, rfl⟩ := Option.map_eq_some_iff.mp called
      rfl
  | stop =>
      cases called
      rw [stop_probes, List.map_map]
      refine List.map_congr_left fun probe _ => ?_
      rw [Function.comp_apply]
      split
      · exact Command.disable.site_apply probe
      · rfl
  | enableGpPMU count => cases called; rfl
  | disableGpPMU => cases called; rfl
  | disableFixedPMU => cases called; rfl
  | disablePerfEvents => cases called; rfl
  | disablePMU => cases called; rfl
  | activateRecorder recorder dataProbeRecorder => cases called; rfl

theorem covered_congr (probes : next.probes = state.probes)
    (activeProbes : next.activeProbes = state.activeProbes) : Covered next ↔ Covered state := by
  rw [Covered, Covered, probes, activeProbes]

theorem activateProbe_covered_iff (key pointed : ProbeKey) (patchable : Patchable state)
    (covered : Covered state) :
    Covered (Profile.activateProbe state key pointed) ↔
      ∀ probe ∈ state.probes, probe.match pointed = true →
        ∃ known ∈ state.activeProbes.insert key, probe.match known = true := by
  simp only [Covered, Profile.activateProbe, probeCtl_eq, List.forall_mem_map]
  refine forall₂_congr fun probe listed => ?_
  by_cases matched : probe.match pointed = true
  · rw [if_pos matched]
    simp only [Command.match_apply, matched, true_implies]
    exact forall_prop_of_true (activate_active (patchable probe listed))
  · rw [if_neg matched]
    refine iff_of_true (fun active => ?_) (fun reached => absurd reached matched)
    obtain ⟨known, stored, same⟩ := covered probe listed active
    exact ⟨known, List.mem_insert_of_mem stored, same⟩

theorem deactivateProbe_covered_iff (key pointed : ProbeKey) (patchable : Patchable state) :
    Covered (Profile.deactivateProbe state key pointed) ↔
      ∀ probe ∈ state.probes, probe.active = true → probe.match pointed = false →
        ∃ known ∈ state.activeProbes.erase key, probe.match known = true := by
  simp only [Covered, Profile.deactivateProbe, probeCtl_eq, List.forall_mem_map]
  refine forall₂_congr fun probe listed => ?_
  by_cases matched : probe.match pointed = true
  · rw [if_pos matched]
    refine iff_of_true (fun active => ?_) (fun _ missed => ?_)
    · rw [Command.apply, deactivate_active (patchable probe listed)] at active
      cases active
    · rw [matched] at missed
      cases missed
  · rw [if_neg matched]
    simp only [Bool.not_eq_true _ ▸ matched, true_implies]

theorem stop_covered (patchable : Patchable state) (covered : Covered state) :
    Covered (Profile.stop state) := by
  intro probe listed active
  rw [(stop_inactive_iff patchable).mpr covered probe listed] at active
  cases active

theorem call_covered_iff (patchable : Patchable state) (covered : Covered state)
    (called : Profile.call state call = some next) : Covered next ↔ KeepsTrack state call := by
  have same : ∀ {other : State}, other.probes = state.probes →
      other.activeProbes = state.activeProbes → (Covered other ↔ True) :=
    fun probes activeProbes => (covered_congr probes activeProbes).trans (iff_true_intro covered)
  cases call with
  | activateProbe key bytes =>
      cases called
      exact activateProbe_covered_iff key _ patchable covered
  | deactivateProbe key bytes =>
      cases called
      exact deactivateProbe_covered_iff key _ patchable
  | enableFixedPMU index =>
      obtain ⟨control, accepted, rfl⟩ := Option.map_eq_some_iff.mp called
      exact same rfl rfl
  | enablePerfEvents request builds =>
      obtain ⟨⟨control, enables⟩, enabled, rfl⟩ := Option.map_eq_some_iff.mp called
      exact same rfl rfl
  | stop =>
      cases called
      exact iff_of_true (stop_covered patchable covered) trivial
  | enableGpPMU count => cases called; exact same rfl rfl
  | disableGpPMU => cases called; exact same rfl rfl
  | disableFixedPMU => cases called; exact same rfl rfl
  | disablePerfEvents => cases called; exact same rfl rfl
  | disablePMU => cases called; exact same rfl rfl
  | activateRecorder recorder dataProbeRecorder => cases called; exact same rfl rfl

/-- The copies of the names are destroyed, but their bytes are still there. -/
def Intact : ProfileCall → Prop
  | .activateProbe key bytes => key.name = [] ∨ bytes = key.name
  | .deactivateProbe key bytes => key.name = [] ∨ bytes = key.name
  | _ => True

theorem match_pointed_of_intact {key : ProbeKey} {bytes : List Char}
    (intact : key.name = [] ∨ bytes = key.name) (probe : Probe) :
    probe.match (key.pointed bytes) = probe.match key := by
  rcases intact with nameless | rfl
  · rw [ProbeKey.pointed_nameless nameless]
  · exact probe.match_pointed key

theorem keepsTrack_of_intact (covered : Covered state) (intact : Intact call) :
    KeepsTrack state call := by
  cases call with
  | activateProbe key bytes =>
      intro probe _ matched
      rw [match_pointed_of_intact intact] at matched
      exact ⟨key, List.mem_insert_self, matched⟩
  | deactivateProbe key bytes =>
      intro probe listed active missed
      rw [match_pointed_of_intact intact] at missed
      obtain ⟨known, stored, matched⟩ := covered probe listed active
      have other : known ≠ key := by
        rintro rfl
        rw [matched] at missed
        cases missed
      exact ⟨known, (List.mem_erase_of_ne other).mpr stored, matched⟩
  | enableGpPMU count => trivial
  | disableGpPMU => trivial
  | enableFixedPMU index => trivial
  | disableFixedPMU => trivial
  | enablePerfEvents request builds => trivial
  | disablePerfEvents => trivial
  | disablePMU => trivial
  | activateRecorder recorder dataProbeRecorder => trivial
  | stop => trivial

/-- As long as the bytes of the names are there, a profile keeps track. -/
theorem along_keepsTrack_of_intact {calls : List ProfileCall}
    (intact : ∀ call ∈ calls, Intact call) (patchable : Patchable state)
    (covered : Covered state) : Along Profile.call KeepsTrack state calls := by
  induction calls generalizing state with
  | nil => trivial
  | cons call calls ih =>
      have keeps := keepsTrack_of_intact covered (intact call List.mem_cons_self)
      refine ⟨keeps, fun next called => ?_⟩
      exact ih (fun later inside => intact later (List.mem_cons_of_mem call inside))
        (patchable.of_sites (call_probes called))
        ((call_covered_iff patchable covered called).mpr keeps)

end Calls

/-- The one call that may not return is that for a fixed counter the processor does not have. -/
theorem isSome_call_iff (state : State) (call : ProfileCall) :
    (Profile.call state call).isSome = true ↔ ∀ index, call = .enableFixedPMU index → index < 3 := by
  cases call with
  | enableFixedPMU index =>
      simp only [Profile.call, Control.enableFixedPmc, Option.isSome_map,
        ProfileCall.enableFixedPMU.injEq, forall_eq']
      exact FixedPmcSet.isSome_enable _ index
  | enablePerfEvents request builds =>
      refine iff_of_true ?_ (fun _ other => by cases other)
      simp only [Profile.call, Option.isSome_map]
      rcases state.control.enablePerfEvents_cases request builds with
        ⟨-, next, result, -⟩ | ⟨-, pmu, result, -⟩
      · rw [result]
        rfl
      · rw [result]
        rfl
  | activateProbe key bytes => exact iff_of_true rfl (fun _ other => by cases other)
  | deactivateProbe key bytes => exact iff_of_true rfl (fun _ other => by cases other)
  | enableGpPMU count => exact iff_of_true rfl (fun _ other => by cases other)
  | disableGpPMU => exact iff_of_true rfl (fun _ other => by cases other)
  | disableFixedPMU => exact iff_of_true rfl (fun _ other => by cases other)
  | disablePerfEvents => exact iff_of_true rfl (fun _ other => by cases other)
  | disablePMU => exact iff_of_true rfl (fun _ other => by cases other)
  | activateRecorder recorder dataProbeRecorder =>
      exact iff_of_true rfl (fun _ other => by cases other)
  | stop => exact iff_of_true rfl (fun _ other => by cases other)

theorem isSome_run_call_iff (state : State) (calls : List ProfileCall) :
    (run Profile.call state calls).isSome = true ↔
      ∀ index, .enableFixedPMU index ∈ calls → index < 3 := by
  rw [run_eq_foldlM, isSome_foldlM_iff isSome_call_iff]
  constructor
  · intro fine index listed
    exact fine _ listed index rfl
  · rintro small _ listed index rfl
    exact small index listed

structure SwitchedOff (state : State) : Prop where
  probes : ∀ probe ∈ state.probes, probe.active = false
  pmcCount : state.control.pmu.pmcCount = 0
  recorder : state.control.recorder.activeRecorderType = .expandable

theorem stop_switchedOff_iff {state : State} (patchable : Patchable state)
    (released : Released state.control) :
    SwitchedOff (Profile.stop state) ↔ Covered state := by
  rw [← stop_atRest_iff patchable released]
  constructor
  · intro off
    refine ⟨off.probes, off.pmcCount, ?_, off.recorder⟩
    rw [stop_pmu, Control.disablePMU_pmu]
  · intro rest
    exact ⟨rest.probes, rest.pmcCount, rest.recorder⟩

/--
Whatever a profile was told to do, stopping it switches all of it off, at any time, exactly when
every call keeps track of the probes it reaches.
-/
theorem stop_switches_off_iff {state final : State} {calls : List ProfileCall}
    (inactive : ∀ probe ∈ state.probes, probe.active = false)
    (patchable : ∀ probe ∈ state.probes, probe.patchable = true)
    (expandable : state.control.recorder = activateRecorder .expandable)
    (called : run Profile.call state calls = some final) :
    (∀ earlier later reached, calls = earlier ++ later →
        run Profile.call state earlier = some reached → SwitchedOff (Profile.stop reached)) ↔
      Along Profile.call KeepsTrack state calls := by
  have covered : Covered state := by
    intro probe listed active
    rw [inactive probe listed] at active
    cases active
  have released : Released state.control := .inr (.inl (by rw [expandable]; rfl))
  have kept : ∀ before call after, Patchable before ∧ Released before.control →
      Profile.call before call = some after → Patchable after ∧ Released after.control :=
    fun before call after both taken =>
      ⟨both.1.of_sites (call_probes taken), call_released both.2 taken⟩
  rw [← throughout_iff_along_of_invariant kept
    (fun before call after both holds taken => call_covered_iff both.1 holds taken)
    ⟨patchable, released⟩ covered called]
  refine forall₅_congr fun earlier later reached split stops => ?_
  obtain ⟨stillPatchable, stillReleased⟩ := run_keeps kept ⟨patchable, released⟩ stops
  exact stop_switchedOff_iff stillPatchable stillReleased

def overlappingCalls : List ProfileCall :=
  [.activateProbe ⟨"Order".toList, [], 0⟩ "Order".toList,
    .activateProbe ⟨[], "order.cpp".toList, 0⟩ [], .enableGpPMU 2, .enableFixedPMU 1,
    .deactivateProbe ⟨"Order".toList, [], 0⟩ "Order".toList,
    .activateProbe ⟨"Order".toList, [], 0⟩ "Order".toList]

theorem stop_switches_off_overlapping :
    ∃ reached, run Profile.call (State.new [orderProbe]) overlappingCalls = some reached ∧
      reached.probes = [{ orderProbe with active := true }] ∧ reached.control.pmu.pmcCount = 3 ∧
      SwitchedOff (Profile.stop reached) := by
  have inactive : ∀ probe ∈ (State.new [orderProbe]).probes, probe.active = false := by decide
  have patchable : ∀ probe ∈ (State.new [orderProbe]).probes, probe.patchable = true := by decide
  have intact : ∀ call ∈ overlappingCalls, Intact call := by
    simp [overlappingCalls, Intact]
  have along := @along_keepsTrack_of_intact (State.new [orderProbe]) overlappingCalls intact
    patchable (by decide)
  refine ⟨_, rfl, by decide, by decide, ?_⟩
  exact (@stop_switches_off_iff (State.new [orderProbe]) _ overlappingCalls inactive patchable rfl
    rfl).mpr along overlappingCalls [] _ (List.append_nil _).symm rfl

/--
The copy of the name still reads as it did when the probe is activated, and is overwritten when
it is deactivated: the key is forgotten and the probe stays on.
-/
theorem stop_leaves_order_active :
    ∃ reached, run Profile.call (State.new [orderProbe])
        [.activateProbe ⟨"Order".toList, [], 0⟩ "Order".toList,
          .deactivateProbe ⟨"Order".toList, [], 0⟩ []] = some reached ∧
      reached.activeProbes = [] ∧
      (Profile.stop reached).probes = [{ orderProbe with active := true }] ∧
      ¬SwitchedOff (Profile.stop reached) := by
  refine ⟨_, rfl, by decide, by decide, ?_⟩
  intro off
  exact absurd (off.probes { orderProbe with active := true } List.mem_cons_self) (by decide)

end Xpedite.Framework
