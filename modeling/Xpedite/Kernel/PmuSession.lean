import Xpedite.Kernel.PmuArch
import Xpedite.Kernel.PmuDeviceCore

/-!
A session with the device of the kernel module: it is opened, requests are written, and it is
released.  What a session leaves behind on a cpu depends on whether the cpu is remembered.
-/

namespace Xpedite.Kernel

open Xpedite.Lib
open Xpedite.Framework (PMUCtlRequest)

theorem length_offcoreEvtSel {request : PMUCtlRequest} {eventSet : Framework.EventSet}
    (built : Framework.buildEventSet request = some eventSet) :
    eventSet.offcoreEvtSel.length ≤ offcoreEventMax := by
  rw [Framework.buildEventSet] at built
  split at built
  · cases built
  · split at built
    · cases built
    · split at built
      · cases built
      · obtain ⟨mask, _, rfl⟩ := Option.map_eq_some_iff.mp built
        exact List.length_take_le' _ _

theorem lengths_of_buildEventSet {request : PMUCtlRequest} {eventSet : EventSet}
    (built : buildEventSet request = some eventSet) :
    eventSet.gpEvtSel.length = request.gpEvtCount.toNat ∧
      eventSet.gpEvtSel.length ≤ gpEventMax ∧ eventSet.offcoreEvtSel.length ≤ offcoreEventMax := by
  obtain ⟨bits, made, rfl⟩ := Option.map_eq_some_iff.mp built
  have accepted := Framework.Control.accepted_of_buildEventSet made
  have count : (wordsOf bits).gpEvtSel.length = request.gpEvtCount.toNat := by
    simp only [wordsOf, List.length_map, accepted.gp,
      Framework.Control.length_firstOf request.gpEvents accepted.gpFew]
  exact ⟨count, count.trans_le accepted.gpFew, length_offcoreEvtSel made⟩

def idleDriver : Driver where
  mutexLocked := false
  activeCpuSet := fun _ => false
  gpEvtCount := 0
  cpus := fun _ => ⟨fun _ => 0, 0, []⟩

def requestFor (cpu gpEvtCount : UInt8) : Write where
  len := sizeofRequest
  request := some {
    cpu := cpu
    fixedEvtCount := 0
    gpEvtCount := gpEvtCount
    offcoreEvtCount := 1
    fixedEvents := fun _ => ⟨0, 0, 0⟩
    gpEvents := fun _ => ⟨0x3C, 0, 1, 1, 0, 0, 0, 0⟩
    offcoreEvents := fun _ => 0x10001 }
  online := fun _ => true
  called := true

section Session

variable (nrCpuIds : Nat) (fails : Nat → Failures)

def Write.programs (write : Write) : Option (PMUCtlRequest × EventSet) :=
  if write.len = sizeofRequest then
    write.request.bind fun request =>
      if request.cpu.toNat < nrCpuIds ∧ write.online request.cpu.toNat ∧ write.called then
        (buildEventSet request).map fun eventSet => (request, eventSet)
      else none
  else none

def programmed (request : PMUCtlRequest) (eventSet : EventSet) (driver : Driver) : Driver :=
  let (err, driver) := enableEventSetOn fails eventSet request.cpu.toNat driver
  if err then driver
  else { driver with
    gpEvtCount :=
      if driver.gpEvtCount < request.gpEvtCount then request.gpEvtCount else driver.gpEvtCount
    activeCpuSet := Function.update driver.activeCpuSet request.cpu.toNat true }

theorem pmuWrite_eq (write : Write) (driver : Driver) :
    (pmuWrite nrCpuIds fails write driver).2 =
      match write.programs nrCpuIds with
      | none => driver
      | some (request, eventSet) => programmed fails request eventSet driver := by
  rw [pmuWrite, Write.programs]
  by_cases size : write.len = sizeofRequest
  · rw [if_neg (not_not.mpr size), if_pos size]
    cases write.request with
    | none => rfl
    | some request =>
        simp only [processRequest, Option.bind_some]
        by_cases accepted :
            request.cpu.toNat < nrCpuIds ∧ write.online request.cpu.toNat ∧ write.called
        · obtain ⟨inside, online, called⟩ := accepted
          have active : (decide (nrCpuIds ≤ request.cpu.toNat) ||
              !write.online request.cpu.toNat) = false := by
            simp [online, inside]
          rw [active, if_pos (And.intro inside (And.intro online called)), called]
          cases buildEventSet request with
          | none => rfl
          | some eventSet =>
              simp only [Bool.false_eq_true, if_false, Option.map_some, Bool.not_true, programmed]
              split
              all_goals rfl
        · rw [if_neg accepted]
          split
          · rfl
          case isFalse active =>
            have notCalled : write.called = false := by
              by_contra called
              simp at active called
              exact accepted ⟨active.1, active.2, called⟩
            cases buildEventSet request with
            | none => rfl
            | some eventSet => simp [notCalled]
  · rw [if_pos size, if_neg size]

section Programmed

variable (request : PMUCtlRequest) (eventSet : EventSet) (driver : Driver)

def attempt : Outcome Cpu :=
  pmuEnableEventSet (fails request.cpu.toNat) eventSet (enablePCE (driver.cpus request.cpu.toNat))

theorem programmed_eq :
    programmed fails request eventSet driver =
      let outcome := attempt fails request eventSet driver
      let cpus := Function.update driver.cpus request.cpu.toNat outcome.state
      if outcome.err then { driver with cpus := cpus }
      else { driver with
        cpus := cpus
        gpEvtCount :=
          if driver.gpEvtCount < request.gpEvtCount then request.gpEvtCount else driver.gpEvtCount
        activeCpuSet := Function.update driver.activeCpuSet request.cpu.toNat true } :=
  rfl

theorem cpus_programmed :
    (programmed fails request eventSet driver).cpus =
      Function.update driver.cpus request.cpu.toNat (attempt fails request eventSet driver).state := by
  rw [programmed_eq]
  by_cases failed : (attempt fails request eventSet driver).err = true
  · simp only [if_pos failed]
  · simp only [if_neg failed]

theorem activeCpuSet_programmed :
    (programmed fails request eventSet driver).activeCpuSet =
      if (attempt fails request eventSet driver).err then driver.activeCpuSet
      else Function.update driver.activeCpuSet request.cpu.toNat true := by
  rw [programmed_eq]
  by_cases failed : (attempt fails request eventSet driver).err = true
  · simp only [if_pos failed]
  · simp only [if_neg failed]

theorem gpEvtCount_le_programmed :
    driver.gpEvtCount.toNat ≤ (programmed fails request eventSet driver).gpEvtCount.toNat := by
  rw [programmed_eq]
  by_cases failed : (attempt fails request eventSet driver).err = true
  · simp only [if_pos failed, le_refl]
  · simp only [if_neg failed]
    split
    case isTrue more => exact (UInt8.lt_iff_toNat_lt.mp more).le
    case isFalse => exact le_rfl

theorem le_gpEvtCount_programmed (passed : (attempt fails request eventSet driver).err = false) :
    request.gpEvtCount.toNat ≤ (programmed fails request eventSet driver).gpEvtCount.toNat := by
  rw [programmed_eq]
  simp only [passed, Bool.false_eq_true, if_false]
  split
  case isTrue => exact le_rfl
  case isFalse few => exact UInt8.le_iff_toNat_le.mp (UInt8.not_lt.mp few)

end Programmed

def doneSince (before after : Cpu) : List Action :=
  after.history.take (after.history.length - before.history.length)

theorem doneSince_eq {before after : Cpu} {done : List Action}
    (extended : after.history = done ++ before.history) : doneSince before after = done := by
  rw [doneSince, extended, List.length_append, Nat.add_sub_cancel, List.take_left]

theorem Does.of_mem_doneSince {allowed : Action → Prop} {before after : Cpu}
    (does : Does allowed before after) {action : Action} (listed : action ∈ doneSince before after) :
    allowed action := by
  obtain ⟨done, extended, fine⟩ := does
  rw [doneSince_eq extended] at listed
  exact fine action listed

section Release

variable (called : Nat → Bool)

theorem foldl_clearEventSetOn {cpuIds : List Nat} (distinct : cpuIds.Nodup) (driver : Driver) :
    let cleared := cpuIds.foldl (fun driver cpuId =>
      if called cpuId then clearEventSetOn fails cpuId driver else driver) driver
    cleared.gpEvtCount = driver.gpEvtCount ∧ ∀ cpuId, cleared.cpus cpuId =
      if cpuId ∈ cpuIds ∧ called cpuId then
        (pmuClearEventSet (fails cpuId) driver.gpEvtCount.toNat (clearPCE (driver.cpus cpuId))).state
      else driver.cpus cpuId := by
  induction cpuIds generalizing driver with
  | nil => exact ⟨rfl, fun cpuId => (if_neg fun both => List.not_mem_nil both.1).symm⟩
  | cons first cpuIds ih =>
      obtain ⟨absent, distinct⟩ := List.nodup_cons.mp distinct
      intro cleared
      obtain ⟨count, rest⟩ :=
        ih distinct (if called first then clearEventSetOn fails first driver else driver)
      have sameCount : (if called first then clearEventSetOn fails first driver
          else driver).gpEvtCount = driver.gpEvtCount := by
        split
        all_goals rfl
      refine ⟨count.trans sameCount, fun cpuId => (rest cpuId).trans ?_⟩
      rw [sameCount]
      by_cases same : cpuId = first
      · subst same
        rw [if_neg fun both => absent both.1]
        by_cases reached : called cpuId
        · simp [reached, clearEventSetOn]
        · simp [reached]
      · have other : (if called first then clearEventSetOn fails first driver
            else driver).cpus cpuId = driver.cpus cpuId := by
          split
          · exact Function.update_of_ne same _ _
          · rfl
        simp only [other, List.mem_cons, same, false_or]

theorem cpus_pmuRelease (driver : Driver) (cpuId : Nat) :
    (pmuRelease nrCpuIds fails called driver).2.cpus cpuId =
      if (cpuId < nrCpuIds ∧ driver.activeCpuSet cpuId) ∧ called cpuId then
        (pmuClearEventSet (fails cpuId) driver.gpEvtCount.toNat (clearPCE (driver.cpus cpuId))).state
      else driver.cpus cpuId := by
  have distinct : ((List.range nrCpuIds).filter driver.activeCpuSet).Nodup :=
    List.nodup_range.filter driver.activeCpuSet
  refine ((foldl_clearEventSetOn fails called distinct driver).2 cpuId).trans ?_
  simp only [List.mem_filter, List.mem_range]

end Release

section Registers

/-- A register that a write sets to a value other than 0 is one that the release clears. -/
def Remembered (driver : Driver) (cpuId : Nat) (action : Action) : Prop :=
  ∀ msr value, action = .wrmsr msr value false → value ≠ 0 →
    driver.activeCpuSet cpuId = true ∧
      msr ∈ (clearWrites driver.gpEvtCount.toNat).map Prod.fst

structure Tracks (opened driver : Driver) : Prop where
  inside : ∀ cpuId, driver.activeCpuSet cpuId = true → cpuId < nrCpuIds
  does : ∀ cpuId, Does (Remembered driver cpuId) (opened.cpus cpuId) (driver.cpus cpuId)

theorem Remembered.mono {driver next : Driver} {cpuId : Nat} {action : Action}
    (remembered : Remembered driver cpuId action)
    (active : driver.activeCpuSet cpuId = true → next.activeCpuSet cpuId = true)
    (count : driver.gpEvtCount.toNat ≤ next.gpEvtCount.toNat) : Remembered next cpuId action := by
  intro msr value isWrite nonzero
  obtain ⟨isActive, cleared⟩ := remembered msr value isWrite nonzero
  exact ⟨active isActive, mem_clearWrites_mono count cleared⟩

theorem unfailing_of_succeed {failures : Failures}
    (succeed : ∀ calls msr value, failures calls msr value = false) (calls : Nat)
    (writes : List (Nat × UInt64)) : Unfailing failures calls writes := by
  induction writes generalizing calls with
  | nil => trivial
  | cons write writes ih => exact ⟨succeed calls write.1 write.2, ih (calls + 1)⟩

theorem programs_eq_some {write : Write} {request : PMUCtlRequest} {eventSet : EventSet}
    (accepted : write.programs nrCpuIds = some (request, eventSet)) :
    request.cpu.toNat < nrCpuIds ∧ buildEventSet request = some eventSet := by
  rw [Write.programs] at accepted
  split at accepted
  case isFalse => cases accepted
  case isTrue =>
    obtain ⟨copied, _, reached⟩ := Option.bind_eq_some_iff.mp accepted
    split at reached
    case isFalse => cases reached
    case isTrue allowed =>
      obtain ⟨bits, built, same⟩ := Option.map_eq_some_iff.mp reached
      cases same
      exact ⟨allowed.1, built⟩

variable {fails} (succeed : ∀ cpuId calls msr value, fails cpuId calls msr value = false)

include succeed

theorem Tracks.programmed {opened driver : Driver} (tracks : Tracks nrCpuIds opened driver)
    {request : PMUCtlRequest} {eventSet : EventSet} (inside : request.cpu.toNat < nrCpuIds)
    (built : buildEventSet request = some eventSet) :
    Tracks nrCpuIds opened (programmed fails request eventSet driver) := by
  obtain ⟨count, gpFits, offcoreFits⟩ := lengths_of_buildEventSet built
  have passed : (attempt fails request eventSet driver).err = false :=
    (err_pmuEnableEventSet_iff _ gpFits _).mpr (unfailing_of_succeed (succeed _) _ _)
  have active : (Kernel.programmed fails request eventSet driver).activeCpuSet =
      Function.update driver.activeCpuSet request.cpu.toNat true := by
    rw [activeCpuSet_programmed, passed]
    rfl
  have stays : ∀ cpuId, driver.activeCpuSet cpuId = true →
      (Kernel.programmed fails request eventSet driver).activeCpuSet cpuId = true := by
    intro cpuId isActive
    rw [active]
    by_cases same : cpuId = request.cpu.toNat
    · rw [same, Function.update_self]
    · rw [Function.update_of_ne same, isActive]
  have grows := gpEvtCount_le_programmed fails request eventSet driver
  have earlier : ∀ cpuId, Does (Remembered (Kernel.programmed fails request eventSet driver) cpuId)
      (opened.cpus cpuId) (driver.cpus cpuId) := fun cpuId =>
    (tracks.does cpuId).mono fun _ remembered => remembered.mono (stays cpuId) grows
  refine ⟨fun cpuId isActive => ?_, fun cpuId => ?_⟩
  · rw [active] at isActive
    by_cases same : cpuId = request.cpu.toNat
    · exact same ▸ inside
    · rw [Function.update_of_ne same] at isActive
      exact tracks.inside cpuId isActive
  · rw [cpus_programmed]
    by_cases same : cpuId = request.cpu.toNat
    · subst same
      rw [Function.update_self]
      have permitted : Does
          (Remembered (Kernel.programmed fails request eventSet driver) request.cpu.toNat)
          (driver.cpus request.cpu.toNat) (enablePCE (driver.cpus request.cpu.toNat)) := by
        refine ⟨[.enablePCE], rfl, fun action listed msr value isWrite => ?_⟩
        rw [List.mem_singleton.mp listed] at isWrite
        cases isWrite
      refine ((earlier _).trans permitted).trans (does_pmuEnableEventSet _ ?_ _)
      intro write listed failed msr value isWrite nonzero
      cases isWrite
      refine ⟨by rw [active, Function.update_self], ?_⟩
      rcases List.mem_append.mp listed with clears | enables
      · exact absurd (value_of_mem_clearWrites clears) nonzero
      · refine mem_clearWrites_mono ?_ (mem_clearWrites_of_enableWrites offcoreFits enables)
        exact count.trans_le (le_gpEvtCount_programmed fails request eventSet driver passed)
    · rw [Function.update_of_ne same]
      exact earlier cpuId

theorem Tracks.pmuWrites {opened driver : Driver} (tracks : Tracks nrCpuIds opened driver)
    (writes : List Write) : Tracks nrCpuIds opened (pmuWrites nrCpuIds fails writes driver) := by
  induction writes generalizing driver with
  | nil => exact tracks
  | cons write writes ih =>
      refine ih ?_
      change Tracks nrCpuIds opened (pmuWrite nrCpuIds fails write driver).2
      rw [pmuWrite_eq]
      cases accepted : write.programs nrCpuIds with
      | none => exact tracks
      | some pair =>
          obtain ⟨inside, built⟩ := programs_eq_some nrCpuIds accepted
          exact tracks.programmed nrCpuIds succeed inside built

/-- Every register that a session set to a value other than 0 is 0 when it has ended. -/
theorem pmuRelease_clears (driver : Driver) (unused : driver.mutexLocked = false)
    (writes : List Write) :
    let opened := (pmuOpen driver).2
    let used := pmuWrites nrCpuIds fails writes opened
    let released := (pmuRelease nrCpuIds fails (fun _ => true) used).2
    ∀ cpuId msr value, Action.wrmsr msr value false ∈ doneSince (opened.cpus cpuId) (used.cpus cpuId) →
      value ≠ 0 → (released.cpus cpuId).registers msr = 0 := by
  intro opened used released cpuId msr value listed nonzero
  have start : Tracks nrCpuIds opened opened := by
    refine ⟨fun cpuId isActive => ?_, fun cpuId => .refl _⟩
    simp [opened, pmuOpen, unused] at isActive
  have tracks := start.pmuWrites nrCpuIds succeed writes
  obtain ⟨active, cleared⟩ := (tracks.does cpuId).of_mem_doneSince listed msr value rfl nonzero
  have after : released.cpus cpuId = _ := cpus_pmuRelease nrCpuIds fails _ used cpuId
  rw [after, if_pos ⟨⟨tracks.inside cpuId active, active⟩, rfl⟩, pmuClearEventSet_eq]
  refine registers_storeAll_eq_zero _ (fun _ => value_of_mem_clearWrites) ?_ (.inr cleared)
  exact (err_storeAll_iff _ _ _).mpr (unfailing_of_succeed (succeed cpuId) _ _)

end Registers

theorem pmuRelease_clears_fewer :
    let opened := (pmuOpen idleDriver).2
    let used := pmuWrites 2 (fun _ _ _ _ => false) [requestFor 0 2, requestFor 1 1, requestFor 0 1] opened
    let released := (pmuRelease 2 (fun _ _ _ _ => false) (fun _ => true) used).2
    (used.cpus 0).registers perfEvtSel0 ≠ 0 ∧
    ∀ cpuId msr value, Action.wrmsr msr value false ∈ doneSince (opened.cpus cpuId) (used.cpus cpuId) →
      value ≠ 0 → (released.cpus cpuId).registers msr = 0 :=
  ⟨by decide, pmuRelease_clears 2 (fun _ _ _ _ => rfl) idleDriver rfl
    [requestFor 0 2, requestFor 1 1, requestFor 0 1]⟩

section Permission

def Sets (cpuId : Nat) (write : Write) : Prop :=
  ∃ request eventSet, write.programs nrCpuIds = some (request, eventSet) ∧ request.cpu.toNat = cpuId

def Withstands (cpuId : Nat) (driver : Driver) (write : Write) : Prop :=
  ∃ request eventSet, write.programs nrCpuIds = some (request, eventSet) ∧
    request.cpu.toNat = cpuId ∧
    Unfailing (fails cpuId) ((driver.cpus cpuId).history.length + 1) (eventSetWrites eventSet)

section Step

variable {cpuId : Nat} {write : Write} {driver : Driver}

theorem cpus_pmuWrite_of_not_sets (other : ¬Sets nrCpuIds cpuId write) :
    (pmuWrite nrCpuIds fails write driver).2.cpus cpuId = driver.cpus cpuId := by
  rw [pmuWrite_eq]
  cases accepted : write.programs nrCpuIds with
  | none => rfl
  | some pair =>
      have differ : cpuId ≠ pair.1.cpu.toNat := fun same => other ⟨pair.1, pair.2, accepted, same.symm⟩
      simp only [cpus_programmed, Function.update_of_ne differ]

theorem pmuWrite_of_sets (sets : Sets nrCpuIds cpuId write) :
    ((pmuWrite nrCpuIds fails write driver).2.cpus cpuId).pce = true ∧
      ∃ done, Action.enablePCE ∈ done ∧
        ((pmuWrite nrCpuIds fails write driver).2.cpus cpuId).history =
          done ++ (driver.cpus cpuId).history := by
  obtain ⟨request, eventSet, accepted, rfl⟩ := sets
  rw [pmuWrite_eq, accepted]
  simp only [cpus_programmed, Function.update_self, attempt]
  constructor
  · rw [Cpu.pce, cr4_pmuEnableEventSet]
    exact pce_enablePCE _
  · obtain ⟨done, extended, _⟩ := @does_pmuEnableEventSet
      (fails request.cpu.toNat) (fun _ => True) eventSet (fun _ _ _ => trivial)
      (enablePCE (driver.cpus request.cpu.toNat))
    refine ⟨done ++ [.enablePCE], by simp, ?_⟩
    rw [extended, List.append_assoc]
    rfl

theorem activeCpuSet_pmuWrite_iff :
    (pmuWrite nrCpuIds fails write driver).2.activeCpuSet cpuId = true ↔
      driver.activeCpuSet cpuId = true ∨ Withstands nrCpuIds fails cpuId driver write := by
  rw [pmuWrite_eq, Withstands]
  cases accepted : write.programs nrCpuIds with
  | none => simp
  | some pair =>
      obtain ⟨request, eventSet⟩ := pair
      obtain ⟨_, built⟩ := programs_eq_some nrCpuIds accepted
      have passes : (attempt fails request eventSet driver).err = false ↔ _ :=
        err_pmuEnableEventSet_iff _ (lengths_of_buildEventSet built).2.1 _
      have withstands : (∃ other bits, some (request, eventSet) = some (other, bits) ∧
          other.cpu.toNat = cpuId ∧ Unfailing (fails cpuId)
            ((driver.cpus cpuId).history.length + 1) (eventSetWrites bits)) ↔
          request.cpu.toNat = cpuId ∧ (attempt fails request eventSet driver).err = false := by
        rw [passes]
        constructor
        · rintro ⟨other, bits, same, rfl, unfailing⟩
          cases same
          exact ⟨rfl, unfailing⟩
        · rintro ⟨rfl, unfailing⟩
          exact ⟨request, eventSet, rfl, rfl, unfailing⟩
      simp only [withstands, activeCpuSet_programmed]
      cases (attempt fails request eventSet driver).err with
      | true => simp
      | false =>
          by_cases same : cpuId = request.cpu.toNat
          · simp [same]
          · simp [Function.update_of_ne same, Ne.symm same]

end Step

section Run

variable (cpuId : Nat) (opened : Driver)

theorem pmuWrites_append_singleton (writes : List Write) (write : Write) :
    pmuWrites nrCpuIds fails (writes ++ [write]) opened =
      (pmuWrite nrCpuIds fails write (pmuWrites nrCpuIds fails writes opened)).2 := by
  rw [pmuWrites, List.foldl_append]
  rfl

theorem pmuWrites_sets (writes : List Write) :
    ∃ done, ((pmuWrites nrCpuIds fails writes opened).cpus cpuId).history =
        done ++ (opened.cpus cpuId).history ∧
      ((∃ write ∈ writes, Sets nrCpuIds cpuId write) → Action.enablePCE ∈ done ∧
        ((pmuWrites nrCpuIds fails writes opened).cpus cpuId).pce = true) ∧
      (¬(∃ write ∈ writes, Sets nrCpuIds cpuId write) → done = []) := by
  induction writes using List.reverseRecOn with
  | nil => exact ⟨[], rfl, by simp, fun _ => rfl⟩
  | append_singleton writes write ih =>
      obtain ⟨done, extended, some, none⟩ := ih
      rw [pmuWrites_append_singleton]
      by_cases sets : Sets nrCpuIds cpuId write
      · obtain ⟨permitted, more, isMore, further⟩ := pmuWrite_of_sets nrCpuIds fails sets
        refine ⟨more ++ done, by rw [further, extended, List.append_assoc], fun _ => ?_, fun absent => ?_⟩
        · exact ⟨List.mem_append_left done isMore, permitted⟩
        · exact absurd ⟨write, by simp, sets⟩ absent
      · have same : (∃ other ∈ writes ++ [write], Sets nrCpuIds cpuId other) ↔
            ∃ other ∈ writes, Sets nrCpuIds cpuId other := by
          simp [or_and_right, exists_or, sets]
        rw [cpus_pmuWrite_of_not_sets nrCpuIds fails sets, same]
        exact ⟨done, extended, some, none⟩

theorem activeCpuSet_pmuWrites_iff (fresh : opened.activeCpuSet cpuId = false) (writes : List Write) :
    (pmuWrites nrCpuIds fails writes opened).activeCpuSet cpuId = true ↔
      ∃ before write after, writes = before ++ write :: after ∧
        Withstands nrCpuIds fails cpuId (pmuWrites nrCpuIds fails before opened) write := by
  induction writes using List.reverseRecOn with
  | nil => simp [pmuWrites, fresh]
  | append_singleton writes last ih =>
      rw [pmuWrites_append_singleton, activeCpuSet_pmuWrite_iff, ih]
      constructor
      · rintro (⟨before, write, after, rfl, withstands⟩ | withstands)
        · exact ⟨before, write, after ++ [last], by simp, withstands⟩
        · exact ⟨writes, last, [], rfl, withstands⟩
      · rintro ⟨before, write, after, parts, withstands⟩
        cases after using List.reverseRecOn with
        | nil =>
            obtain ⟨rfl, same⟩ := List.append_inj' parts rfl
            cases same
            exact .inr withstands
        | append_singleton after final =>
            rw [← List.cons_append, ← List.append_assoc] at parts
            obtain ⟨rfl, _⟩ := List.append_inj' parts rfl
            exact .inl ⟨before, write, after, rfl, withstands⟩

end Run

/-- Permission to read the counters is withdrawn from every cpu that got it exactly when each of
them was programmed by some write without a failure. -/
theorem permission_withdrawn_iff (driver : Driver) (unused : driver.mutexLocked = false)
    (writes : List Write) :
    let opened := (pmuOpen driver).2
    let used := pmuWrites nrCpuIds fails writes opened
    let released := (pmuRelease nrCpuIds fails (fun _ => true) used).2
    (∀ cpuId, Action.enablePCE ∈ doneSince (opened.cpus cpuId) (used.cpus cpuId) →
        (released.cpus cpuId).pce = false) ↔
      ∀ cpuId, (∃ write ∈ writes, Sets nrCpuIds cpuId write) →
        ∃ before write after, writes = before ++ write :: after ∧
          Withstands nrCpuIds fails cpuId (pmuWrites nrCpuIds fails before opened) write := by
  intro opened used released
  refine forall_congr' fun cpuId => ?_
  have fresh : opened.activeCpuSet cpuId = false := by
    simp [opened, pmuOpen, unused]
  obtain ⟨done, extended, some, none⟩ := pmuWrites_sets nrCpuIds fails cpuId opened writes
  have sets : Action.enablePCE ∈ doneSince (opened.cpus cpuId) (used.cpus cpuId) ↔
      ∃ write ∈ writes, Sets nrCpuIds cpuId write := by
    rw [doneSince_eq extended]
    refine ⟨fun listed => ?_, fun exist => (some exist).1⟩
    by_contra absent
    rw [none absent] at listed
    cases listed
  rw [sets, ← activeCpuSet_pmuWrites_iff nrCpuIds fails cpuId opened fresh writes]
  refine imp_congr_right fun exist => ?_
  have after : released.cpus cpuId = _ := cpus_pmuRelease nrCpuIds fails _ used cpuId
  have permitted : (used.cpus cpuId).pce = true := (some exist).2
  obtain ⟨write, _, request, eventSet, accepted, isCpu⟩ := exist
  have inside : cpuId < nrCpuIds := isCpu ▸ (programs_eq_some nrCpuIds accepted).1
  by_cases active : used.activeCpuSet cpuId = true
  · rw [after, if_pos ⟨⟨inside, active⟩, rfl⟩, pmuClearEventSet_eq]
    refine ⟨fun _ => active, fun _ => ?_⟩
    rw [Cpu.pce, cr4_storeAll]
    exact pce_clearPCE _
  · rw [after, if_neg fun both => active both.1.2, permitted]
    exact ⟨fun withdrawn => Bool.noConfusion withdrawn, fun isActive => absurd isActive active⟩

theorem permission_withdrawn_iff_retried :
    let fails : Nat → Failures := fun _ calls _ _ => calls == 1
    let opened := (pmuOpen idleDriver).2
    let used := pmuWrites 1 fails [requestFor 0 1, requestFor 0 2] opened
    let released := (pmuRelease 1 fails (fun _ => true) used).2
    (∀ cpuId, Action.enablePCE ∈ doneSince (opened.cpus cpuId) (used.cpus cpuId) →
        (released.cpus cpuId).pce = false) ↔
      ∀ cpuId, (∃ write ∈ [requestFor 0 1, requestFor 0 2], Sets 1 cpuId write) →
        ∃ before write after, [requestFor 0 1, requestFor 0 2] = before ++ write :: after ∧
          Withstands 1 fails cpuId (pmuWrites 1 fails before opened) write :=
  permission_withdrawn_iff 1 (fun _ calls _ _ => calls == 1) idleDriver rfl
    [requestFor 0 1, requestFor 0 2]

theorem permission_kept :
    ¬∀ (nrCpuIds : Nat) (fails : Nat → Failures) (driver : Driver), driver.mutexLocked = false →
      ∀ writes : List Write,
        let opened := (pmuOpen driver).2
        let used := pmuWrites nrCpuIds fails writes opened
        let released := (pmuRelease nrCpuIds fails (fun _ => true) used).2
        ∀ cpuId, Action.enablePCE ∈ doneSince (opened.cpus cpuId) (used.cpus cpuId) →
          (released.cpus cpuId).pce = false := by
  intro always
  have withdrawn := always 1 (fun _ calls _ _ => calls == 1) idleDriver rfl [requestFor 0 1] 0
    (by decide)
  revert withdrawn
  decide

end Permission

end Session

end Xpedite.Kernel
