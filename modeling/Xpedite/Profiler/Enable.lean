import Xpedite.Kernel.PmuAtomic
import Xpedite.Profiler.EnableCore
import Xpedite.Profiler.PmuWire
import Xpedite.Profiler.Resolve

/-!
From the events a profile asks for to the registers of the processors: when `enable` returns,
every event is counted on every cpu it was asked for.
-/

namespace Xpedite.Kernel

open Lib
open Framework (PMUCtlRequest)

theorem programmed_of_passed {fails : Failures} {eventSet : EventSet} {cpu : Cpu}
    (offcore : eventSet.offcoreEvtSel.length ≤ offcoreEventMax)
    (passed : (pmuEnableEventSet fails eventSet cpu).err = false) :
    Programmed eventSet (pmuEnableEventSet fails eventSet cpu).state := by
  by_cases fits : eventSet.gpEvtSel.length ≤ gpEventMax
  · rw [pmuEnableEventSet_eq fails fits] at passed ⊢
    dsimp only at passed ⊢
    split at passed
    · simp_all
    · rename_i reset
      rw [if_neg reset]
      split at passed
      · cases passed
      · rename_i enabled
        rw [if_neg enabled]
        exact Programmed.of_writes fits
          (registers_storeAll fails (nodup_enableWrites fits offcore) passed)
  · rw [pmuEnableEventSet_of_gt fails (Nat.not_le.mp fits)] at passed
    cases passed

theorem pmuWrite_accepted {nrCpuIds : Nat} {fails : Nat → Failures} {write : Write}
    {driver : Driver} (accepted : ¬(pmuWrite nrCpuIds fails write driver).1 < 0) :
    write.len = sizeofRequest ∧ ∃ request eventSet, write.request = some request ∧
      buildEventSet request = some eventSet ∧
      ∃ cpu, Programmed eventSet cpu ∧ (pmuWrite nrCpuIds fails write driver).2.cpus =
        Function.update driver.cpus request.cpu.toNat cpu := by
  rw [pmuWrite] at accepted ⊢
  split at accepted
  · simp [efault] at accepted
  · rename_i size
    rw [if_neg size]
    refine ⟨not_not.mp size, ?_⟩
    split at accepted
    · simp [efault] at accepted
    · rename_i request copied
      simp only [copied]
      rw [processRequest] at accepted ⊢
      dsimp only at accepted ⊢
      split at accepted
      · simp [enxio] at accepted
      · rename_i active
        rw [if_neg active]
        split at accepted
        · simp [efault] at accepted
        · rename_i eventSet built
          split at accepted
          · simp [efault] at accepted
          · rename_i called
            rw [if_neg called]
            split at accepted
            · simp [efault] at accepted
            · rename_i passed
              rw [if_neg passed]
              refine ⟨request, eventSet, rfl, built, _, ?_, rfl⟩
              exact programmed_of_passed (lengths_of_buildEventSet built).2.2
                (Bool.eq_false_of_not_eq_true passed)

end Xpedite.Kernel

namespace Xpedite.Profiler

open Lib Framework
open Kernel (Driver Cpu Programmed perfGlobalCtrl perfEvtSel0 offcoreRsp0 fixedCtrCtrl)

section Registers

structure CountsOn (cpu : Cpu) (counter : Nat) (event : CoreEvent) (user kernel : Bool) : Prop where
  global : (cpu.registers perfGlobalCtrl).toNat.testBit counter
  enable : (cpu.registers (perfEvtSel0 + counter)).toNat.testBit 22
  event : selectedEvent (cpu.registers (perfEvtSel0 + counter)).toNat =
    ⟨event.eventSelect, event.unitMask, event.edgeDetect, event.anyThread != 0, event.invert,
      event.counterMask⟩
  user : userBit (cpu.registers (perfEvtSel0 + counter)).toNat = user
  kernel : kernelBit (cpu.registers (perfEvtSel0 + counter)).toNat = kernel

/-- The fixed counter is enabled, for the rings that a request for it asks for. -/
structure CountsFixed (cpu : Cpu) (counter : Nat) (user kernel : Bool) : Prop where
  global : (cpu.registers perfGlobalCtrl).toNat.testBit (32 + counter)
  user : (cpu.registers fixedCtrCtrl).toNat.testBit (4 * counter + 1) = user
  kernel : (cpu.registers fixedCtrCtrl).toNat.testBit (4 * counter) = kernel

theorem value_lt (reg : PerfEvtSelReg) : reg.value < 2 ^ 32 := by
  have eventSelect := reg.eventSelect.toNat_lt
  have unitMask := reg.unitMask.toNat_lt
  have counterMask := reg.counterMask.toNat_lt
  have user := reg.user.toNat_le
  have kernel := reg.kernel.toNat_le
  have edgeDetect := reg.edgeDetect.toNat_le
  have pinControl := reg.pinControl.toNat_le
  have interruptEn := reg.interruptEn.toNat_le
  have anyThread := reg.anyThread.toNat_le
  have enable := reg.enable.toNat_le
  have invertCMask := reg.invertCMask.toNat_le
  rw [PerfEvtSelReg.value]
  omega

theorem enable_value (reg : PerfEvtSelReg) : reg.value.testBit 22 = reg.enable := by
  apply testBit_of_digit
  have eventSelect := reg.eventSelect.toNat_lt
  have unitMask := reg.unitMask.toNat_lt
  have user := reg.user.toNat_le
  have kernel := reg.kernel.toNat_le
  have edgeDetect := reg.edgeDetect.toNat_le
  have pinControl := reg.pinControl.toNat_le
  have interruptEn := reg.interruptEn.toNat_le
  have anyThread := reg.anyThread.toNat_le
  have enable := reg.enable.toNat_le
  rw [PerfEvtSelReg.value]
  omega

theorem toNat_word {value : Nat} (small : value < 2 ^ 32) :
    (UInt32.ofNat value).toUInt64.toNat = value := by
  rw [UInt32.toNat_toUInt64, UInt32.toNat_ofNat', Nat.mod_eq_of_lt small]

theorem flag_of_toNat {field : UInt8} {flag : Bool} (same : field.toNat = flag.toNat) :
    (field != 0) = flag := by
  cases flag with
  | false =>
      obtain rfl : field = 0 := UInt8.toNat_inj.mp same
      rfl
  | true =>
      obtain rfl : field = 1 := UInt8.toNat_inj.mp same
      rfl

theorem toNat_global (fixed : UInt8) {count : Nat} (few : count ≤ 8) :
    ((fixed.toUInt64 <<< 32) ||| UInt64.ofNat (2 ^ count - 1)).toNat =
      2 ^ 32 * fixed.toNat + (2 ^ count - 1) := by
  have small : 2 ^ count ≤ 2 ^ 8 := Nat.pow_le_pow_right (by omega) few
  have bound := fixed.toNat_lt
  have low : 2 ^ count - 1 < 2 ^ 32 := by omega
  rw [UInt64.toNat_or, UInt64.toNat_shiftLeft]
  simp only [UInt8.toNat_toUInt64, UInt64.toNat_ofNat', UInt64.reduceToNat, Nat.reduceMod]
  rw [Nat.shiftLeft_eq, Nat.mod_eq_of_lt (by omega), Nat.mod_eq_of_lt (by omega),
    ← Nat.shiftLeft_eq, ← Nat.shiftLeft_add_eq_or_of_lt low, Nat.shiftLeft_eq]
  omega

theorem testBit_global_low (fixed : UInt8) {count counter : Nat} (few : count ≤ 8)
    (used : counter < count) :
    ((fixed.toUInt64 <<< 32) ||| UInt64.ofNat (2 ^ count - 1)).toNat.testBit counter := by
  have small : 2 ^ count ≤ 2 ^ 8 := Nat.pow_le_pow_right (by omega) few
  rw [toNat_global fixed few, Nat.testBit_two_pow_mul_add _ (by omega), if_pos (by omega),
    Nat.testBit_two_pow_sub_one]
  simpa using used

theorem testBit_global_high (fixed : UInt8) {count : Nat} (few : count ≤ 8) (counter : Nat) :
    ((fixed.toUInt64 <<< 32) ||| UInt64.ofNat (2 ^ count - 1)).toNat.testBit (32 + counter) =
      fixed.toNat.testBit counter := by
  have small : 2 ^ count ≤ 2 ^ 8 := Nat.pow_le_pow_right (by omega) few
  rw [toNat_global fixed few, Nat.testBit_two_pow_mul_add _ (by omega), if_neg (by omega),
    Nat.add_sub_cancel_left]

end Registers

section Meaning

variable {cpuId : Nat} {eventSet : EventSet} {request : PMUCtlRequest} {words : Kernel.EventSet}
variable {cpu : Cpu}

theorem countsOn_of_programmed (wellBuilt : Built eventSet)
    (understood : Understood cpuId eventSet request) (built : Kernel.buildEventSet request = some words)
    (programmed : Programmed words cpu) {index : Nat} {generic : GenericPmuRequest}
    (listed : eventSet.genericRequests[index]? = some generic) :
    CountsOn cpu index generic.event generic.user generic.kernel := by
  obtain ⟨bits, made, rfl⟩ := Option.map_eq_some_iff.mp built
  have accepted := Control.accepted_of_buildEventSet made
  have inside := (List.getElem?_eq_some_iff.mp listed).1
  have count := understood.gpEvtCount
  have few := wellBuilt.genericFew
  have entry : bits.gpEvtSel[index]? =
      some (buildPerfEvtSelBitmask (request.gpEvents ⟨index, by omega⟩)) := by
    rw [accepted.gp, List.getElem?_map, getElem_firstOf request.gpEvents (by omega) (by omega)]
    rfl
  have fields := understood.gpEvents ⟨index, by omega⟩
  simp only [listed, GenericEntry] at fields
  obtain ⟨eventSelect, unitMask, user, kernel, invert, counterMask, edgeDetect, anyThread⟩ := fields
  generalize request.gpEvents ⟨index, by omega⟩ = event at *
  have word := programmed.evtSel index (UInt32.ofNat (buildPerfEvtSelBitmask event).value)
    (by simp [Kernel.wordsOf, entry])
  have value := toNat_word (value_lt (buildPerfEvtSelBitmask event))
  have length := (Kernel.lengths_of_buildEventSet built).1
  refine ⟨?_, ?_, ?_, ?_, ?_⟩
  · rw [programmed.global, length]
    exact testBit_global_low _ (by omega) (by omega)
  · rw [word, value, enable_value]
    rfl
  · rw [word, value, selectedEvent_value]
    simp only [buildPerfEvtSelBitmask, eventSelect, unitMask, counterMask, flag_of_toNat edgeDetect,
      flag_of_toNat invert, SelectedEvent.mk.injEq, true_and, and_true]
    rw [← anyThread, Bool.eq_iff_iff]
    simp [← UInt8.toNat_inj]
  · rw [word, value, userBit_value]
    exact flag_of_toNat user
  · rw [word, value, kernelBit_value]
    exact flag_of_toNat kernel

theorem offcoreEvtSel_of_buildEventSet {bits : Framework.EventSet}
    (made : Framework.buildEventSet request = some bits) :
    request.offcoreEvtCount.toNat ≤ 2 ∧
      bits.offcoreEvtSel = firstOf request.offcoreEvents request.offcoreEvtCount := by
  rw [Framework.buildEventSet] at made
  split at made
  · cases made
  · split at made
    · cases made
    · split at made
      · cases made
      · rename_i few
        obtain ⟨mask, _, rfl⟩ := Option.map_eq_some_iff.mp made
        exact ⟨UInt8.le_iff_toNat_le.mp (UInt8.not_lt.mp few), rfl⟩

theorem offcore_of_programmed (understood : Understood cpuId eventSet request)
    (built : Kernel.buildEventSet request = some words) (programmed : Programmed words cpu)
    {index : Nat} {offcore : OffcorePmuRequest}
    (listed : eventSet.offcoreRequests[index]? = some offcore) :
    (cpu.registers (offcoreRsp0 + index)).toNat = offcore.event.msrValue := by
  obtain ⟨bits, made, rfl⟩ := Option.map_eq_some_iff.mp built
  obtain ⟨few, offcoreEvtSel⟩ := offcoreEvtSel_of_buildEventSet made
  have inside := (List.getElem?_eq_some_iff.mp listed).1
  have count := understood.offcoreEvtCount
  have entry := understood.offcoreEvents ⟨index, by omega⟩
  simp only [listed, OffcoreEntry] at entry
  rw [← entry]
  refine congrArg UInt64.toNat (programmed.offcore index _ ?_)
  simp only [Kernel.wordsOf, offcoreEvtSel]
  exact getElem_firstOf request.offcoreEvents (by omega) (by omega)

theorem fixedEvtEnable_lt (fixedEvents : List PMUFixedEvent) (ctrIndex : UInt8) :
    fixedEvtEnable fixedEvents ctrIndex < 4 := by
  rw [fixedEvtEnable]
  split
  · omega
  · rw [fixedEventEnablemask]
    split
    · omega
    · split <;> omega

theorem bits_enablemask (fixed : FixedPmuRequest) (flagged : fixed.user = true ∨ fixed.kernel = true) :
    fixedEventEnablemask (fixedEventOf fixed.mask) / 2 % 2 = fixed.user.toNat ∧
      fixedEventEnablemask (fixedEventOf fixed.mask) % 2 = fixed.kernel.toNat := by
  rw [enablemask_fixedEventOf]
  revert flagged
  generalize fixed.user = user
  generalize fixed.kernel = kernel
  revert user kernel
  decide

theorem testBit_globalCtl (set : FixedPmcSet) {index : Nat} (small : index < 3) :
    (UInt8.ofNat (set.instRetiredAny.toNat + set.cpuClkUnhaltedCore.toNat * 2 +
      set.cpuClkUnhaltedRef.toNat * 2 ^ 2)).toNat.testBit index = isEnabled set index := by
  obtain ⟨first, second, third⟩ := set
  match index, small with
  | 0, _ => revert first second third; decide
  | 1, _ => revert first second third; decide
  | 2, _ => revert first second third; decide

/-- The enable bits of a fixed counter in the register that has those of all three. -/
theorem testBit_fixedEvtSel {sel : UInt8 → Nat} (narrow : ∀ index, sel index < 4) {index : Nat}
    (small : index < 3) {user kernel : Bool} (users : sel (UInt8.ofNat index) / 2 % 2 = user.toNat)
    (kernels : sel (UInt8.ofNat index) % 2 = kernel.toNat) :
    (UInt32.ofNat (sel 0 + sel 1 * 2 ^ 4 + sel 2 * 2 ^ 8)).toUInt64.toNat.testBit (4 * index + 1) =
        user ∧
      (UInt32.ofNat (sel 0 + sel 1 * 2 ^ 4 + sel 2 * 2 ^ 8)).toUInt64.toNat.testBit (4 * index) =
        kernel := by
  have first := narrow 0
  have second := narrow 1
  have third := narrow 2
  rw [toNat_word (by omega)]
  match index, small with
  | 0, _ =>
      change sel 0 / 2 % 2 = user.toNat at users
      change sel 0 % 2 = kernel.toNat at kernels
      exact ⟨testBit_of_digit (by omega), testBit_of_digit (by omega)⟩
  | 1, _ =>
      change sel 1 / 2 % 2 = user.toNat at users
      change sel 1 % 2 = kernel.toNat at kernels
      exact ⟨testBit_of_digit (by omega), testBit_of_digit (by omega)⟩
  | 2, _ =>
      change sel 2 / 2 % 2 = user.toNat at users
      change sel 2 % 2 = kernel.toNat at kernels
      exact ⟨testBit_of_digit (by omega), testBit_of_digit (by omega)⟩

theorem find_fixedEvent (fits : Fits cpuId eventSet) {fixed : FixedPmuRequest}
    (listed : fixed ∈ eventSet.fixedRequests) :
    ∃ first, eventSet.fixedRequests.find? (fun request => request.ctrIndex == fixed.ctrIndex) =
        some first ∧
      (eventSet.fixedRequests.map fun request => fixedEventOf request.mask).find?
          (fun event => event.ctrIndex == UInt8.ofNat fixed.ctrIndex) =
        some (fixedEventOf first.mask) := by
  have found : (eventSet.fixedRequests.find? fun request =>
      request.ctrIndex == fixed.ctrIndex).isSome := by
    rw [List.find?_isSome]
    exact ⟨fixed, listed, beq_self_eq_true _⟩
  obtain ⟨first, finds⟩ := Option.isSome_iff_exists.mp found
  refine ⟨first, finds, ?_⟩
  obtain ⟨own, earlier, later, split, others⟩ := List.find?_eq_some_iff_append.mp finds
  have inside : ∀ request ∈ earlier, request ∈ eventSet.fixedRequests := by
    intro request member
    rw [split]
    exact List.mem_append_left _ member
  rw [List.find?_map, Option.map_eq_some_iff]
  refine ⟨first, List.find?_eq_some_iff_append.mpr ⟨?_, earlier, later, split, ?_⟩, rfl⟩
  · simpa [fixedEventOf, FixedPmuRequest.mask] using congrArg UInt8.ofNat (beq_iff_eq.mp own)
  · intro request member
    have apart : request.ctrIndex ≠ fixed.ctrIndex := by simpa using others request member
    suffices UInt8.ofNat request.ctrIndex ≠ UInt8.ofNat fixed.ctrIndex by
      simpa [fixedEventOf, FixedPmuRequest.mask] using this
    intro same
    have values := congrArg UInt8.toNat same
    rw [toNat_ofNat_of_lt (fits.fixed request (inside request member)),
      toNat_ofNat_of_lt (fits.fixed fixed listed)] at values
    exact apart values

theorem countsFixed_of_programmed (fits : Fits cpuId eventSet) (wellBuilt : Built eventSet)
    (built : Kernel.buildEventSet (RequestParser.pmuRequestOf (requestBytes cpuId eventSet)) =
      some words)
    (programmed : Programmed words cpu) {fixed : FixedPmuRequest}
    (listed : fixed ∈ eventSet.fixedRequests) :
    ∃ first, eventSet.fixedRequests.find? (fun request => request.ctrIndex == fixed.ctrIndex) =
        some first ∧
      CountsFixed cpu fixed.ctrIndex first.user first.kernel := by
  obtain ⟨bits, made, rfl⟩ := Option.map_eq_some_iff.mp built
  have accepted := Control.accepted_of_buildEventSet made
  have understood := understood_requestBytes fits
  have events : firstOf (RequestParser.pmuRequestOf (requestBytes cpuId eventSet)).fixedEvents
      (RequestParser.pmuRequestOf (requestBytes cpuId eventSet)).fixedEvtCount =
        eventSet.fixedRequests.map fun request => fixedEventOf request.mask :=
    @firstOf_eq_map _ _ _ _ _ _
      (fun request => fixedEventOf ((request.map FixedPmuRequest.mask).getD
        FixedPmuRequest.defaultMask)) understood.fixedEvtCount fits.fixedFew
      (fixedEvents_eq cpuId eventSet)
  have indices := accepted.fixed
  rw [events, List.map_map] at indices
  have byte : UInt8.ofNat fixed.ctrIndex ∈
      eventSet.fixedRequests.map (PMUFixedEvent.ctrIndex ∘ fun request => fixedEventOf request.mask) :=
    List.mem_map.mpr ⟨fixed, listed, rfl⟩
  have small : fixed.ctrIndex < 3 := by
    have below := (FixedPmcSet.isSome_enableAll _ _).mp (Option.isSome_of_eq_some indices) _ byte
    have value := UInt8.lt_iff_toNat_lt.mp below
    rwa [toNat_ofNat_of_lt (fits.fixed fixed listed)] at value
  obtain ⟨first, earliest, finds⟩ := find_fixedEvent fits listed
  have inside := List.mem_of_find?_eq_some earliest
  have selected : bits.fixedEvtSel (UInt8.ofNat fixed.ctrIndex) =
      fixedEventEnablemask (fixedEventOf first.mask) := by
    rw [fixedEvtSel_of_buildEventSet made, events, fixedEvtEnable, finds]
  have narrow : ∀ index, bits.fixedEvtSel index < 4 := by
    rw [fixedEvtSel_of_buildEventSet made]
    exact fixedEvtEnable_lt _
  obtain ⟨users, kernels⟩ := bits_enablemask first (wellBuilt.flagged first inside)
  rw [← selected] at users kernels
  obtain ⟨user, kernel⟩ := testBit_fixedEvtSel narrow small users kernels
  refine ⟨first, earliest, ?_, ?_, ?_⟩
  · rw [programmed.global, testBit_global_high _ (Kernel.lengths_of_buildEventSet built).2.1]
    refine (testBit_globalCtl bits.fixedEvtGlobalCtl small).trans ?_
    rw [FixedPmcSet.enableAll_eq_some indices, isEnabled_withIndices _ _ small, Bool.or_eq_true]
    exact .inr (List.contains_iff_mem.mpr byte)
  · rw [programmed.fixed]
    exact user
  · rw [programmed.fixed]
    exact kernel

end Meaning

structure CountsAll (eventSet : EventSet) (cpu : Cpu) : Prop where
  generic : ∀ (index : Nat) (generic : GenericPmuRequest),
    eventSet.genericRequests[index]? = some generic →
      CountsOn cpu index generic.event generic.user generic.kernel
  offcore : ∀ (index : Nat) (offcore : OffcorePmuRequest),
    eventSet.offcoreRequests[index]? = some offcore →
      (cpu.registers (offcoreRsp0 + index)).toNat = offcore.event.msrValue
  fixed : ∀ fixed ∈ eventSet.fixedRequests, ∃ first,
    eventSet.fixedRequests.find? (fun request => request.ctrIndex == fixed.ctrIndex) =
        some first ∧ CountsFixed cpu fixed.ctrIndex first.user first.kernel

section Enable

variable {nrCpuIds : Nat} {fails : Nat → Kernel.Failures} {eventSet : EventSet}

theorem countsAll_of_pmuWrite {answer : Answer} {cpuId : Nat} {bytes : List UInt8} {driver : Driver}
    (wellBuilt : Built eventSet) (packed : PMUCtrl.buildRequestGroup cpuId eventSet = some bytes)
    (accepted : ¬(Kernel.pmuWrite nrCpuIds fails (writeOf answer bytes) driver).1 < 0) :
    ∃ cpu, CountsAll eventSet cpu ∧
      (Kernel.pmuWrite nrCpuIds fails (writeOf answer bytes) driver).2.cpus =
        Function.update driver.cpus cpuId cpu := by
  have fits := fits_of_buildRequestGroup wellBuilt packed
  obtain ⟨-, request, words, copied, built, cpu, programmed, cpus⟩ := Kernel.pmuWrite_accepted accepted
  obtain rfl : requestBytes cpuId eventSet = bytes := by
    rw [fits.buildRequestGroup_eq] at packed
    exact Option.some_inj.mp packed
  obtain rfl := Option.some_inj.mp copied
  have understood := understood_requestBytes fits
  rw [understood.cpu] at cpus
  refine ⟨cpu, ⟨?_, ?_, ?_⟩, cpus⟩
  · intro index generic listed
    exact countsOn_of_programmed wellBuilt understood built programmed listed
  · intro index offcore listed
    exact offcore_of_programmed understood built programmed listed
  · intro fixed listed
    exact countsFixed_of_programmed fits wellBuilt built programmed listed

theorem writeRequests_spec {answer : Nat → Answer} (wellBuilt : Built eventSet) {cpuSet : List Nat}
    {driver next : Driver}
    (written : PMUCtrl.writeRequests nrCpuIds fails answer eventSet cpuSet driver = (.ok (), next)) :
    (∀ cpuId ∈ cpuSet, CountsAll eventSet (next.cpus cpuId)) ∧
      ∀ cpuId, cpuId ∉ cpuSet → next.cpus cpuId = driver.cpus cpuId := by
  induction cpuSet generalizing driver with
  | nil =>
      obtain rfl := (Prod.mk.inj written).2
      simp
  | cons first cpuSet ih =>
      rw [PMUCtrl.writeRequests] at written
      split at written
      · cases written
      · rename_i bytes packed
        dsimp only at written
        split at written
        · cases written
        · rename_i accepted
          obtain ⟨cpu, counts, cpus⟩ := countsAll_of_pmuWrite wellBuilt packed accepted
          obtain ⟨later, others⟩ := ih written
          rw [cpus] at others
          constructor
          · intro cpuId listed
            by_cases again : cpuId ∈ cpuSet
            · exact later cpuId again
            · obtain rfl : cpuId = first := by simpa [again] using listed
              rw [others cpuId again, Function.update_self]
              exact counts
          · intro cpuId absent
            rw [List.mem_cons, not_or] at absent
            rw [others cpuId absent.2, Function.update_of_ne absent.1]

/-- How an event is counted: the events on one fixed counter share the rings of the first. -/
def CountedOn (eventsDb : EventsDb) (events : List Event) (event : Event) (cpu : Cpu) : Prop :=
  match eventsDb event.uarchName with
  | some (.genericCore core) =>
      ∃ counter ∈ core.validPmc, CountsOn cpu counter core event.user event.kernel
  | some (.fixedCore _ validPmc) => ∃ first,
      events.find? (onFixed eventsDb validPmc) = some first ∧
      CountsFixed cpu validPmc first.user first.kernel ∧
      ((∀ other ∈ events, onFixed eventsDb validPmc other → other = event) → first = event)
  | some (.offCore core) => ∃ counter ∈ core.validPmc, ∃ index code : Nat,
      PmuRequestFactory.eventSelects[index]? = some code ∧
      CountsOn cpu counter (coded core code) event.user event.kernel ∧
      (cpu.registers (offcoreRsp0 + index)).toNat = core.msrValue
  | some .unCore => False
  | none => False

theorem CountsAll.countedOn {eventsDb : EventsDb} {events : List Event} {event : Event} {cpu : Cpu}
    (all : CountsAll eventSet cpu) (requested : Requested eventsDb event eventSet)
    (asked : FixedFrom eventsDb events eventSet)
    (usable : ∀ (index : Nat) (request : GenericPmuRequest),
      eventSet.genericRequests[index]? = some request → index ∈ request.event.validPmc) :
    CountedOn eventsDb events event cpu := by
  unfold Requested at requested
  unfold CountedOn
  cases known : eventsDb event.uarchName with
  | none => rwa [known] at requested
  | some uarchEvent =>
      rw [known] at requested
      cases uarchEvent with
      | genericCore core =>
          obtain ⟨index, found⟩ := List.mem_iff_getElem?.mp requested
          exact ⟨index, usable index _ found, all.generic index _ found⟩
      | fixedCore name validPmc =>
          obtain ⟨request, found, counts⟩ := all.fixed _ requested
          obtain ⟨first, earliest, user, kernel⟩ := asked.first found
          rw [user, kernel] at counts
          refine ⟨first, earliest, counts, fun alone => ?_⟩
          exact alone first (List.mem_of_find?_eq_some earliest) (List.find?_some earliest)
      | offCore core =>
          obtain ⟨index, code, selects, generic, offcore⟩ := requested
          obtain ⟨counter, found⟩ := List.mem_iff_getElem?.mp generic
          exact ⟨counter, usable counter _ found, index, code, selects,
            all.generic counter _ found, all.offcore index _ offcore⟩
      | unCore => exact requested

/-- When `enable` returns, each cpu counts each event, and the other cpus are as they were. -/
theorem enable_counts {eventsDb : EventsDb} {answer : Nat → Answer} {cpuSet : List Nat}
    {events : List Event} {driver next : Driver}
    (enabled : PMUCtrl.enable nrCpuIds fails answer eventsDb cpuSet events driver =
      (.ok eventSet, next)) :
    (∀ cpuId ∈ cpuSet, ∀ event ∈ events, CountedOn eventsDb events event (next.cpus cpuId)) ∧
      ∀ cpuId, cpuId ∉ cpuSet → next.cpus cpuId = driver.cpus cpuId := by
  rw [PMUCtrl.enable] at enabled
  split at enabled
  · cases enabled
  · rename_i built made
    rcases written : PMUCtrl.writeRequests nrCpuIds fails answer built cpuSet driver with
      ⟨cause | done, after⟩
    · rw [written] at enabled
      cases enabled
    · rw [written] at enabled
      obtain ⟨same, rfl⟩ := Prod.mk.inj enabled
      obtain rfl : built = eventSet := Except.ok.inj same
      obtain ⟨counts, others⟩ := writeRequests_spec (built_buildEventSet made) written
      obtain ⟨requested, asked, usable⟩ := requested_buildEventSet made
      exact ⟨fun cpuId member event listed =>
        (counts cpuId member).countedOn (requested event listed) asked usable, others⟩

end Enable

/-- Two events that need the same first counter, an offcore event and a fixed one. -/
def knownEvents : EventsDb := fun uarchName =>
  if uarchName = "MISSES".toList then some (.genericCore { branchMisses with validPmc := [0, 1] })
  else if uarchName = "CYCLES".toList then some (.fixedCore "CYCLES".toList 1)
  else if uarchName = "READS".toList then
    some (.offCore { branchMisses with validPmc := [0], msrValue := 0x3F803C0001 })
  else none

def threeEvents : List Event :=
  [⟨"misses".toList, "MISSES".toList, true, false⟩, ⟨"reads".toList, "READS".toList, true, true⟩,
    ⟨"cycles".toList, "CYCLES".toList, false, true⟩]

theorem enable_counts_threeEvents :
    ∃ eventSet next, PMUCtrl.enable 4 (fun _ _ _ _ => false) (fun _ => ⟨fun _ => true, true⟩)
        knownEvents [0, 2] threeEvents Kernel.idleDriver = (.ok eventSet, next) ∧
      (∀ cpuId ∈ [0, 2], ∀ event ∈ threeEvents,
        CountedOn knownEvents threeEvents event (next.cpus cpuId)) ∧
      ∀ cpuId, cpuId ∉ [0, 2] → next.cpus cpuId = Kernel.idleDriver.cpus cpuId := by
  have returns : (PMUCtrl.enable 4 (fun _ _ _ _ => false) (fun _ => ⟨fun _ => true, true⟩)
      knownEvents [0, 2] threeEvents Kernel.idleDriver).1.toBool = true := by decide +kernel
  rcases enabled : PMUCtrl.enable 4 (fun _ _ _ _ => false) (fun _ => ⟨fun _ => true, true⟩)
    knownEvents [0, 2] threeEvents Kernel.idleDriver with ⟨cause | eventSet, next⟩
  · rw [enabled] at returns
    cases returns
  · exact ⟨eventSet, next, rfl, enable_counts enabled⟩

end Xpedite.Profiler
