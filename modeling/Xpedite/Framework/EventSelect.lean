import Xpedite.Framework.Pmu

/-!
What is counted: the event select register of `EventSelect.h`, as the kernel module writes
it, and the config of a raw perf event, which is laid out like the register.
-/

namespace Xpedite.Framework

/-- `_value`, the other member of the union with the bit fields. -/
def PerfEvtSelReg.value (reg : PerfEvtSelReg) : Nat :=
  reg.eventSelect.toNat + reg.unitMask.toNat * 2 ^ 8 + reg.user.toNat * 2 ^ 16 +
    reg.kernel.toNat * 2 ^ 17 + reg.edgeDetect.toNat * 2 ^ 18 + reg.pinControl.toNat * 2 ^ 19 +
    reg.interruptEn.toNat * 2 ^ 20 + reg.anyThread.toNat * 2 ^ 21 + reg.enable.toNat * 2 ^ 22 +
    reg.invertCMask.toNat * 2 ^ 23 + reg.counterMask.toNat * 2 ^ 24

structure SelectedEvent where
  eventSelect : Nat
  unitMask : Nat
  edgeDetect : Bool
  anyThread : Bool
  invertCMask : Bool
  counterMask : Nat
  deriving DecidableEq

def selectedEvent (config : Nat) : SelectedEvent where
  eventSelect := config % 2 ^ 8
  unitMask := config / 2 ^ 8 % 2 ^ 8
  edgeDetect := config.testBit 18
  anyThread := config.testBit 21
  invertCMask := config.testBit 23
  counterMask := config / 2 ^ 24 % 2 ^ 8

def userBit (config : Nat) : Bool := config.testBit 16

def kernelBit (config : Nat) : Bool := config.testBit 17

/-- The attribute counts what the register value makes the processor count. -/
structure CountsSame (attr : PerfEventAttr) (value : Nat) : Prop where
  raw : attr.type = .raw
  event : selectedEvent attr.config = selectedEvent value
  excludeUser : attr.excludeUser = !userBit value
  excludeKernel : attr.excludeKernel = !kernelBit value

theorem testBit_of_digit {value index : Nat} {bit : Bool}
    (digit : value / 2 ^ index % 2 = bit.toNat) : value.testBit index = bit := by
  rw [Nat.testBit_eq_decide_div_mod_eq, digit]
  cases bit with
  | false => rfl
  | true => rfl

section Register

variable (reg : PerfEvtSelReg)

theorem digits_value :
    reg.value % 2 ^ 8 = reg.eventSelect.toNat ∧
      reg.value / 2 ^ 8 % 2 ^ 8 = reg.unitMask.toNat ∧
      reg.value / 2 ^ 16 % 2 = reg.user.toNat ∧
      reg.value / 2 ^ 17 % 2 = reg.kernel.toNat ∧
      reg.value / 2 ^ 18 % 2 = reg.edgeDetect.toNat ∧
      reg.value / 2 ^ 21 % 2 = reg.anyThread.toNat ∧
      reg.value / 2 ^ 23 % 2 = reg.invertCMask.toNat ∧
      reg.value / 2 ^ 24 % 2 ^ 8 = reg.counterMask.toNat := by
  have eventSelect := reg.eventSelect.toNat_lt
  have unitMask := reg.unitMask.toNat_lt
  have counterMask := reg.counterMask.toNat_lt
  have user := reg.user.toNat_le
  have kernel := reg.kernel.toNat_le
  have edgeDetect := reg.edgeDetect.toNat_le
  have pinControl := reg.pinControl.toNat_le
  have interruptEn := reg.interruptEn.toNat_le
  have anyThread := reg.anyThread.toNat_le
  have enable := reg.enable.toNat_le
  have invertCMask := reg.invertCMask.toNat_le
  rw [PerfEvtSelReg.value]
  refine ⟨?_, ?_, ?_, ?_, ?_, ?_, ?_, ?_⟩ <;> omega

theorem selectedEvent_value :
    selectedEvent reg.value =
      ⟨reg.eventSelect.toNat, reg.unitMask.toNat, reg.edgeDetect, reg.anyThread, reg.invertCMask,
        reg.counterMask.toNat⟩ := by
  obtain ⟨eventSelect, unitMask, -, -, edgeDetect, anyThread, invertCMask, counterMask⟩ :=
    digits_value reg
  rw [selectedEvent, eventSelect, unitMask, counterMask, testBit_of_digit edgeDetect,
    testBit_of_digit anyThread, testBit_of_digit invertCMask]

theorem userBit_value : userBit reg.value = reg.user :=
  testBit_of_digit (digits_value reg).2.2.1

theorem kernelBit_value : kernelBit reg.value = reg.kernel :=
  testBit_of_digit (digits_value reg).2.2.2.1

/-- The config of an attribute is that of a register with nothing else set. -/
theorem selectedEvent_config :
    selectedEvent (gpEventAttr reg).config =
      ⟨reg.eventSelect.toNat, reg.unitMask.toNat, false, false, false, 0⟩ := by
  have eventSelect := reg.eventSelect.toNat_lt
  have unitMask := reg.unitMask.toNat_lt
  have digit : ∀ index, 16 ≤ index → (gpEventAttr reg).config / 2 ^ index = 0 := by
    intro index high
    apply Nat.div_eq_of_lt
    have narrow : reg.unitMask.toNat * 2 ^ 8 + reg.eventSelect.toNat < 2 ^ 16 := by omega
    exact Nat.lt_of_lt_of_le narrow (Nat.pow_le_pow_right (by decide) high)
  have unset : ∀ index, 16 ≤ index → (gpEventAttr reg).config.testBit index = false := by
    intro index high
    apply testBit_of_digit
    rw [digit index high]
    rfl
  rw [selectedEvent, unset 18 (by decide), unset 21 (by decide), unset 23 (by decide),
    digit 24 (by decide), SelectedEvent.mk.injEq, gpEventAttr]
  refine ⟨?_, ?_, rfl, rfl, rfl, rfl⟩
  · dsimp only
    omega
  · dsimp only
    omega

theorem countsSame_gpEventAttr_iff :
    CountsSame (gpEventAttr reg) reg.value ↔
      reg.edgeDetect = false ∧ reg.anyThread = false ∧ reg.invertCMask = false ∧
        reg.counterMask = 0 := by
  constructor
  · intro same
    have event := same.event
    rw [selectedEvent_config, selectedEvent_value, SelectedEvent.mk.injEq] at event
    obtain ⟨-, -, edgeDetect, anyThread, invertCMask, counterMask⟩ := event
    exact ⟨edgeDetect.symm, anyThread.symm, invertCMask.symm,
      UInt8.toNat_inj.mp counterMask.symm⟩
  · rintro ⟨edgeDetect, anyThread, invertCMask, counterMask⟩
    refine ⟨rfl, ?_, ?_, ?_⟩
    · rw [selectedEvent_config, selectedEvent_value, edgeDetect, anyThread, invertCMask,
        counterMask]
      rfl
    · rw [userBit_value]
      rfl
    · rw [kernelBit_value]
      rfl

end Register

theorem getElem_firstOf {α : Type} {capacity : Nat} (events : Fin capacity → α) {count : UInt8}
    {index : Nat} (listed : index < count.toNat) (fits : index < capacity) :
    (firstOf events count)[index]? = some (events ⟨index, fits⟩) := by
  rw [firstOf, List.getElem?_take_of_lt listed, List.getElem?_ofFn, dif_pos fits]

theorem flag_eq_false_iff (field : UInt8) : (field != 0) = false ↔ field = 0 := by
  simp

/--
Entry `index` of an accepted request makes a perf event and the processor count the same
exactly when it asks for none of the modifiers that have no place in sixteen bits.
-/
theorem countsSame_iff {request : PMUCtlRequest} {eventSet : EventSet}
    (built : buildEventSet request = some eventSet) (index : Fin 8)
    (listed : index.val < request.gpEvtCount.toNat) :
    ∃ attr reg, (buildPerfEventAttrs eventSet)[index.val]? = some attr ∧
      eventSet.gpEvtSel[index.val]? = some reg ∧
      reg = buildPerfEvtSelBitmask (request.gpEvents index) ∧
      (CountsSame attr reg.value ↔
        (request.gpEvents index).edgeDetect = 0 ∧ (request.gpEvents index).anyThread = 0 ∧
          (request.gpEvents index).invertCMask = 0 ∧ (request.gpEvents index).counterMask = 0) := by
  have accepted := Control.accepted_of_buildEventSet built
  have entry : eventSet.gpEvtSel[index.val]? =
      some (buildPerfEvtSelBitmask (request.gpEvents index)) := by
    rw [accepted.gp, List.getElem?_map, getElem_firstOf request.gpEvents listed index.isLt]
    rfl
  have attr : (buildPerfEventAttrs eventSet)[index.val]? =
      some (gpEventAttr (buildPerfEvtSelBitmask (request.gpEvents index))) := by
    have inside : index.val < (eventSet.gpEvtSel.map gpEventAttr).length := by
      rw [List.length_map]
      exact (List.getElem?_eq_some_iff.mp entry).1
    simp only [buildPerfEventAttrs, List.append_assoc]
    rw [List.getElem?_append_left inside, List.getElem?_map, entry]
    rfl
  refine ⟨_, _, attr, entry, rfl, ?_⟩
  rw [countsSame_gpEventAttr_iff]
  exact and_congr (flag_eq_false_iff _) (and_congr (flag_eq_false_iff _)
    (and_congr (flag_eq_false_iff _) Iff.rfl))

def fixedUnused : Fin 3 → PMUFixedEvent := fun _ => ⟨0, 0, 0⟩

def requestOfOne (event : PMUGpEvent) : PMUCtlRequest where
  cpu := 0
  fixedEvtCount := 0
  gpEvtCount := 1
  offcoreEvtCount := 0
  fixedEvents := fixedUnused
  gpEvents := fun _ => event
  offcoreEvents := fun _ => 0

def uopsIssued : PMUGpEvent := ⟨0x0E, 0x01, 1, 1, 0, 0, 0, 0⟩

def stallCycles : PMUGpEvent := { uopsIssued with invertCMask := 1, counterMask := 1 }

theorem countsSame_uopsIssued :
    ∃ eventSet attr reg, buildEventSet (requestOfOne uopsIssued) = some eventSet ∧
      (buildPerfEventAttrs eventSet)[0]? = some attr ∧ eventSet.gpEvtSel[0]? = some reg ∧
      CountsSame attr reg.value := by
  obtain ⟨attr, reg, first, entry, -, same⟩ :=
    @countsSame_iff (requestOfOne uopsIssued) _ rfl 0 (by decide)
  exact ⟨_, attr, reg, rfl, first, entry, same.mpr (by decide)⟩

/-- A perf event counts the issued micro operations instead. -/
theorem stallCycles_counted_as_uopsIssued :
    ∃ eventSet attr reg, buildEventSet (requestOfOne stallCycles) = some eventSet ∧
      (buildPerfEventAttrs eventSet)[0]? = some attr ∧ eventSet.gpEvtSel[0]? = some reg ∧
      reg.value = 0x01C3010E ∧ attr.config = 0x010E ∧ ¬CountsSame attr reg.value := by
  refine ⟨_, _, _, rfl, rfl, rfl, rfl, rfl, ?_⟩
  intro same
  have event := same.event
  revert event
  decide

end Xpedite.Framework
