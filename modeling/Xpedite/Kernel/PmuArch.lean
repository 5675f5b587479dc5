import Xpedite.Kernel.PmuArchCore

/-!
The registers of a cpu as lists of writes: `pmuClearEventSet` and `pmuEnableEventSet` do the
writes of a list one after the other, up to the first that fails.
-/

namespace Xpedite.Kernel

open Xpedite.Lib

def clearWrites (gpEvtCount : Nat) : List (Nat × UInt64) :=
  [(perfGlobalCtrl, 0), (pebsEnable, 0), (fixedCtrCtrl, 0), (fixedCtr0, 0), (fixedCtr1, 0),
    (fixedCtr2, 0)] ++
  (List.range gpEvtCount).flatMap (fun i => [(perfEvtSel0 + i, 0), (pmc0 + i, 0)]) ++
  (List.range offcoreEventMax).map fun i => (offcoreRsp0 + i, 0)

def enableWrites (eventSet : EventSet) : List (Nat × UInt64) :=
  eventSet.gpEvtSel.zipIdx.map (fun (evtSel, i) => (perfEvtSel0 + i, joined evtSel 0)) ++
  eventSet.offcoreEvtSel.zipIdx.map (fun (evtSel, i) =>
    (offcoreRsp0 + i, joined evtSel.toUInt32 (evtSel >>> 32).toUInt32)) ++
  [(fixedCtrCtrl, joined eventSet.fixedEvtSel 0),
    (perfGlobalCtrl, joined (UInt32.ofNat (2 ^ eventSet.gpEvtSel.length - 1))
      eventSet.fixedEvtGlobalCtl.toUInt32)]

/-- None of the writes fails, the first of which is made after `calls` others. -/
def Unfailing (fails : Failures) : Nat → List (Nat × UInt64) → Prop
  | _, [] => True
  | calls, write :: writes => fails calls write.1 write.2 = false ∧ Unfailing fails (calls + 1) writes

section Pce

theorem joined_zero : joined 0 0 = 0 := by decide

theorem or_and_self (word bits : UInt64) : (word ||| bits) &&& bits = bits := by
  apply UInt64.toBitVec_inj.mp
  rw [UInt64.toBitVec_and, UInt64.toBitVec_or]
  ext i
  rw [BitVec.getElem_and, BitVec.getElem_or]
  cases bits.toBitVec[i] <;> simp

theorem pce_enablePCE (cpu : Cpu) : (enablePCE cpu).pce = true := by
  rw [Cpu.pce, enablePCE, or_and_self]
  decide

theorem pce_clearPCE (cpu : Cpu) : (clearPCE cpu).pce = false := by
  rw [Cpu.pce, clearPCE, UInt64.and_assoc, UInt64.not_and_self, UInt64.and_zero]
  decide

end Pce

section Store

variable (fails : Failures)

def storeAll : List (Nat × UInt64) → Cpu → Outcome Cpu := attemptAll (store fails)

theorem wrmsrSafe_eq (msr : Nat) (low high : UInt32) (cpu : Cpu) :
    wrmsrSafe fails msr low high cpu = storeAll fails [(msr, joined low high)] cpu :=
  (attemptAll_singleton _ cpu).symm

theorem storeAll_append (first second : List (Nat × UInt64)) (cpu : Cpu) :
    storeAll fails (first ++ second) cpu = (storeAll fails first cpu).ifOk (storeAll fails second) :=
  attemptAll_append first second cpu

theorem resetFixedCounters_eq (cpu : Cpu) :
    resetFixedCounters fails cpu =
      storeAll fails [(fixedCtrCtrl, 0), (fixedCtr0, 0), (fixedCtr1, 0), (fixedCtr2, 0)] cpu := by
  have parts : [(fixedCtrCtrl, 0), (fixedCtr0, 0), (fixedCtr1, 0), (fixedCtr2, (0 : UInt64))] =
      [(fixedCtrCtrl, 0)] ++ [(fixedCtr0, 0)] ++ [(fixedCtr1, 0)] ++ [(fixedCtr2, 0)] := rfl
  rw [resetFixedCounters, parts, storeAll_append, storeAll_append, storeAll_append]
  simp only [funext (wrmsrSafe_eq fails _ 0 0), joined_zero]

theorem resetGpCounters_eq (gpEvtCount : Nat) (cpu : Cpu) :
    resetGpCounters fails gpEvtCount cpu =
      storeAll fails ((List.range gpEvtCount).flatMap fun i => [(perfEvtSel0 + i, 0), (pmc0 + i, 0)])
        cpu := by
  have pair : ∀ i, (fun cpu => (wrmsrSafe fails (perfEvtSel0 + i) 0 0 cpu).ifOk
      (wrmsrSafe fails (pmc0 + i) 0 0)) =
      storeAll fails ([(perfEvtSel0 + i, 0)] ++ [(pmc0 + i, 0)]) := by
    intro i
    funext cpu
    rw [storeAll_append, funext (wrmsrSafe_eq fails _ 0 0), funext (wrmsrSafe_eq fails _ 0 0),
      joined_zero]
  rw [resetGpCounters, funext pair, storeAll, attemptAll_flatMap]
  rfl

theorem resetOffcoreCounters_eq (cpu : Cpu) :
    resetOffcoreCounters fails cpu =
      storeAll fails ((List.range offcoreEventMax).map fun i => (offcoreRsp0 + i, 0)) cpu := by
  rw [resetOffcoreCounters, storeAll, attemptAll_map]
  rfl

theorem pmuClearEventSet_eq (gpEvtCount : Nat) (cpu : Cpu) :
    pmuClearEventSet fails gpEvtCount cpu = storeAll fails (clearWrites gpEvtCount) cpu := by
  have parts : clearWrites gpEvtCount = [(perfGlobalCtrl, 0)] ++ [(pebsEnable, 0)] ++
      [(fixedCtrCtrl, 0), (fixedCtr0, 0), (fixedCtr1, 0), (fixedCtr2, 0)] ++
      (List.range gpEvtCount).flatMap (fun i => [(perfEvtSel0 + i, 0), (pmc0 + i, 0)]) ++
      (List.range offcoreEventMax).map fun i => (offcoreRsp0 + i, 0) := rfl
  rw [parts, storeAll_append, storeAll_append, storeAll_append, storeAll_append, pmuClearEventSet,
    resetGlobalCtl, resetPEBSEnable, wrmsrSafe_eq, funext (wrmsrSafe_eq fails pebsEnable 0 0),
    funext (resetFixedCounters_eq fails), funext (resetGpCounters_eq fails gpEvtCount),
    funext (resetOffcoreCounters_eq fails), joined_zero]

theorem enable_eq (eventSet : EventSet) (cpu : Cpu) :
    (((enableGpCounters fails eventSet cpu).ifOk (enableOffcoreCounters fails eventSet)).ifOk
        (enableFixedCtrCtl fails eventSet)).ifOk
      (enableGlobalCtl fails (UInt32.ofNat (2 ^ eventSet.gpEvtSel.length - 1))
        eventSet.fixedEvtGlobalCtl.toUInt32) =
      storeAll fails (enableWrites eventSet) cpu := by
  have parts : ∀ first second third fourth : List (Nat × UInt64),
      storeAll fails (first ++ second ++ (third ++ fourth)) cpu =
        (((storeAll fails first cpu).ifOk (storeAll fails second)).ifOk (storeAll fails third)).ifOk
          (storeAll fails fourth) := by
    intro first second third fourth
    rw [← List.append_assoc, storeAll_append, storeAll_append, storeAll_append]
  rw [enableWrites, ← List.singleton_append, parts, enableFixedCtrCtl, enableGlobalCtl,
    funext (wrmsrSafe_eq fails fixedCtrCtrl _ _), funext (wrmsrSafe_eq fails perfGlobalCtrl _ _),
    enableGpCounters, storeAll, attemptAll_map, funext (attemptAll_map _ _)]
  rfl

theorem length_history_store (write : Nat × UInt64) (cpu : Cpu) :
    (store fails write cpu).state.history.length = cpu.history.length + 1 := by
  rw [store]
  split
  all_goals rfl

theorem err_store (write : Nat × UInt64) (cpu : Cpu) :
    (store fails write cpu).err = fails cpu.history.length write.1 write.2 := by
  rw [store]
  split
  case isTrue failed => exact failed.symm
  case isFalse passed => exact (Bool.eq_false_of_not_eq_true passed).symm

theorem err_storeAll_iff (writes : List (Nat × UInt64)) (cpu : Cpu) :
    (storeAll fails writes cpu).err = false ↔ Unfailing fails cpu.history.length writes := by
  induction writes generalizing cpu with
  | nil => exact ⟨fun _ => trivial, fun _ => rfl⟩
  | cons write writes ih =>
      rw [storeAll, attemptAll, Outcome.ifOk, err_store, Unfailing]
      by_cases failed : fails cpu.history.length write.1 write.2 = true
      · rw [if_pos failed, err_store, failed]
        simp
      · rw [if_neg failed, ← storeAll, ih, length_history_store]
        simp [failed]

theorem cr4_storeAll (writes : List (Nat × UInt64)) (cpu : Cpu) :
    (storeAll fails writes cpu).state.cr4 = cpu.cr4 := by
  refine @attemptAll_keeps _ _ (store fails) (fun state => state.cr4 = cpu.cr4) writes
    (fun write _ state same => ?_) cpu rfl
  rw [store]
  split
  all_goals exact same

theorem registers_storeAll_eq_zero {writes : List (Nat × UInt64)}
    (zeros : ∀ write ∈ writes, write.2 = 0) {cpu : Cpu}
    (passed : (storeAll fails writes cpu).err = false) {msr : Nat}
    (start : cpu.registers msr = 0 ∨ msr ∈ writes.map Prod.fst) :
    (storeAll fails writes cpu).state.registers msr = 0 := by
  induction writes generalizing cpu with
  | nil => exact start.resolve_right List.not_mem_nil
  | cons write writes ih =>
      obtain ⟨first, value⟩ := write
      obtain rfl : value = 0 := zeros (first, value) List.mem_cons_self
      rw [err_storeAll_iff, Unfailing] at passed
      have stored : store fails (first, 0) cpu = ⟨false, { cpu with
          registers := Function.update cpu.registers first 0
          history := .wrmsr first 0 false :: cpu.history }⟩ :=
        if_neg (by rw [passed.1]; exact Bool.false_ne_true)
      rw [storeAll, attemptAll, stored]
      refine ih (fun write listed => zeros write (List.mem_cons_of_mem _ listed))
        ((err_storeAll_iff fails writes _).mpr passed.2) ?_
      by_cases same : msr = first
      · subst same
        exact .inl (Function.update_self _ _ _)
      · refine start.imp (fun zero => ?_) fun listed => ?_
        · exact (Function.update_of_ne same _ _).trans zero
        · exact (List.mem_cons.mp listed).resolve_left same

end Store

def Does (allowed : Action → Prop) (before after : Cpu) : Prop :=
  ∃ done, after.history = done ++ before.history ∧ ∀ action ∈ done, allowed action

section Does

variable {allowed : Action → Prop}

theorem Does.refl (cpu : Cpu) : Does allowed cpu cpu :=
  ⟨[], rfl, fun _ none => by cases none⟩

theorem Does.trans {before between after : Cpu} (first : Does allowed before between)
    (second : Does allowed between after) : Does allowed before after := by
  obtain ⟨done, toBetween, allFine⟩ := first
  obtain ⟨more, toAfter, moreFine⟩ := second
  refine ⟨more ++ done, by rw [toAfter, toBetween, List.append_assoc], ?_⟩
  intro action listed
  exact (List.mem_append.mp listed).elim (moreFine action) (allFine action)

theorem Does.mono {other : Action → Prop} {before after : Cpu} (does : Does allowed before after)
    (weaker : ∀ action, allowed action → other action) : Does other before after := by
  obtain ⟨done, toAfter, allFine⟩ := does
  exact ⟨done, toAfter, fun action listed => weaker action (allFine action listed)⟩

theorem does_storeAll (fails : Failures) {writes : List (Nat × UInt64)}
    (fine : ∀ write ∈ writes, ∀ failed, allowed (.wrmsr write.1 write.2 failed)) (cpu : Cpu) :
    Does allowed cpu (storeAll fails writes cpu).state := by
  refine @attemptAll_keeps _ _ (store fails) (Does allowed cpu) writes
    (fun write listed state does => ?_) cpu (.refl cpu)
  refine does.trans ?_
  rw [store]
  split
  · exact ⟨[_], rfl, by simpa using fine write listed true⟩
  · exact ⟨[_], rfl, by simpa using fine write listed false⟩

end Does

section EventSets

variable (fails : Failures)

theorem value_of_mem_clearWrites {gpEvtCount : Nat} {write : Nat × UInt64}
    (listed : write ∈ clearWrites gpEvtCount) : write.2 = 0 := by
  rw [clearWrites, List.mem_append, List.mem_append, List.mem_flatMap, List.mem_map] at listed
  rcases listed with (fixed | ⟨i, _, pair⟩) | ⟨i, _, rfl⟩
  · simp only [List.mem_cons, List.not_mem_nil, or_false] at fixed
    rcases fixed with rfl | rfl | rfl | rfl | rfl | rfl
    all_goals rfl
  · simp only [List.mem_cons, List.not_mem_nil, or_false] at pair
    rcases pair with rfl | rfl
    all_goals rfl
  · rfl

theorem mem_clearWrites_iff (gpEvtCount msr : Nat) :
    msr ∈ (clearWrites gpEvtCount).map Prod.fst ↔
      msr ∈ [perfGlobalCtrl, pebsEnable, fixedCtrCtrl, fixedCtr0, fixedCtr1, fixedCtr2] ∨
        (∃ i < gpEvtCount, msr = perfEvtSel0 + i ∨ msr = pmc0 + i) ∨
        ∃ i < offcoreEventMax, msr = offcoreRsp0 + i := by
  have pairs : ((List.range gpEvtCount).flatMap fun i =>
      [(perfEvtSel0 + i, (0 : UInt64)), (pmc0 + i, 0)]).map Prod.fst =
      (List.range gpEvtCount).flatMap fun i => [perfEvtSel0 + i, pmc0 + i] := List.map_flatMap
  rw [clearWrites, List.map_append, List.map_append, pairs, List.map_map, List.mem_append,
    List.mem_append, or_assoc]
  simp [List.mem_flatMap, eq_comm]

theorem mem_clearWrites_mono {fewer more msr : Nat} (le : fewer ≤ more)
    (listed : msr ∈ (clearWrites fewer).map Prod.fst) : msr ∈ (clearWrites more).map Prod.fst := by
  rw [mem_clearWrites_iff] at listed ⊢
  refine listed.imp_right (Or.imp_left ?_)
  rintro ⟨i, bound, isMsr⟩
  exact ⟨i, by omega, isMsr⟩

/-- What is programmed is among what a reset for the same number of events clears. -/
theorem mem_clearWrites_of_enableWrites {eventSet : EventSet}
    (offcore : eventSet.offcoreEvtSel.length ≤ offcoreEventMax) {write : Nat × UInt64}
    (listed : write ∈ enableWrites eventSet) :
    write.1 ∈ (clearWrites eventSet.gpEvtSel.length).map Prod.fst := by
  rw [mem_clearWrites_iff]
  rw [enableWrites, List.mem_append, List.mem_append, List.mem_map, List.mem_map] at listed
  rcases listed with (⟨⟨evtSel, i⟩, isGp, rfl⟩ | ⟨⟨evtSel, i⟩, isOffcore, rfl⟩) | isControl
  · have bound := List.snd_lt_of_mem_zipIdx isGp
    exact .inr (.inl ⟨i, by omega, .inl rfl⟩)
  · have bound := List.snd_lt_of_mem_zipIdx isOffcore
    exact .inr (.inr ⟨i, by omega, rfl⟩)
  · simp only [List.mem_cons, List.not_mem_nil, or_false] at isControl
    rcases isControl with rfl | rfl
    all_goals exact .inl (by simp)

theorem pmuEnableEventSet_eq {eventSet : EventSet} (fits : eventSet.gpEvtSel.length ≤ gpEventMax)
    (cpu : Cpu) :
    pmuEnableEventSet fails eventSet cpu =
      let cleared := storeAll fails (clearWrites eventSet.gpEvtSel.length) cpu
      if cleared.err then cleared
      else
        let enabled := storeAll fails (enableWrites eventSet) cleared.state
        if enabled.err then
          ⟨true, (storeAll fails (clearWrites eventSet.gpEvtSel.length) enabled.state).state⟩
        else enabled := by
  rw [pmuEnableEventSet]
  simp only [if_neg (Nat.not_lt.mpr fits), pmuClearEventSet_eq, enable_eq]

def eventSetWrites (eventSet : EventSet) : List (Nat × UInt64) :=
  clearWrites eventSet.gpEvtSel.length ++ enableWrites eventSet

theorem err_pmuEnableEventSet_iff {eventSet : EventSet}
    (fits : eventSet.gpEvtSel.length ≤ gpEventMax) (cpu : Cpu) :
    (pmuEnableEventSet fails eventSet cpu).err = false ↔
      Unfailing fails cpu.history.length (eventSetWrites eventSet) := by
  rw [← err_storeAll_iff, eventSetWrites, storeAll_append, pmuEnableEventSet_eq fails fits,
    Outcome.ifOk]
  simp only
  split
  · rfl
  · split
    case isTrue failed => simp [failed]
    case isFalse => rfl

theorem cr4_pmuEnableEventSet (eventSet : EventSet) (cpu : Cpu) :
    (pmuEnableEventSet fails eventSet cpu).state.cr4 = cpu.cr4 := by
  by_cases fits : eventSet.gpEvtSel.length ≤ gpEventMax
  · rw [pmuEnableEventSet_eq fails fits]
    simp only
    split
    · exact cr4_storeAll fails _ cpu
    · split
      all_goals simp only [cr4_storeAll]
  · rw [pmuEnableEventSet]
    simp only [if_pos (Nat.not_le.mp fits)]

theorem does_pmuEnableEventSet {allowed : Action → Prop} {eventSet : EventSet}
    (fine : ∀ write ∈ eventSetWrites eventSet, ∀ failed, allowed (.wrmsr write.1 write.2 failed))
    (cpu : Cpu) : Does allowed cpu (pmuEnableEventSet fails eventSet cpu).state := by
  by_cases fits : eventSet.gpEvtSel.length ≤ gpEventMax
  · have cleared := @does_storeAll allowed fails _ fun write listed =>
      fine write (List.mem_append_left (enableWrites eventSet) listed)
    have enabled := @does_storeAll allowed fails _ fun write listed =>
      fine write (List.mem_append_right (clearWrites eventSet.gpEvtSel.length) listed)
    rw [pmuEnableEventSet_eq fails fits]
    simp only
    split
    · exact cleared cpu
    · split
      · exact ((cleared cpu).trans (enabled _)).trans (cleared _)
      · exact (cleared cpu).trans (enabled _)
  · rw [pmuEnableEventSet]
    simp only [if_pos (Nat.not_le.mp fits)]
    exact .refl cpu

end EventSets

end Xpedite.Kernel
