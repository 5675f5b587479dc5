import Mathlib.Data.List.Nodup
import Xpedite.Kernel.PmuSession

/-!
Programming of an event set as one operation, where a register refuses a value each time or
never.  What the roll-back writes is what the reset at the start wrote already, so that it
goes through, and it covers all that was programmed in between.
-/

namespace Xpedite.Kernel

open Xpedite.Lib

/-- Whether a write fails is told by the register and the value, and not by the calls before. -/
def refusing (refuses : Nat → UInt64 → Bool) : Failures := fun _ => refuses

def Wrote (before after : Cpu) (msr : Nat) : Prop :=
  ∃ value, .wrmsr msr value false ∈ doneSince before after

structure Programmed (eventSet : EventSet) (cpu : Cpu) : Prop where
  evtSel : ∀ i evtSel, eventSet.gpEvtSel[i]? = some evtSel →
    cpu.registers (perfEvtSel0 + i) = evtSel.toUInt64
  offcore : ∀ i evtSel, eventSet.offcoreEvtSel[i]? = some evtSel →
    cpu.registers (offcoreRsp0 + i) = evtSel
  fixed : cpu.registers fixedCtrCtrl = eventSet.fixedEvtSel.toUInt64
  global : cpu.registers perfGlobalCtrl =
    (eventSet.fixedEvtGlobalCtl.toUInt64 <<< 32) ||| UInt64.ofNat (2 ^ eventSet.gpEvtSel.length - 1)

section Words

theorem joined_low (low : UInt32) : joined low 0 = low.toUInt64 := by
  rw [joined]
  simp

theorem joined_halves (word : UInt64) : joined word.toUInt32 (word >>> 32).toUInt32 = word := by
  apply UInt64.toNat_inj.mp
  have bound := word.toNat_lt
  have low : word.toNat % 2 ^ 32 < 2 ^ 32 := Nat.mod_lt _ (by decide)
  rw [joined, UInt64.toNat_or, UInt64.toNat_shiftLeft]
  simp only [UInt32.toNat_toUInt64, UInt64.toNat_toUInt32, UInt64.toNat_shiftRight,
    UInt64.reduceToNat, Nat.reduceMod]
  have high : word.toNat >>> 32 % 2 ^ 32 = word.toNat / 2 ^ 32 := by
    rw [Nat.shiftRight_eq_div_pow, Nat.mod_eq_of_lt (by omega)]
  rw [high, Nat.shiftLeft_eq, Nat.mod_eq_of_lt (by omega), ← Nat.shiftLeft_eq,
    ← Nat.shiftLeft_add_eq_or_of_lt low, Nat.shiftLeft_eq]
  omega

theorem joined_global (count : Nat) (few : count ≤ 8) (high : UInt8) :
    joined (UInt32.ofNat (2 ^ count - 1)) high.toUInt32 =
      (high.toUInt64 <<< 32) ||| UInt64.ofNat (2 ^ count - 1) := by
  have small : 2 ^ count ≤ 2 ^ 8 := Nat.pow_le_pow_right (by omega) few
  rw [joined, UInt8.toUInt64_toUInt32, UInt32.toUInt64_ofNat' (by rw [UInt32.size]; omega)]

end Words

section Writes

variable (fails : Failures)

theorem unfailing_congr {refuses : Nat → UInt64 → Bool} {writes : List (Nat × UInt64)}
    {calls : Nat} :
    Unfailing (refusing refuses) calls writes ↔ ∀ write ∈ writes, refuses write.1 write.2 = false := by
  induction writes generalizing calls with
  | nil => simp [Unfailing]
  | cons write writes ih => rw [Unfailing, ih, List.forall_mem_cons]; rfl

theorem registers_storeAll_of_wrote {writes : List (Nat × UInt64)}
    (zeros : ∀ write ∈ writes, write.2 = 0) (cpu : Cpu) {msr : Nat}
    (wrote : Wrote cpu (storeAll fails writes cpu).state msr) :
    (storeAll fails writes cpu).state.registers msr = 0 := by
  have kept := @attemptAll_keeps _ _ (store fails)
    (fun state => ∃ done, state.history = done ++ cpu.history ∧
      ∀ msr value, .wrmsr msr value false ∈ done → state.registers msr = 0)
    writes ?_ cpu ⟨[], rfl, fun _ _ none => absurd none List.not_mem_nil⟩
  · obtain ⟨done, extended, zeroed⟩ := kept
    obtain ⟨value, listed⟩ := wrote
    rw [storeAll, doneSince_eq extended] at listed
    exact zeroed msr value listed
  · rintro ⟨first, word⟩ listed state ⟨done, extended, zeroed⟩
    obtain rfl : word = 0 := zeros (first, word) listed
    rw [store]
    split
    case isTrue =>
      refine ⟨.wrmsr first 0 true :: done, by rw [extended]; rfl, fun other value member => ?_⟩
      exact zeroed other value (by simpa using member)
    case isFalse =>
      refine ⟨.wrmsr first 0 false :: done, by rw [extended]; rfl, fun other value member => ?_⟩
      by_cases same : other = first
      · rw [same]
        exact Function.update_self _ _ _
      · refine (Function.update_of_ne same _ _).trans (zeroed other value ?_)
        simpa [same] using member

theorem registers_storeAll_of_not_mem {writes : List (Nat × UInt64)} {msr : Nat}
    (other : msr ∉ writes.map Prod.fst) (cpu : Cpu) :
    (storeAll fails writes cpu).state.registers msr = cpu.registers msr := by
  refine @attemptAll_keeps _ _ (store fails) (fun state => state.registers msr = cpu.registers msr)
    writes (fun write listed state same => ?_) cpu rfl
  have differ : msr ≠ write.1 := fun eq => other (eq ▸ List.mem_map_of_mem listed)
  rw [store]
  split
  case isTrue => exact same
  case isFalse => exact (Function.update_of_ne differ _ _).trans same

theorem registers_storeAll {writes : List (Nat × UInt64)} (distinct : (writes.map Prod.fst).Nodup)
    {cpu : Cpu} (passed : (storeAll fails writes cpu).err = false) :
    ∀ write ∈ writes, (storeAll fails writes cpu).state.registers write.1 = write.2 := by
  induction writes generalizing cpu with
  | nil => exact fun _ listed => absurd listed List.not_mem_nil
  | cons first writes ih =>
      obtain ⟨apart, distinct⟩ := List.nodup_cons.mp distinct
      have unfailing := (err_storeAll_iff fails (first :: writes) cpu).mp passed
      rw [storeAll, attemptAll, Outcome.ifOk, err_store, if_neg (by rw [unfailing.1]; decide)]
        at passed ⊢
      intro write listed
      rcases List.mem_cons.mp listed with rfl | later
      · refine (registers_storeAll_of_not_mem fails apart _).trans ?_
        rw [store, if_neg (by rw [unfailing.1]; decide)]
        exact Function.update_self _ _ _
      · exact ih distinct passed write later

end Writes

section EventSets

variable {eventSet : EventSet}

theorem registers_enableWrites (eventSet : EventSet) :
    (enableWrites eventSet).map Prod.fst =
      (List.range' 0 eventSet.gpEvtSel.length).map (perfEvtSel0 + ·) ++
        (List.range' 0 eventSet.offcoreEvtSel.length).map (offcoreRsp0 + ·) ++
        [fixedCtrCtrl, perfGlobalCtrl] := by
  simp only [enableWrites, List.map_append, List.map_map, ← List.zipIdx_map_snd]
  rfl

theorem nodup_enableWrites (fits : eventSet.gpEvtSel.length ≤ gpEventMax)
    (offcore : eventSet.offcoreEvtSel.length ≤ offcoreEventMax) :
    ((enableWrites eventSet).map Prod.fst).Nodup := by
  rw [gpEventMax] at fits
  rw [offcoreEventMax] at offcore
  have apart : ∀ (base count : Nat), ((List.range' 0 count).map (base + ·)).Nodup :=
    fun base count => List.Nodup.map (fun _ _ same => Nat.add_left_cancel same) List.nodup_range'
  rw [registers_enableWrites, List.nodup_append, List.nodup_append]
  refine ⟨⟨apart _ _, apart _ _, ?_⟩, by decide, ?_⟩
  · intro first isGp second isOffcore
    obtain ⟨i, bound, rfl⟩ := List.mem_map.mp isGp
    obtain ⟨j, -, rfl⟩ := List.mem_map.mp isOffcore
    rw [List.mem_range'_1] at bound
    rw [perfEvtSel0, offcoreRsp0]
    omega
  · intro first isCounter second isControl
    simp only [List.mem_append, List.mem_map, List.mem_range'_1] at isCounter
    simp only [List.mem_cons, List.not_mem_nil, or_false, fixedCtrCtrl, perfGlobalCtrl] at isControl
    rcases isCounter with ⟨i, bound, rfl⟩ | ⟨i, bound, rfl⟩
    · rw [perfEvtSel0]
      omega
    · rw [offcoreRsp0]
      omega

theorem Programmed.of_writes {cpu : Cpu} (fits : eventSet.gpEvtSel.length ≤ gpEventMax)
    (written : ∀ write ∈ enableWrites eventSet, cpu.registers write.1 = write.2) :
    Programmed eventSet cpu where
  evtSel := by
    intro i evtSel requested
    have listed : (perfEvtSel0 + i, joined evtSel 0) ∈ enableWrites eventSet := by
      refine List.mem_append_left _ (List.mem_append_left _ (List.mem_map.mpr ⟨(evtSel, i), ?_, rfl⟩))
      exact List.mem_zipIdx_iff_getElem?.mpr requested
    rw [written _ listed, joined_low]
  offcore := by
    intro i evtSel requested
    have listed : (offcoreRsp0 + i, joined evtSel.toUInt32 (evtSel >>> 32).toUInt32) ∈
        enableWrites eventSet := by
      refine List.mem_append_left _ (List.mem_append_right _ (List.mem_map.mpr ⟨(evtSel, i), ?_, rfl⟩))
      exact List.mem_zipIdx_iff_getElem?.mpr requested
    rw [written _ listed, joined_halves]
  fixed := by
    rw [written (fixedCtrCtrl, joined eventSet.fixedEvtSel 0)
      (List.mem_append_right _ List.mem_cons_self), joined_low]
  global := by
    rw [written (perfGlobalCtrl, joined (UInt32.ofNat (2 ^ eventSet.gpEvtSel.length - 1))
      eventSet.fixedEvtGlobalCtl.toUInt32)
      (List.mem_append_right _ (List.mem_cons_of_mem _ List.mem_cons_self)),
      joined_global _ fits]

theorem pmuEnableEventSet_of_gt (fails : Failures) (tooMany : gpEventMax < eventSet.gpEvtSel.length)
    (cpu : Cpu) : pmuEnableEventSet fails eventSet cpu = ⟨true, cpu⟩ := by
  rw [pmuEnableEventSet]
  exact if_pos tooMany

theorem mem_clearWrites_of_wrote (fails : Failures)
    (offcore : eventSet.offcoreEvtSel.length ≤ offcoreEventMax) {cpu : Cpu} {msr : Nat}
    (wrote : Wrote cpu (pmuEnableEventSet fails eventSet cpu).state msr) :
    msr ∈ (clearWrites eventSet.gpEvtSel.length).map Prod.fst := by
  obtain ⟨value, listed⟩ := wrote
  have does := @does_pmuEnableEventSet fails (fun action => ∀ msr value, action = .wrmsr msr value false →
    msr ∈ (clearWrites eventSet.gpEvtSel.length).map Prod.fst) eventSet ?_ cpu
  · exact does.of_mem_doneSince listed msr value rfl
  · rintro write member failed first word same
    cases same
    rcases List.mem_append.mp member with reset | enable
    · exact List.mem_map_of_mem reset
    · exact mem_clearWrites_of_enableWrites offcore enable

/-- A reset that went through goes through again, and leaves its registers at zero. -/
theorem registers_rollBack {refuses : Nat → UInt64 → Bool} {gpEvtCount : Nat} {cpu : Cpu}
    (reset : (storeAll (refusing refuses) (clearWrites gpEvtCount) cpu).err = false) (later : Cpu)
    {msr : Nat} (covered : msr ∈ (clearWrites gpEvtCount).map Prod.fst) :
    (storeAll (refusing refuses) (clearWrites gpEvtCount) later).state.registers msr = 0 := by
  rw [err_storeAll_iff, unfailing_congr] at reset
  refine registers_storeAll_eq_zero _ (fun _ => value_of_mem_clearWrites) ?_ (.inr covered)
  rw [err_storeAll_iff, unfailing_congr]
  exact reset

end EventSets

/--
An event set is programmed as a whole or not at all: after an error each register that was
written is 0, and after success each one has the value that was asked for.
-/
theorem pmuEnableEventSet_allOrNothing (refuses : Nat → UInt64 → Bool) (eventSet : EventSet)
    (offcore : eventSet.offcoreEvtSel.length ≤ offcoreEventMax) (cpu : Cpu) :
    ((pmuEnableEventSet (refusing refuses) eventSet cpu).err = true →
        ∀ msr, Wrote cpu (pmuEnableEventSet (refusing refuses) eventSet cpu).state msr →
          (pmuEnableEventSet (refusing refuses) eventSet cpu).state.registers msr = 0) ∧
      ((pmuEnableEventSet (refusing refuses) eventSet cpu).err = false →
        Programmed eventSet (pmuEnableEventSet (refusing refuses) eventSet cpu).state) := by
  have covered := @mem_clearWrites_of_wrote eventSet (refusing refuses) offcore cpu
  by_cases fits : eventSet.gpEvtSel.length ≤ gpEventMax
  case neg =>
    rw [pmuEnableEventSet_of_gt _ (Nat.not_le.mp fits)]
    refine ⟨fun _ msr wrote => ?_, fun passed => by cases passed⟩
    obtain ⟨value, listed⟩ := wrote
    rw [@doneSince_eq cpu cpu [] rfl] at listed
    cases listed
  case pos =>
    have zeros := fun write => @value_of_mem_clearWrites eventSet.gpEvtSel.length write
    rw [pmuEnableEventSet_eq _ fits] at covered ⊢
    dsimp only at covered ⊢
    by_cases resetFailed :
        (storeAll (refusing refuses) (clearWrites eventSet.gpEvtSel.length) cpu).err = true
    · rw [if_pos resetFailed]
      refine ⟨fun _ msr wrote => ?_, fun passed => by rw [resetFailed] at passed; cases passed⟩
      exact registers_storeAll_of_wrote _ zeros cpu wrote
    · have reset := Bool.eq_false_of_not_eq_true resetFailed
      rw [if_neg resetFailed] at covered ⊢
      by_cases failed : (storeAll (refusing refuses) (enableWrites eventSet)
          (storeAll (refusing refuses) (clearWrites eventSet.gpEvtSel.length) cpu).state).err = true
      · rw [if_pos failed] at covered ⊢
        refine ⟨fun _ msr wrote => ?_, fun passed => by cases passed⟩
        exact registers_rollBack reset _ (covered wrote)
      · rw [if_neg failed]
        refine ⟨fun failed' => absurd failed' failed, fun passed => ?_⟩
        exact Programmed.of_writes fits
          (registers_storeAll _ (nodup_enableWrites fits offcore) passed)

/-- The fixed counters refuse their value when the event select is written already. -/
theorem pmuEnableEventSet_allOrNothing_refused :
    let eventSet : EventSet := ⟨1, 2, [0x4300C0], [0x3F80408FFF]⟩
    let refuses : Nat → UInt64 → Bool := fun msr value => msr == fixedCtrCtrl && value == 2
    let enabled := pmuEnableEventSet (refusing refuses) eventSet ⟨fun _ => 7, 0, []⟩
    enabled.err = true ∧ Wrote ⟨fun _ => 7, 0, []⟩ enabled.state perfEvtSel0 ∧
      ∀ msr, Wrote ⟨fun _ => 7, 0, []⟩ enabled.state msr → enabled.state.registers msr = 0 := by
  intro eventSet refuses enabled
  have failed : enabled.err = true := by decide
  refine ⟨failed, ⟨0x4300C0, by decide⟩, ?_⟩
  exact (pmuEnableEventSet_allOrNothing refuses eventSet (by decide) ⟨fun _ => 7, 0, []⟩).1 failed

end Xpedite.Kernel
