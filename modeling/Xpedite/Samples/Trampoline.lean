import Xpedite.Samples.SampleStream
import Xpedite.Samples.TrampolineCore

/-!
The fast paths of the data and identity trampolines leave in memory what the
constructor leaves there and move `samplesBufferPtr` as `next()` does.
-/

namespace Xpedite.Samples

open Lib

theorem join_halves (clock : UInt64) :
    (clock >>> 32) <<< 32 ||| (clock &&& 0xFFFFFFFF) = clock := by
  have bound := clock.toNat_lt
  have low : clock.toNat &&& (2 ^ 32 - 1) = clock.toNat % 2 ^ 32 :=
    Nat.and_two_pow_sub_one_eq_mod clock.toNat 32
  have small : clock.toNat % 2 ^ 32 < 2 ^ 32 := Nat.mod_lt _ (by decide)
  have joined := Nat.two_pow_add_eq_or_of_lt small (clock.toNat / 2 ^ 32)
  have amount : (32 : UInt64).toNat % 64 = 32 := by decide
  have mask : (0xFFFFFFFF : UInt64).toNat = 2 ^ 32 - 1 := by decide
  apply UInt64.toNat_inj.mp
  rw [UInt64.toNat_or, UInt64.toNat_shiftLeft, UInt64.toNat_shiftRight, UInt64.toNat_and, amount,
    mask, low, Nat.shiftLeft_eq, Nat.shiftRight_eq_div_pow, Nat.mod_eq_of_lt (by omega),
    Nat.mul_comm, ← joined]
  omega

theorem join_halves_flagged (clock : UInt64) :
    (clock >>> 32 ||| 0x40000000) <<< 32 ||| (clock &&& 0xFFFFFFFF) = clock ||| flagData := by
  have flag : (0x40000000 : UInt64) <<< 32 = flagData := by decide
  rw [UInt64.shiftLeft_or, flag, UInt64.or_assoc, UInt64.or_comm flagData, ← UInt64.or_assoc,
    join_halves]

theorem ofNat_toNat_add (address : UInt64) (count : Nat) :
    UInt64.ofNat (address.toNat + count) = address + UInt64.ofNat count := by
  rw [UInt64.ofNat_add, UInt64.ofNat_toNat]

def datum (high low : UInt64) : BitVec 128 := BitVec.ofNat 128 (2 ^ 64 * high.toNat + low.toNat)

theorem toNat_datum (high low : UInt64) :
    (datum high low).toNat = 2 ^ 64 * high.toNat + low.toNat := by
  have highBound := high.toNat_lt
  have lowBound := low.toNat_lt
  rw [datum, BitVec.toNat_ofNat]
  omega

theorem lowWord_datum (high low : UInt64) : lowWord (datum high low) = low := by
  have bound := low.toNat_lt
  apply UInt64.toNat_inj.mp
  rw [lowWord, toNat_datum, UInt64.toNat_ofNat']
  omega

theorem highWord_datum (high low : UInt64) : highWord (datum high low) = high := by
  have highBound := high.toNat_lt
  have lowBound := low.toNat_lt
  apply UInt64.toNat_inj.mp
  rw [highWord, toNat_datum, UInt64.toNat_ofNat']
  omega

theorem store_data (memory : Memory) (this : Nat) (site tsc high low : UInt64) :
    (((memory.store64 (this + 0x10) low).store64 (this + 0x18) high).store64 (this + 0x0)
        (tsc ||| flagData)).store64 (this + 0x8) site =
      constructWithData memory this site tsc (datum high low) := by
  have back : (memory.store64 (this + 0x10) low).store64 (this + 0x18) high =
      memory.write (this + 16) (wordBytes low ++ wordBytes high) := by
    rw [Memory.write_append, length_wordBytes]
    rfl
  have front : ∀ memory : Memory,
      (memory.store64 (this + 0x0) (tsc ||| flagData)).store64 (this + 0x8) site =
        memory.write this (wordBytes (tsc ||| flagData) ++ wordBytes site) :=
    fun memory => construct_eq_write memory this site (tsc ||| flagData)
  rw [front, back, constructWithData_eq_write, dataBytes, lowWord_datum, highWord_datum,
    Memory.write_append _ _ (_ ++ _) (_ ++ _), Memory.write_comm]
  · simp only [List.length_append, length_wordBytes]
  · simp only [List.length_append, length_wordBytes]
    omega

/-- The trampoline was called from `site` and there is room for another sample. -/
structure Entered (layout : TlsLayout) (machine : Machine) (site : UInt64)
    (callers : List UInt64) : Prop where
  stack : machine.stack = site :: callers
  room : machine.tls layout.samplesBufferPtr < machine.tls layout.samplesBufferEnd

section FastPath

variable {layout : TlsLayout} {machine : Machine} {site : UInt64} {callers : List UInt64}
  (entered : Entered layout machine site callers) (clock : UInt64)

include entered

theorem run_data :
    machine.run layout clock xpediteDataProbeTrampoline = some
      { registers := (machine.set .rcx (machine.tls layout.samplesBufferPtr + 0x20)).registers
        stack := callers
        tls := (machine.setTls layout.samplesBufferPtr
          (machine.tls layout.samplesBufferPtr + 0x20)).tls
        memory := constructWithData machine.memory (machine.tls layout.samplesBufferPtr).toNat
          site clock (datum (machine.registers .rdx) (machine.registers .rax))
        below := true } := by
  simp only [xpediteDataProbeTrampoline, Machine.run, Machine.execute, Machine.set, Machine.setTls,
    reduceCtorEq, if_true, if_false, entered.stack, entered.room, decide_true, List.headD_cons,
    List.tail_cons, join_halves_flagged]
  rw [Option.some_inj, Machine.mk.injEq]
  refine ⟨?_, rfl, rfl, ?_, rfl⟩
  · funext register
    cases register <;> rfl
  · exact store_data _ _ _ _ _ _

theorem run_identity :
    machine.run layout clock xpediteIdentityTrampoline = some
      { registers := (((machine.set .rcx (machine.tls layout.samplesBufferPtr)).set .rdx clock).set
          .rax (machine.tls 0)).registers
        stack := callers
        tls := (machine.setTls layout.samplesBufferPtr
          (machine.tls layout.samplesBufferPtr + 0x10)).tls
        memory := construct machine.memory (machine.tls layout.samplesBufferPtr).toNat site clock
        below := true } := by
  have base : (0 : UInt64) ≠ layout.samplesBufferPtr := layout.ptrOffBase.symm
  simp only [xpediteIdentityTrampoline, Machine.run, Machine.execute, Machine.set, Machine.setTls,
    reduceCtorEq, if_true, if_false, entered.stack, entered.room, decide_true,
    List.tail_cons, join_halves, base]
  rw [Option.some_inj, Machine.mk.injEq]
  refine ⟨?_, rfl, rfl, rfl, rfl⟩
  funext register
  cases register <;> rfl

end FastPath

def Records (layout : TlsLayout) (before after : Machine) (sample : Sample) : Prop :=
  after.memory = (record (before.memory, (before.tls layout.samplesBufferPtr).toNat) sample).1 ∧
    after.tls layout.samplesBufferPtr =
      UInt64.ofNat (record (before.memory, (before.tls layout.samplesBufferPtr).toNat) sample).2

theorem Records.of_write {layout : TlsLayout} {before after : Machine} {sample : Sample}
    (length : Nat)
    (memory : after.memory =
      before.memory.write (before.tls layout.samplesBufferPtr).toNat sample.bytes)
    (pointer : after.tls layout.samplesBufferPtr =
      before.tls layout.samplesBufferPtr + UInt64.ofNat length)
    (counted : sample.bytes.length = length) : Records layout before after sample := by
  rw [Records, record_eq]
  refine ⟨memory, ?_⟩
  rw [pointer, counted, ofNat_toNat_add]

theorem data_records {layout : TlsLayout} {machine : Machine} {site : UInt64}
    {callers : List UInt64} (entered : Entered layout machine site callers) (clock : Tsc) :
    ∃ after, machine.run layout clock.val xpediteDataProbeTrampoline = some after ∧
      Records layout machine after
        ⟨site, clock, some (datum (machine.registers .rdx) (machine.registers .rax)), none⟩ := by
  refine ⟨_, run_data entered clock.val, Records.of_write 0x20 ?_ ?_ ?_⟩
  · rw [← Sample.place_eq_write]
    rfl
  · exact if_pos rfl
  · simp [Sample.bytes, dataBytes, pmcBytes]

theorem identity_records {layout : TlsLayout} {machine : Machine} {site : UInt64}
    {callers : List UInt64} (entered : Entered layout machine site callers) (clock : Tsc) :
    ∃ after, machine.run layout clock.val xpediteIdentityTrampoline = some after ∧
      Records layout machine after ⟨site, clock, none, none⟩ := by
  refine ⟨_, run_identity entered clock.val, Records.of_write 0x10 ?_ ?_ ?_⟩
  · rw [← Sample.place_eq_write]
    rfl
  · exact if_pos rfl
  · simp [Sample.bytes, dataBytes, pmcBytes]

theorem datum_words (data : BitVec 128) : datum (highWord data) (lowWord data) = data := by
  have bound := data.isLt
  apply BitVec.eq_of_toNat_eq
  rw [toNat_datum, highWord, lowWord, UInt64.toNat_ofNat', UInt64.toNat_ofNat']
  omega

theorem Sample.reading_injective : Function.Injective Sample.reading := by
  rintro ⟨site, tsc, data, pmc⟩ ⟨otherSite, otherTsc, otherData, otherPmc⟩ same
  simp only [Sample.reading, Reading.mk.injEq] at same
  obtain ⟨rfl, sameTsc, sameData, samePmc⟩ := same
  have words : Function.Injective fun data : BitVec 128 => (lowWord data, highWord data) := by
    intro first second equal
    simp only [Prod.mk.injEq] at equal
    rw [← datum_words first, ← datum_words second, equal.1, equal.2]
  obtain rfl := Subtype.val_injective sameTsc
  obtain rfl := Option.map_injective words sameData
  obtain rfl := Option.map_injective Subtype.val_injective samePmc
  rfl

/--
Laid out samples are read back as they are, and both trampolines lay out what
the constructors do.
-/
theorem samples_roundTrip :
    (∀ memory start samples,
      walk (layOut memory start samples).1 start (layOut memory start samples).2 =
        samples.map Sample.reading) ∧
    Function.Injective Sample.reading ∧
    ∀ layout machine site callers, Entered layout machine site callers → ∀ clock : Tsc,
      (∃ after, machine.run layout clock.val xpediteDataProbeTrampoline = some after ∧
        Records layout machine after
          ⟨site, clock, some (datum (machine.registers .rdx) (machine.registers .rax)), none⟩) ∧
      ∃ after, machine.run layout clock.val xpediteIdentityTrampoline = some after ∧
        Records layout machine after ⟨site, clock, none, none⟩ :=
  ⟨walk_layOut, Sample.reading_injective, fun _ _ _ _ entered clock =>
    ⟨data_records entered clock, identity_records entered clock⟩⟩

def atFirstSample : Machine where
  registers := fun register => if register = .rax then 7 else 9
  stack := [0x400005]
  tls := fun offset => if offset = 8 then 4096 else if offset = 16 then 65536 else 0x7F00
  memory := fun _ => 0
  below := false

def twoVariables : TlsLayout := ⟨8, 16, by decide, by decide, by decide⟩

theorem samples_roundTrip_atFirstSample :
    Entered twoVariables atFirstSample 0x400005 [] ∧
      ∃ after, atFirstSample.run twoVariables 1000 xpediteIdentityTrampoline = some after ∧
        Records twoVariables atFirstSample after ⟨0x400005, ⟨1000, by decide⟩, none, none⟩ :=
  have entered : Entered twoVariables atFirstSample 0x400005 [] := ⟨rfl, by decide⟩
  ⟨entered, (samples_roundTrip.2.2 _ _ _ _ entered ⟨1000, by decide⟩).2⟩

end Xpedite.Samples
