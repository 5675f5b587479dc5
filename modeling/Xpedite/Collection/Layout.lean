import Xpedite.Collection.SamplesBufferCore

/-!
How the samples lie in the pool.  Each of the last sixteen buffers holds what was put in it,
sample behind sample, every one of them started below the guard, and the thread left none
of them before it had reached the guard.
-/

namespace Xpedite.Collection

open Lib Samples Framework

def bufferGuardOffset : Nat := (4 * 1024 - 128 * 4 / 16) * 16

theorem bufferGuardOffset_eq : bufferGuardOffset = 65024 := rfl

theorem guardedEnd_eq (first : Nat) : Collector.guardedEnd first = first + bufferGuardOffset := rfl

theorem bufferAt_apart (pool : Nat) {first second : Nat} (different : first ≠ second)
    (near : first < second + 16 ∧ second < first + 16) :
    bufferAt pool first + 65536 ≤ bufferAt pool second ∨
      bufferAt pool second + 65536 ≤ bufferAt pool first := by
  have slots : Pool.bufferAt samplesPool first ≠ Pool.bufferAt samplesPool second := by
    rcases Nat.lt_or_gt_of_ne different with before | after
    · exact Pool.bufferAt_ne samplesPool before near.2
    · exact (Pool.bufferAt_ne samplesPool after near.1).symm
  rw [bufferAt, bufferAt]
  omega

namespace Writer

structure Filling (pool : Nat) (writer : Writer) : Prop where
  ptr : writer.thread.samplesBufferPtr =
    bufferAt pool writer.writeIndex + total Sample.length (writer.written writer.writeIndex)
  stop : writer.thread.samplesBufferEnd = bufferAt pool writer.writeIndex + bufferGuardOffset
  counted : 0 < writer.writeIndex ∨ 0 < writer.overflowCount

structure Unused (writer : Writer) : Prop where
  thread : writer.thread = Writer.new.thread
  writeIndex : writer.writeIndex = 0
  written : writer.written 0 = []

structure Laid (pool : Nat) (writer : Writer) : Prop where
  wide : writer.writeIndex < 2 ^ 64
  current : writer.Unused ∨ writer.Filling pool
  packs : ∀ index, Packs Sample.length bufferGuardOffset (writer.written index)
  finished : ∀ index, 0 < index → index < writer.writeIndex →
    bufferGuardOffset ≤ total Sample.length (writer.written index)
  holds : ∀ index, index ≤ writer.writeIndex → writer.writeIndex < index + 16 →
    writer.thread.memory.Holds (bufferAt pool index) (streamBytes (writer.written index))

theorem new_laid (pool : Nat) : Writer.new.Laid pool where
  wide := Nat.two_pow_pos 64
  current := Or.inl ⟨rfl, rfl, rfl⟩
  packs := fun _ => trivial
  finished := fun _ _ less => absurd less (Nat.not_lt_zero _)
  holds := fun _ _ _ => rfl

variable {pool : Nat} {writer : Writer}

theorem isFull_iff :
    writer.isFull = true ↔ writer.thread.samplesBufferEnd ≤ writer.thread.samplesBufferPtr :=
  decide_eq_true_iff

theorem Laid.total_lt (laid : writer.Laid pool) (index : Nat) :
    total Sample.length (writer.written index) < bufferGuardOffset + 128 :=
  (laid.packs index).total_lt Sample.length_le (Nat.succ_pos _)

theorem nextWritableBuffer_of_room {rindex : Nat}
    (room : Pool.hasRoom samplesPool writer.writeIndex rindex = true) :
    writer.writeIndex < rindex + 16 ∧ writer.writeIndex + 1 < 2 ^ 64 ∧
      writer.nextWritableBuffer rindex = { writer with writeIndex := writer.writeIndex + 1 } := by
  have less : writer.writeIndex < (rindex + 16) % 2 ^ 64 := of_decide_eq_true room
  have reduced := Nat.mod_le (rindex + 16) (2 ^ 64)
  have bound := Nat.mod_lt (rindex + 16) (Nat.two_pow_pos 64)
  have noWrap : (writer.writeIndex + 1) % 2 ^ 64 = writer.writeIndex + 1 :=
    Nat.mod_eq_of_lt (by omega)
  rw [nextWritableBuffer, if_pos room, noWrap]
  exact ⟨by omega, by omega, rfl⟩

theorem nextWritableBuffer_cases (writer : Writer) (rindex : Nat) :
    (writer.writeIndex < rindex + 16 ∧ writer.writeIndex + 1 < 2 ^ 64 ∧
        writer.nextWritableBuffer rindex = { writer with writeIndex := writer.writeIndex + 1 }) ∨
      writer.nextWritableBuffer rindex =
        { writer with overflowCount := writer.overflowCount + 1 } := by
  by_cases room : Pool.hasRoom samplesPool writer.writeIndex rindex = true
  · exact Or.inl (nextWritableBuffer_of_room room)
  · rw [nextWritableBuffer, if_neg room]
    exact Or.inr rfl

theorem Laid.total_of_isFull (laid : writer.Laid pool) (full : writer.isFull = true)
    (used : 0 < writer.writeIndex) :
    bufferGuardOffset ≤ total Sample.length (writer.written writer.writeIndex) := by
  rw [isFull_iff] at full
  rcases laid.current with unused | filling
  · have zero := unused.writeIndex
    omega
  · have ptr := filling.ptr
    have stop := filling.stop
    omega

theorem Laid.restart (laid : writer.Laid pool) {index : Nat} {next : Writer}
    (full : writer.isFull = true) (small : index < 2 ^ 64)
    (near : index = writer.writeIndex ∨ index = writer.writeIndex + 1)
    (counted : 0 < index ∨ 0 < next.overflowCount) (writeIndex : next.writeIndex = index)
    (memory : next.thread.memory = writer.thread.memory)
    (ptr : next.thread.samplesBufferPtr = bufferAt pool index)
    (stop : next.thread.samplesBufferEnd = Collector.guardedEnd (bufferAt pool index))
    (written : next.written = Function.update writer.written index []) :
    next.Laid pool ∧ next.Filling pool ∧ next.isFull = false := by
  have empty : next.written next.writeIndex = [] := by
    rw [written, writeIndex, Function.update_self]
  have filling : next.Filling pool := by
    refine ⟨?_, ?_, ?_⟩
    · rw [empty, total_nil, Nat.add_zero, ptr, writeIndex]
    · rw [stop, guardedEnd_eq, writeIndex]
    · rwa [writeIndex]
  have others : ∀ other, other ≠ index → next.written other = writer.written other := by
    intro other different
    rw [written, Function.update_of_ne different]
  refine ⟨⟨by rwa [writeIndex], Or.inr filling, ?_, ?_, ?_⟩, filling, ?_⟩
  · intro other
    by_cases same : other = index
    · rw [same, ← writeIndex, empty]
      exact trivial
    · rw [others other same]
      exact laid.packs other
  · intro other positive before
    rw [writeIndex] at before
    rw [others other (Nat.ne_of_lt before)]
    by_cases last : other = writer.writeIndex
    · rw [last]
      exact laid.total_of_isFull full (by omega)
    · exact laid.finished other positive (by omega)
  · intro other within recent
    rw [writeIndex] at within recent
    rw [memory]
    by_cases same : other = index
    · rw [same, ← writeIndex, empty]
      rfl
    · rw [others other same]
      exact laid.holds other (by omega) (by omega)
  · rw [Bool.eq_false_iff, ne_eq, isFull_iff, ptr, stop, guardedEnd_eq, bufferGuardOffset_eq]
    omega

theorem Laid.expand (laid : writer.Laid pool) (rindex : Nat) (full : writer.isFull = true) :
    (writer.expand pool rindex).Laid pool ∧ (writer.expand pool rindex).Filling pool ∧
      (writer.expand pool rindex).isFull = false := by
  rcases nextWritableBuffer_cases writer rindex with ⟨-, small, next⟩ | same
  · rw [Writer.expand, next]
    exact laid.restart full small (Or.inr rfl) (Or.inl (Nat.succ_pos _)) rfl rfl rfl rfl rfl
  · rw [Writer.expand, same]
    exact laid.restart full laid.wide (Or.inl rfl) (Or.inr (Nat.succ_pos _)) rfl rfl rfl rfl rfl

theorem Laid.expandIfFull (laid : writer.Laid pool) (rindex : Nat) :
    (writer.expandIfFull pool rindex).Laid pool ∧ (writer.expandIfFull pool rindex).Filling pool ∧
      (writer.expandIfFull pool rindex).isFull = false := by
  rw [Writer.expandIfFull]
  split
  · rename_i full
    exact laid.expand rindex full
  · rename_i room
    refine ⟨laid, ?_, Bool.eq_false_iff.mpr room⟩
    rcases laid.current with unused | filling
    · rw [isFull_iff, unused.thread] at room
      exact absurd (Nat.le_refl 0) room
    · exact filling

theorem append_eq (sample : Sample) (room : writer.isFull = false) :
    writer.append sample = { writer with
      thread := { writer.thread with
        memory := writer.thread.memory.write writer.thread.samplesBufferPtr sample.bytes
        samplesBufferPtr := writer.thread.samplesBufferPtr + sample.length }
      written := Function.update writer.written writer.writeIndex
        (writer.written writer.writeIndex ++ [sample]) } := by
  have inside : writer.thread.samplesBufferPtr < writer.thread.samplesBufferEnd :=
    Nat.not_le.mp (of_decide_eq_false room)
  rw [append, if_pos inside, record_eq]

theorem append_written_self (sample : Sample) (room : writer.isFull = false) :
    (writer.append sample).written writer.writeIndex =
      writer.written writer.writeIndex ++ [sample] := by
  rw [append_eq sample room]
  exact Function.update_self _ _ _

theorem append_written_of_ne (sample : Sample) {index : Nat}
    (different : index ≠ writer.writeIndex) :
    (writer.append sample).written index = writer.written index := by
  rw [append]
  split
  · exact Function.update_of_ne different _ _
  · rfl

theorem append_writeIndex (sample : Sample) :
    (writer.append sample).writeIndex = writer.writeIndex := by
  rw [append]
  split
  · rfl
  · rfl

theorem append_overflowCount (sample : Sample) :
    (writer.append sample).overflowCount = writer.overflowCount := by
  rw [append]
  split
  · rfl
  · rfl

theorem Filling.total_lt (filling : writer.Filling pool) (room : writer.isFull = false) :
    total Sample.length (writer.written writer.writeIndex) < bufferGuardOffset := by
  have ptr := filling.ptr
  have stop := filling.stop
  have inside : writer.thread.samplesBufferPtr < writer.thread.samplesBufferEnd :=
    Nat.not_le.mp (of_decide_eq_false room)
  omega

section Append

variable (laid : writer.Laid pool) (filling : writer.Filling pool) (room : writer.isFull = false)

include laid filling room

theorem Laid.append_holds (sample : Sample) {index : Nat} (within : index ≤ writer.writeIndex)
    (recent : writer.writeIndex < index + 16) :
    (writer.append sample).thread.memory.Holds (bufferAt pool index)
      (streamBytes ((writer.append sample).written index)) := by
  have ptr := filling.ptr
  have bound := laid.total_lt index
  have current := filling.total_lt room
  have small := sample.length_le
  have before := laid.holds index within recent
  have length := length_streamBytes (writer.written index)
  have memory : (writer.append sample).thread.memory =
      writer.thread.memory.write writer.thread.samplesBufferPtr sample.bytes := by
    rw [append_eq sample room]
  rw [bufferGuardOffset_eq] at bound current
  rw [memory]
  by_cases same : index = writer.writeIndex
  · -- the earlier samples of the buffer lie below the new one
    rw [same] at before length ⊢
    rw [append_written_self sample room, streamBytes, List.flatMap_append, List.flatMap_singleton,
      ← streamBytes, Memory.holds_append, length, ← ptr]
    refine ⟨before.congr ?_, Memory.holds_write _ _ _⟩
    intro place start stop
    exact Memory.write_of_lt _ _ (by omega)
  · rw [append_written_of_ne sample same]
    have apart := bufferAt_apart pool same ⟨by omega, recent⟩
    refine before.congr ?_
    intro place start stop
    rcases apart with below | above
    · exact Memory.write_of_lt _ _ (by omega)
    · exact Memory.write_of_ge _ (by rw [Sample.length] at small; omega)

theorem Laid.append (sample : Sample) :
    (writer.append sample).Laid pool ∧ (writer.append sample).Filling pool := by
  have less := filling.total_lt room
  have ptr := filling.ptr
  have moved : (writer.append sample).thread.samplesBufferPtr =
      writer.thread.samplesBufferPtr + sample.length := by rw [append_eq sample room]
  have filled : (writer.append sample).Filling pool := by
    refine ⟨?_, ?_, ?_⟩
    · rw [append_writeIndex, append_written_self sample room, total_append, total_cons, total_nil]
      omega
    · rw [append_writeIndex, append_eq sample room]
      exact filling.stop
    · rw [append_writeIndex, append_overflowCount]
      exact filling.counted
  refine ⟨⟨?_, Or.inr filled, ?_, ?_, ?_⟩, filled⟩
  · rw [append_writeIndex]
    exact laid.wide
  · intro index
    by_cases same : index = writer.writeIndex
    · rw [same, append_written_self sample room, packs_snoc]
      exact ⟨laid.packs _, less⟩
    · rw [append_written_of_ne sample same]
      exact laid.packs index
  · intro index positive before
    rw [append_writeIndex] at before
    rw [append_written_of_ne sample (Nat.ne_of_lt before)]
    exact laid.finished index positive before
  · intro index within recent
    rw [append_writeIndex] at within recent
    exact laid.append_holds filling room sample within recent

end Append

theorem Laid.record (laid : writer.Laid pool) (rindex : Nat) (sample : Sample) :
    (writer.record pool rindex sample).Laid pool ∧
      (writer.record pool rindex sample).Filling pool := by
  obtain ⟨expanded, filling, room⟩ := laid.expandIfFull rindex
  exact expanded.append filling room sample

/-- The thread has moved on to the next buffer and put one sample in it. -/
structure Begins (pool : Nat) (before after : Writer) (sample : Sample) : Prop where
  writeIndex : after.writeIndex = before.writeIndex + 1
  overflowCount : after.overflowCount = before.overflowCount
  written : after.written after.writeIndex = [sample]
  ptr : after.thread.samplesBufferPtr = bufferAt pool after.writeIndex + sample.length
  memory : after.thread.memory =
    before.thread.memory.write (bufferAt pool after.writeIndex) sample.bytes

section NextBuffer

variable {rindex : Nat} (laid : writer.Laid pool) (full : writer.isFull = true)
variable (room : Pool.hasRoom samplesPool writer.writeIndex rindex = true)

include laid full room

theorem Laid.begins (sample : Sample) :
    Begins pool writer (writer.record pool rindex sample) sample := by
  obtain ⟨-, filling, empty⟩ := laid.expand rindex full
  have next := (nextWritableBuffer_of_room room).2.2
  have index : (writer.expand pool rindex).writeIndex = writer.writeIndex + 1 := by
    rw [Writer.expand, next]
  have given : (writer.expand pool rindex).written (writer.expand pool rindex).writeIndex = [] := by
    rw [index, Writer.expand, next]
    exact Function.update_self _ _ _
  have ptr := filling.ptr
  rw [given, total_nil, Nat.add_zero] at ptr
  rw [Writer.record, Writer.expandIfFull, if_pos full]
  refine ⟨?_, ?_, ?_, ?_, ?_⟩
  · rw [append_writeIndex, index]
  · rw [append_overflowCount, Writer.expand, next]
  · rw [append_writeIndex, append_written_self sample empty, given, List.nil_append]
  · rw [append_writeIndex, append_eq sample empty, ptr]
  · rw [append_writeIndex, append_eq sample empty, ptr, Writer.expand, next]

/-- Behind the sample stands what is left of those that were in the buffer a lap before. -/
theorem Laid.record_leaves (lapped : 15 ≤ writer.writeIndex) (sample : Sample)
    (within : sample.length ≤ total Sample.length (writer.written (writer.writeIndex - 15))) :
    (writer.record pool rindex sample).thread.memory.Holds
      (writer.record pool rindex sample).thread.samplesBufferPtr
      ((streamBytes (writer.written (writer.writeIndex - 15))).drop sample.length) := by
  have begins := laid.begins full room sample
  have same : bufferAt pool (writer.writeIndex - 15) =
      bufferAt pool (writer.record pool rindex sample).writeIndex := by
    have size : samplesPool.size = 16 := rfl
    rw [begins.writeIndex, bufferAt, bufferAt, Pool.bufferAt_eq_mod, Pool.bufferAt_eq_mod, size]
    omega
  have before := laid.holds (writer.writeIndex - 15) (Nat.sub_le _ _) (by omega)
  rw [same] at before
  rw [← length_streamBytes] at within
  rw [begins.ptr, begins.memory]
  refine (before.drop within).congr ?_
  intro place start stop
  exact Memory.write_of_ge _ start

end NextBuffer

section Recorders

variable {surroundings : Surroundings} {rindex : Nat}
variable (expands : surroundings.expand writer.thread = (writer.expand pool rindex).thread)

include expands

theorem record_thread (sample : Sample) :
    some (writer.record pool rindex sample).thread =
      (writer.thread.expandIfFull surroundings).append fun memory this =>
        some (sample.place memory this) := by
  have full : (writer.expandIfFull pool rindex).thread =
      writer.thread.expandIfFull surroundings := by
    rw [expandIfFull, ThreadBuffer.expandIfFull]
    by_cases full : writer.isFull = true
    · rw [if_pos full, if_pos (isFull_iff.mp full), expands]
    · rw [if_neg full, if_neg (mt isFull_iff.mpr full)]
  rw [record, append, ThreadBuffer.append, ← full]
  split
  · rfl
  · rfl

/-- Each of the expanding recorders, with its counters as a set of events. -/
theorem recorders_thread (returnSite : UInt64) (tsc : Tsc) (data : BitVec 128)
    (values : Counters) :
    Recorders.xpediteExpandAndRecord surroundings writer.thread returnSite tsc.val =
        some (writer.record pool rindex ⟨returnSite, tsc, none, none⟩).thread ∧
      Recorders.xpediteExpandAndRecordWithData surroundings writer.thread returnSite tsc.val data =
        some (writer.record pool rindex ⟨returnSite, tsc, some data, none⟩).thread ∧
      Recorders.xpediteRecordPerfEvents { surroundings with perfEvents := some values.val }
          writer.thread returnSite tsc.val =
        some (writer.record pool rindex ⟨returnSite, tsc, none, some values⟩).thread ∧
      Recorders.xpediteRecordPerfEventsWithData { surroundings with perfEvents := some values.val }
          writer.thread returnSite tsc.val data =
        some (writer.record pool rindex ⟨returnSite, tsc, some data, some values⟩).thread := by
  refine ⟨?_, ?_, ?_, ?_⟩
  · rw [record_thread expands]
    rfl
  · rw [record_thread expands]
    rfl
  · rw [record_thread expands]
    rfl
  · rw [record_thread expands]
    rfl

end Recorders

end Writer

end Xpedite.Collection
