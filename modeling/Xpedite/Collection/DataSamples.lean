import Xpedite.Collection.Reachable

/-!
Samples with data and no counters, 32 bytes each: 2032 of them take a thread to the guard,
and the next one starts another buffer.
-/

namespace Xpedite.Collection

open Lib Samples Framework

structure OnlyData (sample : Sample) : Prop where
  data : sample.data.isSome = true
  pmc : sample.pmc = none

theorem OnlyData.length_eq {sample : Sample} (only : OnlyData sample) : sample.length = 32 := by
  rw [Sample.length, Sample.bytes, only.pmc, pmcBytes]
  simp only [List.length_append, length_wordBytes, length_dataBytes, only.data, Bool.toNat_true,
    List.length_nil]

def recordAll (pool rindex : Nat) (writer : Writer) (samples : List Sample) : Writer :=
  samples.foldl (Writer.record pool rindex) writer

theorem recordAll_snoc (pool rindex : Nat) (writer : Writer) (samples : List Sample)
    (sample : Sample) :
    recordAll pool rindex writer (samples ++ [sample]) =
      (recordAll pool rindex writer samples).record pool rindex sample := List.foldl_concat _ _ _ _

theorem run_record (pool : Nat) (samples : List Sample) (state : State) :
    run (step pool) state (samples.map Event.record) =
      some { state with writer := recordAll pool state.readIndex state.writer samples } := by
  induction samples generalizing state with
  | nil => rfl
  | cons sample rest ih =>
      rw [List.map_cons, run, step, Option.bind_some, ih]
      rfl

theorem recorded_append (earlier later : List Event) :
    recorded (earlier ++ later) = recorded earlier ++ recorded later := List.filterMap_append

theorem recorded_record (samples : List Sample) : recorded (samples.map Event.record) = samples := by
  rw [recorded, List.filterMap_map]
  exact List.filterMap_some

/-- The thread has recorded one sample after the first `count`, all of 32 bytes. -/
structure Writer.Even (pool count : Nat) (writer : Writer) : Prop where
  laid : writer.Laid pool
  filling : writer.Filling pool
  writeIndex : writer.writeIndex = count / 2032 + 1
  total : total Sample.length (writer.written writer.writeIndex) = 32 * (count % 2032 + 1)
  overflowCount : writer.overflowCount = 0

namespace Writer

variable {pool rindex : Nat} {writer : Writer}

theorem Filling.isFull_iff (filling : writer.Filling pool) :
    writer.isFull = true ↔
      bufferGuardOffset ≤ Lib.total Sample.length (writer.written writer.writeIndex) := by
  rw [Writer.isFull_iff, filling.ptr, filling.stop, Nat.add_le_add_iff_left]

theorem total_append_self {sample : Sample} (room : writer.isFull = false)
    (only : OnlyData sample) :
    Lib.total Sample.length
        ((writer.append sample).written (writer.append sample).writeIndex) =
      Lib.total Sample.length (writer.written writer.writeIndex) + 32 := by
  rw [append_writeIndex, append_written_self sample room, total_append, total_cons, total_nil,
    only.length_eq]

theorem even_of_restart {sample : Sample} {count : Nat} (only : OnlyData sample)
    (laid : writer.Laid pool) (full : writer.isFull = true)
    (room : Pool.hasRoom samplesPool writer.writeIndex rindex = true)
    (writeIndex : writer.writeIndex = count / 2032) (first : count % 2032 = 0)
    (none_ : writer.overflowCount = 0) : (writer.record pool rindex sample).Even pool count := by
  obtain ⟨recorded, filled⟩ := laid.record rindex sample
  have begins := laid.begins full room sample
  refine ⟨recorded, filled, ?_, ?_, ?_⟩
  · rw [begins.writeIndex, writeIndex]
  · rw [begins.written, total_cons, total_nil, only.length_eq, first]
  · rw [begins.overflowCount, none_]

theorem Even.isFull_iff {count : Nat} (even : writer.Even pool count) :
    writer.isFull = true ↔ count % 2032 = 2031 := by
  rw [even.filling.isFull_iff, even.total, bufferGuardOffset_eq]
  omega

theorem Even.record {sample : Sample} {count : Nat} (even : writer.Even pool count)
    (only : OnlyData sample) (room : count % 2032 = 2031 →
      Pool.hasRoom samplesPool ((count + 1) / 2032) rindex = true) :
    (writer.record pool rindex sample).Even pool (count + 1) := by
  have writeIndex := even.writeIndex
  by_cases full : writer.isFull = true
  · have last := even.isFull_iff.mp full
    have same : writer.writeIndex = (count + 1) / 2032 := by omega
    have free := room last
    rw [← same] at free
    exact even_of_restart only even.laid full free same (by omega) even.overflowCount
  · have earlier := mt even.isFull_iff.mpr full
    have inside := Bool.eq_false_iff.mpr full
    obtain ⟨recorded, filled⟩ := even.laid.append even.filling inside sample
    rw [Writer.record, expandIfFull, if_neg full]
    refine ⟨recorded, filled, ?_, ?_, ?_⟩
    · rw [append_writeIndex, writeIndex]
      omega
    · rw [total_append_self inside only, even.total]
      omega
    · rw [append_overflowCount, even.overflowCount]

end Writer

theorem recordAll_even {pool rindex : Nat} {samples : List Sample} {sample : Sample}
    (only : ∀ other ∈ samples ++ [sample], OnlyData other)
    (room : ∀ windex, windex ≤ samples.length / 2032 →
      Pool.hasRoom samplesPool windex rindex = true) :
    (recordAll pool rindex Writer.new (samples ++ [sample])).Even pool samples.length := by
  induction samples using List.reverseRecOn generalizing sample with
  | nil =>
      have first := only sample (List.mem_singleton_self sample)
      rw [recordAll_snoc]
      exact Writer.even_of_restart first (Writer.new_laid pool) rfl (room 0 (Nat.zero_le _)) rfl rfl
        rfl
  | append_singleton earlier previous ih =>
      have last := only sample (List.mem_append_right _ (List.mem_singleton_self sample))
      rw [List.length_append, List.length_singleton] at room ⊢
      have even := ih (fun other listed => only other (List.mem_append_left _ listed))
        (fun windex within => room windex (by omega))
      rw [recordAll_snoc]
      exact even.record last fun _ => room _ (Nat.le_refl _)

theorem stamp_lt (time : Nat) : (UInt64.ofNat (time % 2 ^ 62)).toNat < 2 ^ 62 := by
  rw [UInt64.toNat_ofNat']
  omega

def sampleAt (data : BitVec 128) (time : Nat) : Sample where
  returnSite := 0x400000
  tsc := ⟨UInt64.ofNat (time % 2 ^ 62), stamp_lt time⟩
  data := some data
  pmc := none

def samplesFrom1 (data : BitVec 128) (count : Nat) : List Sample :=
  (List.range' 1 count).map (sampleAt data)

theorem onlyData_samplesFrom1 (data : BitVec 128) (count : Nat) :
    ∀ sample ∈ samplesFrom1 data count, OnlyData sample := by
  intro sample listed
  obtain ⟨time, -, rfl⟩ := List.mem_map.mp listed
  exact ⟨rfl, rfl⟩

theorem samplesFrom1_succ (data : BitVec 128) (count : Nat) :
    samplesFrom1 data (count + 1) = samplesFrom1 data count ++ [sampleAt data (1 + count)] := by
  rw [samplesFrom1, List.range'_1_concat, List.map_append, List.map_singleton, samplesFrom1]

theorem samplesFrom1_eq_cons (data : BitVec 128) (count : Nat) :
    samplesFrom1 data (count + 2) =
      sampleAt data 1 :: sampleAt data 2 :: (List.range' 3 count).map (sampleAt data) := by
  rw [samplesFrom1, List.range'_succ, List.range'_succ, List.map_cons, List.map_cons]

@[simp] theorem length_samplesFrom1 (data : BitVec 128) (count : Nat) :
    (samplesFrom1 data count).length = count := by
  rw [samplesFrom1, List.length_map, List.length_range']

theorem recordAll_samplesFrom1 (pool : Nat) (data : BitVec 128) {rindex count : Nat}
    (room : ∀ windex, windex ≤ count / 2032 → Pool.hasRoom samplesPool windex rindex = true) :
    (recordAll pool rindex Writer.new (samplesFrom1 data (count + 1))).Even pool count := by
  have only := onlyData_samplesFrom1 data (count + 1)
  have length := length_samplesFrom1 data count
  rw [samplesFrom1_succ] at only ⊢
  have even := @recordAll_even pool rindex (samplesFrom1 data count) _ only (by rwa [length])
  rwa [length] at even

theorem toNat_sampleAt (data : BitVec 128) {time : Nat} (small : time < 2 ^ 62) :
    (sampleAt data time).tsc.val.toNat = time := by
  rw [sampleAt, UInt64.toNat_ofNat']
  omega

theorem toNat_le_of_mem_samplesFrom1 {data : BitVec 128} {count : Nat} {sample : Sample}
    (small : count + 1 < 2 ^ 62) (listed : sample ∈ samplesFrom1 data count) :
    sample.tsc.val.toNat ≤ count := by
  obtain ⟨time, inside, rfl⟩ := List.mem_map.mp listed
  rw [List.mem_range'_1] at inside
  rw [toNat_sampleAt data (by omega)]
  omega

theorem samplesFrom1_increasing (data : BitVec 128) {count : Nat} (small : count + 1 < 2 ^ 62) :
    (samplesFrom1 data count).Pairwise fun earlier later => earlier.tsc.val < later.tsc.val := by
  have rising : (List.range' 1 count).Pairwise (· < ·) := List.pairwise_lt_range'
  refine List.pairwise_map.mpr (rising.imp_of_mem ?_)
  intro earlier later listed listed' less
  rw [List.mem_range'_1] at listed listed'
  rw [UInt64.lt_iff_toNat_lt, toNat_sampleAt data (by omega), toNat_sampleAt data (by omega)]
  exact less

end Xpedite.Collection
