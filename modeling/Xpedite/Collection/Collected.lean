import Xpedite.Collection.DataSamples

/-!
What `collectSamples` takes out of a buffer.  The walk of the collector stops exactly where
the thread had stopped writing: both go by the rule that a sample starts below the guard.
-/

namespace Xpedite.Collection

open Lib Samples Framework

def cursorBehind (state : State) (counts : Collector.Counts) (first : Nat) : Nat :=
  (Collector.scanAll state.writer.thread.memory (Collector.guardedEnd first)
    (state.buffer.startScan first counts.staleSampleCount)).cursor

structure CollectsAll (state : State) (counts : Collector.Counts) (first : Nat)
    (samples : List Sample) : Prop where
  persisted : (collectRange state counts first).1.persisted = state.buffer.persisted ++
    (samples.filter fun sample => state.buffer.lastSampledTsc < sample.tsc.val).map Sample.reading
  completes : (collectRange state counts first).2.isSome = true
  reached : Collector.guardedEnd first ≤ cursorBehind state counts first
  near : cursorBehind state counts first < Collector.guardedEnd first + maxSize

theorem collectsAll_of_holds {state : State} (counts : Collector.Counts) {first : Nat}
    {samples : List Sample}
    (holds : state.writer.thread.memory.Holds first (streamBytes samples))
    (packs : Packs Sample.length bufferGuardOffset samples)
    (filled : bufferGuardOffset ≤ total Sample.length samples)
    (rising : (samples.map fun sample => sample.tsc.val).Pairwise (· < ·)) :
    CollectsAll state counts first samples := by
  have path := (Collector.path_of_holds holds).1
  have inside : ∀ this ∈ places Sample.length first samples, this < Collector.guardedEnd first :=
    fun this listed => lt_of_mem_places packs listed
  have bound := packs.total_lt Sample.length_le (Nat.succ_pos _)
  have scanned := @Collector.scanAll_eq_follow state.writer.thread.memory
    (Collector.guardedEnd first) (first + total Sample.length samples)
    (places Sample.length first samples) (state.buffer.startScan first counts.staleSampleCount) path inside
    (by rw [guardedEnd_eq]; omega)
  have followed := @Collector.follow_path state.writer.thread.memory
    (first + total Sample.length samples) (places Sample.length first samples)
    (state.buffer.startScan first counts.staleSampleCount) rfl path (by rwa [Collector.map_tsc_places holds])
  rw [← scanned] at followed
  obtain ⟨cursor, kept⟩ := followed
  rw [← cursor] at kept
  have persists := Collector.persistScan_of_path state.buffer (Collector.guardedEnd first) kept
    (by rw [cursor, guardedEnd_eq]; omega)
  have collected := @Collector.collectSamples_singleton _ _ counts
    ⟨state.writer.thread.memory, first⟩ persists
  refine ⟨?_, collected.2, ?_, ?_⟩
  · rw [collectRange, collected.1, ← Collector.map_reading_filter holds]
    rfl
  · rw [cursorBehind, cursor, guardedEnd_eq]
    omega
  · rw [cursorBehind, cursor, guardedEnd_eq, maxSize]
    omega

/--
Whenever `nextReadableRange` has returned a buffer, and however much the thread records
before it is read, `collectSamples` persists all samples of this buffer that are later than
`lastSampledTsc`, in order, and throws nothing.  As long as there is no overflow, the
samples of the buffers, one after the other, are all that has been recorded.
-/
theorem collectSamples_collectsAll {pool : Nat} {events : List Event} {state : State}
    (reached : run (step pool) State.new events = some state)
    (increasing : (recorded events).Pairwise fun earlier later =>
      earlier.tsc.val < later.tsc.val) :
    (state.writer.overflowCount = 0 →
      recorded events = (List.range' 1 state.writer.writeIndex).flatMap state.writer.written) ∧
    ∀ first, state.curReadBuf = some first →
      first = bufferAt pool (state.readIndex + 1) ∧
        state.readIndex + 1 < state.writer.writeIndex ∧
        ∀ counts, CollectsAll state counts first
          (state.writer.written (state.readIndex + 1)) := by
  obtain ⟨laid, accounts, reads⟩ := run_reachable reached
  refine ⟨accounts.complete, ?_⟩
  intro first held
  obtain ⟨attached, rfl, finished⟩ := reads.holding first held
  have recent := (reads.bound attached).2
  refine ⟨rfl, finished, ?_⟩
  intro counts
  refine collectsAll_of_holds counts (laid.holds _ (Nat.le_of_lt finished) (by omega))
    (laid.packs _) (laid.finished _ (Nat.succ_pos _) finished) ?_
  exact List.pairwise_map.mpr (increasing.sublist (accounts.sublist _))

theorem returned_of_available {pool : Nat} {state : State} (null : state.curReadBuf = none)
    (available : state.writer.writeIndex > (state.readIndex + 1) % 2 ^ 64) :
    (nextReadableRange pool state).curReadBuf =
      some (bufferAt pool ((state.readIndex + 1) % 2 ^ 64)) := by
  have same : (if state.curReadBuf.isSome then (state.readIndex + 1) % 2 ^ 64 else
      state.readIndex) = state.readIndex := by rw [null]; rfl
  rw [nextReadableRange, same, if_pos available]

def readFirstBuffer : List Event :=
  .attachReader 3 :: (samplesFrom1 100000 2033).map Event.record ++ [.nextReadableRange]

theorem recorded_readFirstBuffer : recorded readFirstBuffer = samplesFrom1 100000 2033 := by
  have records := recorded_record (samplesFrom1 100000 2033)
  rw [recorded] at records
  rw [recorded, readFirstBuffer, List.cons_append, List.filterMap_cons_none rfl,
    List.filterMap_append, records]
  exact List.append_nil _

def firstBufferFull : State where
  writer := recordAll 4096 0 Writer.new (samplesFrom1 100000 2033)
  readIndex := 0
  curReadBuf := none
  buffer := ⟨3, 0, []⟩

theorem run_readFirstBuffer :
    run (step 4096) State.new readFirstBuffer = some (nextReadableRange 4096 firstBufferFull) ∧
      (nextReadableRange 4096 firstBufferFull).curReadBuf = some (bufferAt 4096 1) := by
  have even := @recordAll_samplesFrom1 4096 100000 0 2032 (by decide)
  have attached : step 4096 State.new (.attachReader 3) = some
      { State.new with readIndex := 0, buffer := ⟨3, 0, []⟩ } := rfl
  have written : run (step 4096) State.new
      (.attachReader 3 :: (samplesFrom1 100000 2033).map Event.record) = some firstBufferFull := by
    rw [run, attached, Option.bind_some, run_record]
    rfl
  have available : firstBufferFull.writer.writeIndex > (firstBufferFull.readIndex + 1) % 2 ^ 64 := by
    rw [firstBufferFull, even.writeIndex]
    decide
  constructor
  · rw [readFirstBuffer, run_snoc, written, Option.bind_some, step, if_pos (by decide)]
  · exact returned_of_available rfl available

theorem collectSamples_collectsAll_readFirstBuffer :
    ∃ state, run (step 4096) State.new readFirstBuffer = some state ∧
      state.curReadBuf = some (bufferAt 4096 1) ∧
      ∀ counts, CollectsAll state counts (bufferAt 4096 1)
        (state.writer.written (state.readIndex + 1)) := by
  obtain ⟨reached, held⟩ := run_readFirstBuffer
  have increasing := @samplesFrom1_increasing 100000 2033 (by decide)
  rw [← recorded_readFirstBuffer] at increasing
  have collects := (collectSamples_collectsAll reached increasing).2 _ held
  exact ⟨_, reached, held, collects.2.2⟩

end Xpedite.Collection
